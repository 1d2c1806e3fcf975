import RecordWire.Float.Round
import RecordWire.Float.Shortest
/-!
# Reading decimal text as a float

The grammar: an optional sign, then `inf`, `infinity` or `nan` in any case, or a decimal with
digits before or after an optional point (at least one digit in all) and an optional exponent
`e` or `E` with an optional sign and at least one digit. Nothing may follow. The value is the
exact decimal rounded to the nearest pattern; a negative sign gives the negative pattern, also
for zero and NaN. Exponent digits stop counting once the exponent reaches 65536, far beyond
every finite value.
-/

namespace RecordWire

/-- The number that a list of ASCII digits spells. -/
def digitsValue (ds : List Char) : Nat :=
  ds.foldl (fun n c => 10 * n + (c.toNat - '0'.toNat)) 0

/-- Exponent digits, which stop counting once the value reaches 65536. -/
def exponentValue (ds : List Char) : Nat :=
  ds.foldl (fun n c => if n < 65536 then 10 * n + (c.toNat - '0'.toNat) else n) 0

/-- Splits off the leading ASCII digits. -/
def spanDigits (cs : List Char) : List Char × List Char :=
  (cs.takeWhile Char.isDigit, cs.dropWhile Char.isDigit)

/-- The exponent part after `e`: an optional sign and at least one digit, then nothing. -/
def readExponent? (cs : List Char) : Option Int :=
  let (neg, cs) := match cs with
    | '-' :: r => (true, r)
    | '+' :: r => (false, r)
    | r => (false, r)
  let (ds, rest) := spanDigits cs
  if ds.isEmpty ∨ !rest.isEmpty then none
  else
    let e := exponentValue ds
    some (if neg then -(e : Int) else e)

/-- A decimal without sign: the digits as a number and the power of ten of the last one. -/
def readDecimal? (cs : List Char) : Option Decimal :=
  let (whole, rest) := spanDigits cs
  let (frac, rest) := match rest with
    | '.' :: r => spanDigits r
    | r => ([], r)
  if whole.length + frac.length = 0 then none
  else
    let mant := digitsValue (whole ++ frac)
    let scale : Int := -(frac.length : Int)
    match rest with
    | [] => some ⟨mant, scale⟩
    | c :: r => if c = 'e' ∨ c = 'E' then (readExponent? r).map (fun e => ⟨mant, scale + e⟩)
      else none

/-- ASCII lower case of a character list. -/
def lowerAscii (cs : List Char) : List Char := cs.map Char.toLower

namespace FloatFormat

/-- The pattern nearest to `±d`. Decimals far outside the range are decided by their length
alone. -/
def ofDecimal (f : FloatFormat) (neg : Bool) (d : Decimal) : Nat :=
  let magnitude : Int := (decimalLength d.digits : Int) + d.exp
  if d.digits = 0 then f.zero neg
  else if magnitude > 311 then f.infinity neg
  else if magnitude < -330 then f.zero neg
  else f.round neg (d.digits * pow10Num d.exp) (pow10Den d.exp)

/-- Reads a float token; `none` if the grammar refuses it. -/
def read? (f : FloatFormat) (token : List Char) : Option Nat :=
  let (neg, body) := match token with
    | '-' :: r => (true, r)
    | '+' :: r => (false, r)
    | r => (false, r)
  if body.isEmpty then none
  else match readDecimal? body with
    | some d => some (f.ofDecimal neg d)
    | none =>
      let word := lowerAscii body
      if word = "inf".toList ∨ word = "infinity".toList then some (f.infinity neg)
      else if word = "nan".toList then
        some (if neg then f.negate f.canonicalNaN else f.canonicalNaN)
      else none

end FloatFormat

end RecordWire
