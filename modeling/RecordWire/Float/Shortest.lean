import RecordWire.Float.Format
/-!
# Shortest decimal text of a float

A finite float is written with the fewest significant decimal digits that read back to the
same pattern, and among those the nearest to the value; an exact tie takes the upper one. The
reals that read back to a pattern form the rounding interval around it, which includes its ends
exactly when the significand is even. For each count of digits the value's two neighbours on
that decimal grid are tested against the interval, in exact `Nat` arithmetic; the first count
with a neighbour inside wins.

The interval is taken as a decoder of such digits takes it: halfway to each neighbouring
pattern, except that a significand that is an exact power of two has its lower neighbour half
as far away. The text is positional, never with an exponent: `1e21` is written with all its
zeros and `1e-7` as `0.0000001`.
-/

namespace RecordWire

/-- Digits `d` and exponent `e` of the decimal `d · 10 ^ e`. -/
structure Decimal where
  /-- The significant digits, as a number. -/
  digits : Nat
  /-- The power of ten of the last digit. -/
  exp : Int
  deriving DecidableEq, Repr

/-- `10 ^ k` as a ratio: this numerator over `pow10Den k`. -/
def pow10Num (k : Int) : Nat := Nat.pow 10 k.toNat

/-- The denominator of `10 ^ k` as a ratio. -/
def pow10Den (k : Int) : Nat := Nat.pow 10 (-k).toNat

/-- The number of decimal digits of `n` (one for zero). -/
def decimalLength (n : Nat) : Nat := (Nat.toDigits 10 n).length

/-- A scaled view of a positive value `v · 2 ^ e` and its interval `[v - lo, v + hi] · 2 ^ e`,
multiplied by a common denominator so that all are whole numbers together with a grid step
`10 ^ s`. -/
structure Scaled where
  value : Nat
  low : Nat
  high : Nat
  step : Nat

/-- Scales value, interval ends and the step `10 ^ s` to whole numbers. -/
def scaleAll (v lo hi : Nat) (e s : Int) : Scaled :=
  -- the common denominator is `pow2Den e * pow10Den s`
  let unit2 := pow2Num e * pow10Den s
  let unit10 := pow10Num s * pow2Den e
  { value := v * unit2, low := (v - lo) * unit2, high := (v + hi) * unit2, step := unit10 }

/-- The decimal on the grid of step `10 ^ s` that lies in the interval, nearest to the value,
a tie going up; none if neither grid neighbour is inside. -/
def gridPick (v lo hi : Nat) (e s : Int) (inclusive : Bool) : Option Decimal :=
  let x := scaleAll v lo hi e s
  let q := x.value / x.step
  let below := q * x.step
  let above := below + x.step
  let belowIn := if inclusive then x.low ≤ below else x.low < below
  let aboveIn := if inclusive then above ≤ x.high else above < x.high
  if belowIn ∧ aboveIn then
    if x.value - below < above - x.value then some ⟨q, s⟩ else some ⟨q + 1, s⟩
  else if belowIn then some ⟨q, s⟩
  else if aboveIn then some ⟨q + 1, s⟩
  else none

/-- The greatest `p` with `10 ^ p ≤ v · 2 ^ e`, for positive `v`. -/
def floorLog10 (v : Nat) (e : Int) : Int :=
  let num := v * pow2Num e
  let den := pow2Den e
  -- `num / den` lies in `[10 ^ (a - 1), 10 ^ (a + 1))` for `a` below
  let a : Int := (decimalLength num : Int) - decimalLength den
  if num * pow10Den a < den * pow10Num a then a - 1 else a

/-- Drops trailing zero digits. -/
def Decimal.normalize (d : Decimal) : Decimal :=
  go d.digits d.exp d.digits
where
  /-- At most `fuel` zeros are dropped; a number has fewer zeros than it has value. -/
  go (n : Nat) (e : Int) : Nat → Decimal
    | 0 => ⟨n, e⟩
    | fuel + 1 => if n ≠ 0 ∧ n % 10 = 0 then go (n / 10) (e + 1) fuel else ⟨n, e⟩

/-- The shortest decimal that reads back as the positive value `mant · 2 ^ exp`, where
`powerOfTwo` says the significand is the least of its binade (its lower neighbour is closer). -/
def shortestDecimal (mant : Nat) (exp : Int) (powerOfTwo : Bool) : Decimal :=
  let inclusive := mant % 2 == 0
  let (v, lo, hi, e) :=
    if powerOfTwo then (4 * mant, 1, 2, exp - 2) else (2 * mant, 1, 1, exp - 1)
  let p := floorLog10 mant exp
  let pick := (List.range 40).findSome? fun (k : Nat) => gridPick v lo hi e (p - k) inclusive
  (pick.getD ⟨mant, 0⟩).normalize

/-- Positional text of `digits · 10 ^ exp` with no exponent and no trailing point. -/
def Decimal.positional (d : Decimal) : String :=
  let ds := (Nat.toDigits 10 d.digits)
  let n := ds.length
  let point : Int := n + d.exp  -- digits before the decimal point
  if point ≤ 0 then
    "0." ++ String.ofList (List.replicate (-point).toNat '0' ++ ds)
  else if point < n then
    String.ofList (ds.take point.toNat ++ '.' :: ds.drop point.toNat)
  else
    String.ofList (ds ++ List.replicate (point - n).toNat '0')

namespace FloatFormat

/-- The display text of a pattern: shortest positional digits, `NaN`, `inf`, `-inf`, and a
minus sign on negative values including the negative zero. -/
def display (f : FloatFormat) (bits : Nat) : String :=
  match f.decode bits with
  | .nan => "NaN"
  | .infinite neg => if neg then "-inf" else "inf"
  | .finite neg mant exp =>
    let sign := if neg then "-" else ""
    if mant = 0 then sign ++ "0"
    else
      let powerOfTwo := mant == Nat.pow 2 f.fractionBits
      sign ++ (shortestDecimal mant exp powerOfTwo).positional

end FloatFormat

end RecordWire
