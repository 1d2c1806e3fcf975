import RecordWire.Float.Read
/-!
# Reading a decimal by scaling

A quick way to read a number of JSON's grammar, common among JSON readers: the digits are
gathered into a 64-bit significand, the significand becomes a double, and the double is scaled
by a power of ten from a table of doubles, each step rounded to the nearest double. The result
is often the nearest double but not always: a significand of more than 53 bits rounds before
the scaling rounds again, and an exponent beyond the table first divides by `10 ^ 308`.

Gathering keeps whole-part digits while the significand fits 64 bits; every whole-part digit
after the first that does not fit only raises the exponent. Fraction digits that fit join the
significand and lower the exponent; from the first that does not, the rest are dropped. The
exponent saturates at the bounds of a 32-bit signed word, and exponent digits past that bound
make the number zero, unless the significand is not zero and the exponent positive: then the
number is out of range. A result past the largest double is out of range too.
-/

namespace RecordWire

/-- The largest significand the gathering keeps: the largest 64-bit word. -/
def significandMax : Nat := Nat.pow 2 64 - 1

/-- The largest exponent the gathering reads: the largest 32-bit signed word. -/
def exponentMax : Nat := Nat.pow 2 31 - 1

/-- An exponent held to the range of a 32-bit signed word. -/
def saturateExponent (k : Int) : Int := max (-((exponentMax : Int) + 1)) (min exponentMax k)

/-- The value of an ASCII digit. -/
def digitOf (c : Char) : Nat := c.toNat - '0'.toNat

/-- Gathers whole-part digits into `(significand, exponent)`: digits join the significand while
it stays within `significandMax`; the first that would not, and every one after it, only raise
the exponent. -/
def gatherWhole (s : Nat) : List Nat → Nat × Int
  | [] => (s, 0)
  | d :: ds => if 10 * s + d ≤ significandMax then gatherWhole (10 * s + d) ds else (s, ds.length + 1)

/-- Gathers fraction digits: each that fits joins the significand and lowers the exponent by
one; from the first that does not, the rest are dropped. -/
def gatherFraction (s : Nat) (e : Int) : List Nat → Nat × Int
  | [] => (s, e)
  | d :: ds => if 10 * s + d ≤ significandMax then gatherFraction (10 * s + d) (e - 1) ds else (s, e)

/-- The value of exponent digits, or `none` once it passes `exponentMax`. -/
def gatherExponent (x : Nat) : List Nat → Option Nat
  | [] => some x
  | d :: ds => if 10 * x + d ≤ exponentMax then gatherExponent (10 * x + d) ds else none

namespace FloatFormat

/-- The double nearest `10 ^ i`: the table that scaling takes its powers from. -/
def pow10Double (i : Nat) : Nat := double.round false (Nat.pow 10 i) 1

/-- The double nearest the product of two finite nonnegative doubles. -/
def mulDouble (a b : Nat) : Nat :=
  match double.decode a, double.decode b with
  | .finite _ ma ea, .finite _ mb eb =>
    let (n, d) := ratioOf (ma * mb) (ea + eb)
    double.round false n d
  | _, _ => double.infinity false

/-- The double nearest the quotient of two finite nonnegative doubles, the divisor not zero. -/
def divDouble (a b : Nat) : Nat :=
  match double.decode a, double.decode b with
  | .finite _ ma ea, .finite _ mb eb =>
    let (n, d) := ratioOf ma (ea - eb)
    double.round false n (d * mb)
  | _, _ => double.infinity false

/-- Scales the nonnegative double `f` by `10 ^ k`: one multiplication or division by a table
power when `|k| ≤ 308`, else a division by `10 ^ 308` first, which a zero skips. `none` when
the result is past the largest double, or when no table power reaches a positive `k`. -/
def scaleByTen (f : Nat) (k : Int) : Option Nat :=
  if k.natAbs ≤ 308 then
    if 0 ≤ k then
      let g := mulDouble f (pow10Double k.natAbs)
      if g = double.infinity false then none else some g
    else some (divDouble f (pow10Double k.natAbs))
  else if f = 0 then some f
  else if 0 ≤ k then none
  else scaleByTen (divDouble f (pow10Double 308)) (k + 308)
termination_by (-k).toNat
decreasing_by omega

end FloatFormat

/-- What a number token reads as by scaling. -/
inductive ScaledRead where
  /-- A double, as its bit pattern. -/
  | value (bits : Nat)
  /-- A number past the largest double. -/
  | outOfRange
  deriving DecidableEq, Repr

/-- The parts of a number of JSON's grammar: the sign, the whole-part digits (one zero, or not
starting with zero), the fraction digits if a point is there (at least one), and the exponent's
sign and digits if an exponent is there (at least one digit). -/
def splitNumber? (token : List Char) :
    Option (Bool × List Char × Option (List Char) × Option (Bool × List Char)) :=
  let (neg, body) := match token with
    | '-' :: r => (true, r)
    | r => (false, r)
  let (whole, rest) := spanDigits body
  if whole.isEmpty ∨ (whole.length > 1 ∧ whole.head? = some '0') then none
  else
    let fraction : Option (Option (List Char) × List Char) := match rest with
      | '.' :: r =>
        let (ds, r) := spanDigits r
        if ds.isEmpty then none else some (some ds, r)
      | r => some (none, r)
    match fraction with
    | none => none
    | some (frac, rest) =>
      match rest with
      | [] => some (neg, whole, frac, none)
      | e :: r =>
        if e = 'e' ∨ e = 'E' then
          let (expNeg, r) := match r with
            | '-' :: r => (true, r)
            | '+' :: r => (false, r)
            | r => (false, r)
          let (ds, r) := spanDigits r
          if ds.isEmpty ∨ !r.isEmpty then none else some (neg, whole, frac, some (expNeg, ds))
        else none

/-- Reads a number of JSON's grammar by scaling; `none` if the grammar refuses the token. -/
def readScaled? (token : List Char) : Option ScaledRead := do
  let (neg, whole, frac, exp) ← splitNumber? token
  let (s, e) := gatherWhole 0 (whole.map digitOf)
  let (s, e) := gatherFraction s e ((frac.getD []).map digitOf)
  let signed (bits : Nat) : ScaledRead := .value (if neg then FloatFormat.double.negate bits else bits)
  let k : Option Int := match exp with
    | none => some e
    | some (expNeg, ds) =>
      (gatherExponent 0 (ds.map digitOf)).map fun x => saturateExponent (if expNeg then e - x else e + x)
  match k with
  | none =>
    let expNeg := (exp.map (·.1)).getD false
    pure (if s ≠ 0 ∧ !expNeg then .outOfRange else signed 0)
  | some k =>
    match FloatFormat.scaleByTen (FloatFormat.double.round false s 1) k with
    | some bits => pure (signed bits)
    | none => pure .outOfRange

end RecordWire
