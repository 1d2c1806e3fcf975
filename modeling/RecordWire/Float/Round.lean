import RecordWire.Float.Format
/-!
# Rounding a ratio to a float

`FloatFormat.round` gives the pattern nearest to `±num / den`, a tie going to the even
significand; values past the largest finite number become infinities, and values too small
for the least subnormal become zeros. Exact `Nat` arithmetic does all of it, so decimal
reading, each rounding step of a scaled reading, and narrowing from double to single precision
share one rule.
-/

namespace RecordWire

/-- The greatest `k` with `2 ^ k ≤ num / den`, for positive `num` and `den`. -/
def floorLog2 (num den : Nat) : Int :=
  let k : Int := (Nat.log2 num : Int) - Nat.log2 den
  -- the estimate is exact or one too high
  if num * pow2Den k < den * pow2Num k then k - 1 else k

/-- Rounds `q / d` to the nearest integer, a tie going to the even one. -/
def roundHalfEven (q d : Nat) : Nat :=
  let m := q / d
  let r := q % d
  if 2 * r > d ∨ (2 * r = d ∧ m % 2 = 1) then m + 1 else m

namespace FloatFormat

/-- The pattern nearest to `±num / den` (ties to even). -/
def round (f : FloatFormat) (neg : Bool) (num den : Nat) : Nat :=
  if num = 0 ∨ den = 0 then f.zero neg
  else
    let k := max (floorLog2 num den) (1 - (f.bias : Int))
    -- the unit of the last place at binade `k`
    let q := k - f.fractionBits
    let mant := roundHalfEven (num * pow2Den q) (den * pow2Num q)
    let (mant, k) := if mant = Nat.pow 2 (f.fractionBits + 1) then (mant / 2, k + 1) else (mant, k)
    if k > f.bias then f.infinity neg
    else if mant < Nat.pow 2 f.fractionBits then f.pack neg 0 mant
    else f.pack neg (k + f.bias).toNat (mant - Nat.pow 2 f.fractionBits)

/-- The ratio `num / den` of a finite value `mant · 2 ^ exp`. -/
def ratioOf (mant : Nat) (exp : Int) : Nat × Nat := (mant * pow2Num exp, pow2Den exp)

/-- The pattern of `target` nearest to the value of pattern `bits` of `src`. A NaN becomes the
canonical NaN of `target`. -/
def convert (src target : FloatFormat) (bits : Nat) : Nat :=
  match src.decode bits with
  | .nan => target.canonicalNaN
  | .infinite neg => target.infinity neg
  | .finite neg mant exp =>
    let (n, d) := ratioOf mant exp
    target.round neg n d

end FloatFormat

end RecordWire
