/-!
# Binary floating-point formats

A binary interchange format packs a sign bit, an exponent field and a fraction field. Values
are kept as their bit patterns, so that every pattern (each NaN payload, both zeros) survives
untouched; this module reads a pattern as the number it stands for. A finite pattern stands for
`±mant · 2 ^ exp` with an integer significand `mant`.
-/

namespace RecordWire

/-- `2 ^ k` as a ratio: this numerator over `pow2Den k`. -/
def pow2Num (k : Int) : Nat := Nat.pow 2 k.toNat

/-- The denominator of `2 ^ k` as a ratio. -/
def pow2Den (k : Int) : Nat := Nat.pow 2 (-k).toNat

/-- A binary floating-point format, by the widths of its fields. -/
structure FloatFormat where
  /-- Bits of the stored fraction. -/
  fractionBits : Nat
  /-- Bits of the biased exponent. -/
  exponentBits : Nat
  deriving DecidableEq, Repr

/-- What a bit pattern stands for. -/
inductive FloatValue where
  /-- Not a number, whatever its payload. -/
  | nan
  /-- An infinity. -/
  | infinite (neg : Bool)
  /-- The number `±mant · 2 ^ exp`; `mant` is zero only for the zeros. -/
  | finite (neg : Bool) (mant : Nat) (exp : Int)
  deriving DecidableEq, Repr

namespace FloatFormat

/-- Single precision: 8 exponent bits, 23 fraction bits. -/
def single : FloatFormat := ⟨23, 8⟩

/-- Double precision: 11 exponent bits, 52 fraction bits. -/
def double : FloatFormat := ⟨52, 11⟩

/-- Bits of a whole pattern. -/
def width (f : FloatFormat) : Nat := f.fractionBits + f.exponentBits + 1

/-- The exponent bias. -/
def bias (f : FloatFormat) : Nat := Nat.pow 2 (f.exponentBits - 1) - 1

/-- The all-ones exponent field, which marks infinities and NaNs. -/
def topField (f : FloatFormat) : Nat := Nat.pow 2 f.exponentBits - 1

/-- The exponent of the least significant fraction bit of the smallest binade. -/
def minExp (f : FloatFormat) : Int := 1 - (f.bias : Int) - f.fractionBits

/-- The sign bit of a pattern. -/
def signOf (f : FloatFormat) (bits : Nat) : Bool := bits / Nat.pow 2 (f.width - 1) % 2 == 1

/-- The exponent field of a pattern. -/
def fieldOf (f : FloatFormat) (bits : Nat) : Nat := bits / Nat.pow 2 f.fractionBits % Nat.pow 2 f.exponentBits

/-- The fraction field of a pattern. -/
def fractionOf (f : FloatFormat) (bits : Nat) : Nat := bits % Nat.pow 2 f.fractionBits

/-- The number a pattern stands for. -/
def decode (f : FloatFormat) (bits : Nat) : FloatValue :=
  let neg := f.signOf bits
  let e := f.fieldOf bits
  let m := f.fractionOf bits
  if e = f.topField then
    if m = 0 then .infinite neg else .nan
  else if e = 0 then .finite neg m f.minExp
  else .finite neg (Nat.pow 2 f.fractionBits + m) (f.minExp + (e - 1 : Nat))

/-- The pattern with the given sign, exponent field and fraction. -/
def pack (f : FloatFormat) (neg : Bool) (field fraction : Nat) : Nat :=
  (if neg then Nat.pow 2 (f.width - 1) else 0) + field * Nat.pow 2 f.fractionBits + fraction

/-- The quiet NaN with an empty payload and no sign. -/
def canonicalNaN (f : FloatFormat) : Nat := f.pack false f.topField (Nat.pow 2 (f.fractionBits - 1))

/-- An infinity. -/
def infinity (f : FloatFormat) (neg : Bool) : Nat := f.pack neg f.topField 0

/-- A zero. -/
def zero (f : FloatFormat) (neg : Bool) : Nat := f.pack neg 0 0

/-- Flips the sign bit. -/
def negate (f : FloatFormat) (bits : Nat) : Nat :=
  if f.signOf bits then bits - Nat.pow 2 (f.width - 1) else bits + Nat.pow 2 (f.width - 1)

end FloatFormat

end RecordWire
