/-!
# UTF-8

A string travels as the UTF-8 encoding of its characters. Decoding accepts exactly the
well-formed byte sequences of the Unicode standard: no overlong forms, no surrogates, nothing
above `U+10FFFF`, and no sequence cut short.
-/

namespace RecordWire

/-- The UTF-8 bytes of a character list. -/
def utf8Encode (cs : List Char) : List UInt8 := cs.flatMap String.utf8EncodeChar

/-- The UTF-8 bytes of a string. -/
def utf8Bytes (s : String) : List UInt8 := utf8Encode s.toList

/-- Whether `b` is a continuation byte between `lo` and `hi`. -/
def inByteRange (b : UInt8) (lo hi : Nat) : Bool := lo ≤ b.toNat && b.toNat ≤ hi

/-- The low six bits of a continuation byte. -/
def contBits (b : UInt8) : Nat := b.toNat % 64

/-- Decodes well-formed UTF-8; none for any ill-formed sequence. -/
def utf8Decode : List UInt8 → Option (List Char)
  | [] => some []
  | b0 :: rest =>
    let n0 := b0.toNat
    if n0 < 0x80 then (utf8Decode rest).map (Char.ofNat n0 :: ·)
    else if 0xC2 ≤ n0 ∧ n0 ≤ 0xDF then
      match rest with
      | b1 :: rest =>
        if inByteRange b1 0x80 0xBF then
          (utf8Decode rest).map (Char.ofNat ((n0 % 32) * 64 + contBits b1) :: ·)
        else none
      | [] => none
    else if 0xE0 ≤ n0 ∧ n0 ≤ 0xEF then
      let (lo, hi) := if n0 = 0xE0 then (0xA0, 0xBF) else if n0 = 0xED then (0x80, 0x9F)
        else (0x80, 0xBF)
      match rest with
      | b1 :: b2 :: rest =>
        if inByteRange b1 lo hi && inByteRange b2 0x80 0xBF then
          (utf8Decode rest).map
            (Char.ofNat ((n0 % 16) * 4096 + contBits b1 * 64 + contBits b2) :: ·)
        else none
      | _ => none
    else if 0xF0 ≤ n0 ∧ n0 ≤ 0xF4 then
      let (lo, hi) := if n0 = 0xF0 then (0x90, 0xBF) else if n0 = 0xF4 then (0x80, 0x8F)
        else (0x80, 0xBF)
      match rest with
      | b1 :: b2 :: b3 :: rest =>
        if inByteRange b1 lo hi && inByteRange b2 0x80 0xBF && inByteRange b3 0x80 0xBF then
          (utf8Decode rest).map (Char.ofNat ((n0 % 8) * 262144 + contBits b1 * 4096
            + contBits b2 * 64 + contBits b3) :: ·)
        else none
      | _ => none
    else none

end RecordWire
