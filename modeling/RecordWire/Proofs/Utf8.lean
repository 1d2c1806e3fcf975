import Mathlib
import RecordWire.Text.Utf8
/-!
# Decoding undoes UTF-8 encoding

The UTF-8 decoder reads back every character the encoder writes, whatever bytes follow: one byte
below `0x80`, then two, three and four bytes with the lead byte's range and the first
continuation's range telling the lengths apart. Those ranges exclude overlong forms, surrogates
and code points past `U+10FFFF`, which is why the validity of a `Char` is used below: a
character in `U+D000..U+D7FF` keeps its second byte under `0x9F`, and one in
`U+100000..U+10FFFF` its second byte under `0x8F`.

The same ranges make the decoder strict the other way: every byte list it accepts is the
encoding of the characters it returns, so a string has exactly one spelling on the wire.
-/

namespace RecordWire

/-- The decoder reads a character's encoding back as the character, whatever follows it. -/
theorem utf8Decode_encodeChar_append (c : Char) (rest : List UInt8) :
    utf8Decode (String.utf8EncodeChar c ++ rest) = (utf8Decode rest).map (c :: ·) := by
  have hvalid : c.val.toNat < 0xd800 ∨ (0xdfff < c.val.toNat ∧ c.val.toNat < 0x110000) := c.valid
  have hc : Char.ofNat c.val.toNat = c := Char.ofNat_toNat c
  simp only [String.utf8EncodeChar]
  generalize c.val.toNat = v at hvalid hc
  subst hc
  -- one case per length; in each, the bytes are below 256 and decode to the code point again
  split_ifs with h1 h2 h3
  · have hb : (UInt8.ofNat v).toNat = v := by simp; omega
    rw [List.singleton_append, utf8Decode.eq_def]
    simp only [hb, show v < 128 by omega, if_true]
  · have hb0 : (UInt8.ofNat (v / 64 % 32 + 192)).toNat = v / 64 % 32 + 192 := by simp; omega
    have hb1 : (UInt8.ofNat (v % 64 + 128)).toNat = v % 64 + 128 := by simp; omega
    have hv : (v / 64 % 32 + 192) % 32 * 64 + (v % 64 + 128) % 64 = v := by omega
    rw [List.cons_append, List.singleton_append, utf8Decode.eq_def]
    simp only [hb0, hb1, inByteRange, contBits, hv]
    rw [if_neg (by omega), if_pos (by omega), if_pos (by simp; omega)]
  · have hb0 : (UInt8.ofNat (v / 4096 % 16 + 224)).toNat = v / 4096 % 16 + 224 := by
      simp; omega
    have hb1 : (UInt8.ofNat (v / 64 % 64 + 128)).toNat = v / 64 % 64 + 128 := by simp; omega
    have hb2 : (UInt8.ofNat (v % 64 + 128)).toNat = v % 64 + 128 := by simp; omega
    rw [List.cons_append, List.cons_append, List.singleton_append, utf8Decode.eq_def]
    simp only [hb0, hb1, hb2, inByteRange, contBits]
    clear hb0 hb1 hb2
    rw [if_neg (by omega), if_neg (by omega), if_pos (by omega)]
    have hv : (v / 4096 % 16 + 224) % 16 * 4096 + (v / 64 % 64 + 128) % 64 * 64
        + (v % 64 + 128) % 64 = v := by omega
    simp only [hv]
    -- the second byte lies in the range the lead byte allows
    split_ifs <;> first | rfl | (rename_i hbad; simp at hbad; omega)
  · have hb0 : (UInt8.ofNat (v / 262144 % 8 + 240)).toNat = v / 262144 % 8 + 240 := by
      simp; omega
    have hb1 : (UInt8.ofNat (v / 4096 % 64 + 128)).toNat = v / 4096 % 64 + 128 := by simp; omega
    have hb2 : (UInt8.ofNat (v / 64 % 64 + 128)).toNat = v / 64 % 64 + 128 := by simp; omega
    have hb3 : (UInt8.ofNat (v % 64 + 128)).toNat = v % 64 + 128 := by simp; omega
    rw [List.cons_append, List.cons_append, List.cons_append, List.singleton_append,
      utf8Decode.eq_def]
    simp only [hb0, hb1, hb2, hb3, inByteRange, contBits]
    -- the byte facts have been used; without them the guards are quick for omega
    clear hb0 hb1 hb2 hb3
    rw [if_neg (by omega), if_neg (by omega), if_neg (by omega), if_pos (by omega)]
    have hv : (v / 262144 % 8 + 240) % 8 * 262144 + (v / 4096 % 64 + 128) % 64 * 4096
        + (v / 64 % 64 + 128) % 64 * 64 + (v % 64 + 128) % 64 = v := by omega
    simp only [hv]
    split_ifs <;> first | rfl | (rename_i hbad; simp at hbad; omega)

theorem utf8Decode_encode_append (cs : List Char) (rest : List UInt8) :
    utf8Decode (utf8Encode cs ++ rest) = (utf8Decode rest).map (cs ++ ·) := by
  induction cs with
  | nil => simp [utf8Encode]
  | cons c cs ih =>
    rw [utf8Encode, List.flatMap_cons, List.append_assoc, utf8Decode_encodeChar_append]
    rw [utf8Encode] at ih
    rw [ih, Option.map_map]
    rfl

theorem utf8Decode_utf8Bytes (s : String) : utf8Decode (utf8Bytes s) = some s.toList := by
  have h := utf8Decode_encode_append s.toList []
  rw [List.append_nil] at h
  rw [utf8Bytes, h]
  simp [utf8Decode]

theorem ofNat_eq_of_toNat {b : UInt8} {x : Nat} (h : x = b.toNat) : UInt8.ofNat x = b := by
  subst h
  exact UInt8.ofNat_toNat

/-- The code points the decoder builds are those of characters. -/
theorem toNat_ofNat_of_valid {n : Nat} (h : n.isValidChar) : (Char.ofNat n).val.toNat = n := by
  simp [Char.ofNat, h, Char.ofNatAux]

theorem utf8EncodeChar_two {b0 b1 : UInt8} (h0 : 194 ≤ b0.toNat ∧ b0.toNat ≤ 223)
    (h1 : 128 ≤ b1.toNat ∧ b1.toNat ≤ 191) :
    String.utf8EncodeChar (Char.ofNat (b0.toNat % 32 * 64 + contBits b1)) = [b0, b1] := by
  generalize hn : b0.toNat % 32 * 64 + contBits b1 = n
  unfold contBits at hn
  simp only [String.utf8EncodeChar, toNat_ofNat_of_valid (show n.isValidChar by omega)]
  rw [if_neg (by omega), if_pos (by omega), ofNat_eq_of_toNat (b := b0) (by omega),
    ofNat_eq_of_toNat (b := b1) (by omega)]

/-- A three-byte sequence the decoder accepts is the encoding of its character: the bounds on
the second byte rule out overlong forms and surrogates. -/
theorem utf8EncodeChar_three {b0 b1 b2 : UInt8} (h0 : 224 ≤ b0.toNat ∧ b0.toNat ≤ 239)
    (h1 : 128 ≤ b1.toNat ∧ b1.toNat ≤ 191) (h2 : 128 ≤ b2.toNat ∧ b2.toNat ≤ 191)
    (hover : b0.toNat = 224 → 160 ≤ b1.toNat) (hsurrogate : b0.toNat = 237 → b1.toNat ≤ 159) :
    String.utf8EncodeChar (Char.ofNat (b0.toNat % 16 * 4096 + contBits b1 * 64 + contBits b2)) =
      [b0, b1, b2] := by
  generalize hn : b0.toNat % 16 * 4096 + contBits b1 * 64 + contBits b2 = n
  unfold contBits at hn
  simp only [String.utf8EncodeChar, toNat_ofNat_of_valid (show n.isValidChar by omega)]
  rw [if_neg (by omega), if_neg (by omega), if_pos (by omega),
    ofNat_eq_of_toNat (b := b0) (by omega), ofNat_eq_of_toNat (b := b1) (by omega),
    ofNat_eq_of_toNat (b := b2) (by omega)]

/-- A four-byte sequence the decoder accepts is the encoding of its character: the bounds on
the second byte rule out overlong forms and code points past `U+10FFFF`. -/
theorem utf8EncodeChar_four {b0 b1 b2 b3 : UInt8} (h0 : 240 ≤ b0.toNat ∧ b0.toNat ≤ 244)
    (h1 : 128 ≤ b1.toNat ∧ b1.toNat ≤ 191) (h2 : 128 ≤ b2.toNat ∧ b2.toNat ≤ 191)
    (h3 : 128 ≤ b3.toNat ∧ b3.toNat ≤ 191)
    (hover : b0.toNat = 240 → 144 ≤ b1.toNat) (hmax : b0.toNat = 244 → b1.toNat ≤ 143) :
    String.utf8EncodeChar (Char.ofNat (b0.toNat % 8 * 262144 + contBits b1 * 4096
      + contBits b2 * 64 + contBits b3)) = [b0, b1, b2, b3] := by
  generalize hn : b0.toNat % 8 * 262144 + contBits b1 * 4096 + contBits b2 * 64 + contBits b3 = n
  unfold contBits at hn
  simp only [String.utf8EncodeChar, toNat_ofNat_of_valid (show n.isValidChar by omega)]
  rw [if_neg (by omega), if_neg (by omega), if_neg (by omega),
    ofNat_eq_of_toNat (b := b0) (by omega), ofNat_eq_of_toNat (b := b1) (by omega),
    ofNat_eq_of_toNat (b := b2) (by omega), ofNat_eq_of_toNat (b := b3) (by omega)]

/-- One step of the decoder read backwards: a character in front of a decodable tail. -/
theorem utf8Encode_of_map {rest pre : List UInt8} {c : Char} {cs : List Char}
    (h : (utf8Decode rest).map (c :: ·) = some cs) (hc : String.utf8EncodeChar c = pre)
    (ih : ∀ {cs'}, utf8Decode rest = some cs' → utf8Encode cs' = rest) :
    utf8Encode cs = pre ++ rest := by
  obtain ⟨cs', h', rfl⟩ := Option.map_eq_some_iff.mp h
  rw [utf8Encode, List.flatMap_cons, hc, ← utf8Encode, ih h']

/-- Every byte list the decoder accepts is the encoding of what it decodes to: well-formed
UTF-8 has one spelling per character list. -/
theorem utf8Encode_of_utf8Decode {bs : List UInt8} {cs : List Char}
    (h : utf8Decode bs = some cs) : utf8Encode cs = bs := by
  fun_induction utf8Decode bs generalizing cs with
  | case1 => cases h; rfl
  | case2 b0 rest n0 hlow =>
    rename_i ih
    rw [utf8Encode_of_map h _ ih, List.singleton_append]
    simp only [String.utf8EncodeChar, toNat_ofNat_of_valid (show n0.isValidChar by omega)]
    rw [if_pos (by omega), ofNat_eq_of_toNat rfl]
  | case3 b0 n0 _ hlead b1 rest hb1 =>
    rename_i ih
    simp only [inByteRange, Bool.and_eq_true, decide_eq_true_eq] at hb1
    rw [utf8Encode_of_map h (utf8EncodeChar_two hlead hb1) ih]
    rfl
  | case6 b0 n0 _ _ hlead b1 b2 rest lo hi hbs hlh =>
    rename_i ih
    simp only [inByteRange, Bool.and_eq_true, decide_eq_true_eq] at hbs
    -- the lead byte chooses the range of the second byte
    have hb1 : (n0 = 224 → 160 ≤ b1.toNat) ∧ (n0 = 237 → b1.toNat ≤ 159) ∧
        128 ≤ b1.toNat ∧ b1.toNat ≤ 191 := by
      split_ifs at hlh <;> simp only [Prod.mk.injEq] at hlh <;> omega
    rw [utf8Encode_of_map h (utf8EncodeChar_three hlead hb1.2.2 hbs.2 hb1.1 hb1.2.1) ih]
    rfl
  | case9 b0 n0 _ _ _ hlead b1 b2 b3 rest lo hi hbs hlh =>
    rename_i ih
    simp only [inByteRange, Bool.and_eq_true, decide_eq_true_eq] at hbs
    have hb1 : (n0 = 240 → 144 ≤ b1.toNat) ∧ (n0 = 244 → b1.toNat ≤ 143) ∧
        128 ≤ b1.toNat ∧ b1.toNat ≤ 191 := by
      split_ifs at hlh <;> simp only [Prod.mk.injEq] at hlh <;> omega
    rw [utf8Encode_of_map h (utf8EncodeChar_four hlead hb1.2.2 hbs.1.2 hbs.2 hb1.1 hb1.2.1) ih]
    rfl
  | _ => cases h

theorem eq_utf8Bytes_of_utf8Decode {bs : List UInt8} {cs : List Char}
    (h : utf8Decode bs = some cs) : bs = utf8Bytes (String.ofList cs) := by
  rw [utf8Bytes, String.toList_ofList, utf8Encode_of_utf8Decode h]

end RecordWire
