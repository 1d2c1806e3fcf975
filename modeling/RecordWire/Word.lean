/-!
# Little-endian words

A fixed-width number travels as its bytes, least significant first. This module holds that
encoding over `List UInt8`, and the two's-complement reading of a word as a signed number.
The lemmas say that reading undoes writing for every number that fits the width.
-/

namespace RecordWire

/-- The low `n` bytes of `v`, least significant first. -/
def leBytes : Nat → Nat → List UInt8
  | 0, _ => []
  | n + 1, v => UInt8.ofNat (v % 256) :: leBytes n (v / 256)

/-- The number whose little-endian bytes are `bs`. -/
def ofLeBytes : List UInt8 → Nat
  | [] => 0
  | b :: bs => b.toNat + 256 * ofLeBytes bs

@[simp] theorem length_leBytes (n v : Nat) : (leBytes n v).length = n := by
  induction n generalizing v with
  | zero => rfl
  | succ n ih => simp [leBytes, ih]

theorem ofLeBytes_leBytes (n v : Nat) (h : v < Nat.pow 256 n) : ofLeBytes (leBytes n v) = v := by
  rw [Nat.pow_eq] at h
  induction n generalizing v with
  | zero => simp at h; simp [leBytes, ofLeBytes, h]
  | succ n ih =>
    have hv : v / 256 < 256 ^ n := by
      rw [Nat.pow_succ] at h
      exact Nat.div_lt_of_lt_mul (by rw [Nat.mul_comm]; exact h)
    have hb : (UInt8.ofNat (v % 256)).toNat = v % 256 := by simp
    simp only [leBytes, ofLeBytes, ih _ hv, hb]
    omega

theorem ofLeBytes_lt (bs : List UInt8) : ofLeBytes bs < Nat.pow 256 bs.length := by
  rw [Nat.pow_eq]
  induction bs with
  | nil => simp [ofLeBytes]
  | cons b bs ih =>
    simp only [ofLeBytes, List.length_cons, Nat.pow_succ]
    have := b.toNat_lt
    omega

/-- The signed number that the `bits`-bit word `w` stands for in two's complement. -/
def signedOfWord (bits w : Nat) : Int :=
  if w < Nat.pow 2 (bits - 1) then w else (w : Int) - Int.pow 2 bits

/-- The `bits`-bit two's-complement word of `v`. -/
def wordOfSigned (bits : Nat) (v : Int) : Nat :=
  (v % Int.pow 2 bits).toNat

end RecordWire
