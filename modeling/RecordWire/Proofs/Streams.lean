import Mathlib
import RecordWire.Stream.Growable
/-!
# Growable streams as a cursor over bytes

The laws of a growable stream are stated over the list of its logical bytes and its cursor.
Writing `d` at cursor `p` replaces the bytes from `p` on by `d` and keeps those after `d`'s end:
`splice`. A write that starts past the end lands right after the last byte, since the bytes
before the cursor are then all of them.

The logical bytes are a view of the physical buffer: its bytes up to the logical end, read with
zeros where the buffer stops short. The buffer a write leaves is the old one grown with zeros and
spliced at the cursor, so the law comes down to reading a splice byte by byte (`getD_splice`):
the scratch past the logical end is never read, and the zeros of growth only where the view
reads zeros already.
-/

namespace RecordWire

/-- `d` written over `bs` at offset `p`: the bytes before `p`, then `d`, then the bytes after
`d`'s end. -/
def splice (bs : List UInt8) (p : Nat) (d : List UInt8) : List UInt8 :=
  bs.take p ++ d ++ bs.drop (p + d.length)

@[simp] theorem splice_nil (bs : List UInt8) (p : Nat) : splice bs p [] = bs := by
  simp [splice]

theorem splice_min_length (bs : List UInt8) (p : Nat) (d : List UInt8) :
    splice bs p d = splice bs (min p bs.length) d := by
  rcases Nat.le_total p bs.length with h | h
  · rw [min_eq_left h]
  · rw [min_eq_right h]
    simp [splice, List.take_of_length_le h, List.drop_eq_nil_of_le (by omega : bs.length ≤ p + d.length)]

theorem length_splice {bs : List UInt8} {p : Nat} (h : p ≤ bs.length) (d : List UInt8) :
    (splice bs p d).length = max bs.length (p + d.length) := by
  simp only [splice, List.length_append, List.length_take, List.length_drop]
  omega

/-- Byte `i` of a splice at an offset within the list: from the list before the offset and
after the written bytes, from them in between. -/
theorem getD_splice {bs d : List UInt8} {p : Nat} (hp : p ≤ bs.length) (i : Nat) :
    (splice bs p d).getD i 0 =
      if i < p then bs.getD i 0 else if i < p + d.length then d.getD (i - p) 0 else bs.getD i 0 := by
  simp only [splice, List.getD_eq_getElem?_getD, List.append_assoc, List.getElem?_append,
    List.length_take, min_eq_left hp, List.getElem?_take, List.getElem?_drop]
  split_ifs <;> first | (exfalso; omega) | rfl | (congr 2; omega)

/-! ### Reading past the end as zeros -/

section Zeros

theorem getD_append_replicate (l : List UInt8) (k i : Nat) :
    (l ++ List.replicate k 0).getD i 0 = l.getD i 0 := by
  simp only [List.getD_eq_getElem?_getD]
  by_cases h : i < l.length
  · rw [List.getElem?_append_left h]
  · have hnone : l[i]? = none := List.getElem?_eq_none (by omega)
    rw [List.getElem?_append_right (by omega), hnone, List.getElem?_replicate]
    split_ifs <;> rfl

/-- The first `n` bytes of a list, read with zeros past its end. -/
theorem getD_take_replicate (l : List UInt8) {n i : Nat} (hi : i < n) :
    (l.take n ++ List.replicate (n - l.length) 0).getD i 0 = l.getD i 0 := by
  rw [getD_append_replicate]
  simp only [List.getD_eq_getElem?_getD, List.getElem?_take, if_pos hi]

theorem length_take_replicate (l : List UInt8) (n : Nat) :
    (l.take n ++ List.replicate (n - l.length) 0).length = n := by
  simp only [List.length_append, List.length_take, List.length_replicate]
  omega

end Zeros

@[simp] theorem length_data_toList (b : ByteArray) : b.data.toList.length = b.size := by
  rw [Array.length_toList, ByteArray.size_data]

theorem length_take_replicate_size (b : ByteArray) (n : Nat) :
    (b.data.toList.take n ++ List.replicate (n - b.size) 0).length = n := by
  rw [← length_data_toList]
  exact length_take_replicate _ _

@[simp] theorem zeroBytes_data_toList (n : Nat) : (zeroBytes n).data.toList = List.replicate n 0 :=
  Array.toList_replicate

@[simp] theorem size_zeroBytes (n : Nat) : (zeroBytes n).size = n := Array.size_replicate

/-- Copying all of `d` into `b` at `p` splices it in. -/
theorem copySlice_data_toList (d b : ByteArray) (p : Nat) :
    (d.copySlice 0 b p d.size).data.toList = splice b.data.toList p d.data.toList := by
  -- `copySlice` clamps its ranges, so only the two lengths need saying
  have hd : d.data.toList.length = d.size := Array.length_toList
  have hwhole : d.data.toList.take d.size = d.data.toList := List.take_of_length_le (by omega)
  have hafter : (b.data.toList.drop (p + d.size)).take (b.size - (p + d.size)) =
      b.data.toList.drop (p + d.size) :=
    List.take_of_length_le (by simp)
  simp only [ByteArray.copySlice, splice, Array.toList_append, Array.toList_extract, List.extract,
    hd]
  simp [hwhole, hafter]

theorem extract_zero_data_toList (b : ByteArray) (n : Nat) :
    (b.extract 0 n).data.toList = b.data.toList.take n := by
  simp [ByteArray.data_extract, Array.toList_extract, List.extract_eq_take_drop]

namespace GrowableStream

/-- The logical bytes: the buffer up to the logical end, with zeros where it stops short. -/
theorem bytes_data_toList (s : GrowableStream) :
    s.bytes.data.toList = s.buf.data.toList.take s.len ++ List.replicate (s.len - s.buf.size) 0 := by
  simp [bytes, ByteArray.data_append, Array.toList_extract, List.extract_eq_take_drop]

@[simp] theorem size_bytes (s : GrowableStream) : s.bytes.size = s.len := by
  have h := congrArg List.length (bytes_data_toList s)
  rwa [length_data_toList, length_take_replicate_size] at h

theorem bytes_data_toList_of_le {s : GrowableStream} (h : s.len ≤ s.buf.size) :
    s.bytes.data.toList = s.buf.data.toList.take s.len := by
  rw [bytes_data_toList, Nat.sub_eq_zero_of_le h, List.replicate_zero, List.append_nil]

/-- Byte `i` of the logical bytes is byte `i` of the buffer, or zero past its end. -/
theorem getD_bytes (s : GrowableStream) {i : Nat} (hi : i < s.len) :
    s.bytes.data.toList.getD i 0 = s.buf.data.toList.getD i 0 := by
  rw [bytes_data_toList, ← length_data_toList]
  exact getD_take_replicate _ hi

@[simp] theorem bytes_moveTo (s : GrowableStream) (p : Nat) :
    ({ s with pos := p } : GrowableStream).bytes = s.bytes := rfl

theorem reserve_data_toList (s : GrowableStream) (stop : Nat) :
    (s.reserve stop).data.toList =
      s.buf.data.toList ++ List.replicate (s.config.growTo s.buf.size stop - s.buf.size) 0 := by
  simp [reserve, ByteArray.data_append]

@[simp] theorem pos_writeBytes (st : GrowableStream) (d : ByteArray) :
    (st.writeBytes d).pos = st.pos + d.size := rfl

/-- A write splices the written bytes in at the cursor. -/
theorem bytes_writeBytes (st : GrowableStream) (d : ByteArray) :
    (st.writeBytes d).bytes.data.toList = splice st.bytes.data.toList st.pos d.data.toList := by
  set start := min st.pos st.len
  set R := (st.reserve (st.pos + d.size)).data.toList
  have hB : st.bytes.data.toList.length = st.len := by simp
  -- the grown buffer reaches the end of the write
  have hR : start + d.size ≤ R.length := by
    simp only [R, reserve_data_toList]
    have := st.config.le_growTo st.buf.size (st.pos + d.size)
    simp only [List.length_append, length_data_toList, List.length_replicate]
    omega
  have hbuf : (st.writeBytes d).buf.data.toList = splice R start d.data.toList :=
    copySlice_data_toList _ _ _
  have hlen : (st.writeBytes d).len = max st.len (start + d.size) := rfl
  rw [splice_min_length, hB]
  apply List.ext_getElem
  · rw [length_data_toList, size_bytes, hlen, length_splice (by omega), hB, length_data_toList]
  · intro i h₁ h₂
    have hi : i < max st.len (start + d.size) := by simpa [hlen] using h₁
    rw [← List.getD_eq_getElem _ 0 h₁, ← List.getD_eq_getElem _ 0 h₂, getD_bytes _ (hlen ▸ hi),
      hbuf, getD_splice (by omega), getD_splice (by omega)]
    -- before and after the written bytes, both read the old buffer within the logical end
    simp only [R, reserve_data_toList, getD_append_replicate, length_data_toList]
    split_ifs with hlo hhi
    · rw [getD_bytes _ (by omega)]
    · rfl
    · rw [getD_bytes _ (by omega)]

theorem unread_eq (g : GrowableStream) :
    (ByteStream.unread g).data.toList = g.bytes.data.toList.drop g.pos := by
  simp only [ByteStream.unread, ByteStream.length, ByteStream.contents, ByteStream.position,
    ByteArray.data_extract, Array.toList_extract, List.extract_eq_take_drop]
  -- the extracted range runs to the end, so the `take` keeps everything after the cursor
  exact List.take_of_length_le (by simp)

/-- Moving the cursor past `e` leaves what followed `e` unread. -/
theorem unread_skip {g : GrowableStream} {e rest : List UInt8}
    (h : (ByteStream.unread g).data.toList = e ++ rest) :
    (ByteStream.unread { g with pos := g.pos + e.length }).data.toList = rest := by
  rw [unread_eq] at h ⊢
  rw [bytes_moveTo, ← List.drop_drop, h, List.drop_left]

end GrowableStream

end RecordWire
