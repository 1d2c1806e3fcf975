import Mathlib
import RecordWire.Proofs.Streams
import RecordWire.Stream.Slice
/-!
# Streams as a cursor over bytes

A byte stream means a list of bytes and a cursor into it (`ByteCursor`), and every call on a
stream is a step of that cursor: a write splices its bytes in at the cursor, a read takes the
bytes from the cursor on or fails with an underflow, a seek moves the cursor up to the end, and
a call that fails changes nothing. A growable stream also truncates at the cursor, clears and
clones; a slice stream refuses every write and so keeps its bytes.

The physical capacity of a growable stream never shows through the cursor: it covers the
logical bytes after every call (`GrowableStream.Inv`), so growing, giving capacity back and
reallocating keep them. That needs a configured alignment of at most `2 ^ 63` and never more
than `2 ^ 63` bytes in the stream, the sizes a machine with 64-bit words can hold. A larger
alignment wraps to an effective alignment of zero; a truncation that gives capacity back then
gives all of it, and the bytes before the cursor read as zeros (`truncate_of_wide_alignment`).

Main statement: `streams_refine_cursor`.
-/

namespace RecordWire

/-! ### Sizes -/

theorem usizeMax_succ : usizeMax + 1 = 2 ^ 64 := rfl

/-- Doubling a power of two while it is below a target of at most `2 ^ 63` ends on a power of
two no larger than `2 ^ 63`. -/
theorem nextPowerOfTwo_go_pow {n p : Nat} (hn : n ≤ 2 ^ 63) (hp : ∃ j ≤ 63, p = 2 ^ j) :
    ∃ k ≤ 63, nextPowerOfTwo.go n p = 2 ^ k := by
  fun_induction nextPowerOfTwo.go n p with
  | case1 p h ih =>
    obtain ⟨j, hj, rfl⟩ := hp
    -- `2 ^ j < n ≤ 2 ^ 63`, so one more doubling stays within `2 ^ 63`
    have hj' : j < 63 := by
      by_contra hge
      have : 2 ^ 63 ≤ 2 ^ j := Nat.pow_le_pow_right (by omega) (by omega)
      omega
    exact ih ⟨j + 1, by omega, by rw [Nat.pow_succ]; ring⟩
  | case2 p h => exact hp

/-- Doubling a power of two stops at or above the target, on a power of two. -/
theorem le_nextPowerOfTwo_go {n p : Nat} (hp : ∃ j, p = 2 ^ j) :
    n ≤ nextPowerOfTwo.go n p ∧ ∃ k, nextPowerOfTwo.go n p = 2 ^ k := by
  fun_induction nextPowerOfTwo.go n p with
  | case1 p h ih =>
    obtain ⟨j, rfl⟩ := hp
    exact ih ⟨j + 1, by rw [Nat.pow_succ]; ring⟩
  | case2 p h =>
    obtain ⟨j, rfl⟩ := hp
    exact ⟨by have := Nat.two_pow_pos j; omega, j, rfl⟩

namespace StreamConfig

/-- An alignment of at most `2 ^ 63` is in effect as a power of two no larger. -/
theorem effectiveAlignment_pow {c : StreamConfig} (h : c.alignment ≤ 2 ^ 63) :
    ∃ k ≤ 63, c.effectiveAlignment = 2 ^ k := by
  obtain ⟨k, hk, he⟩ :=
    nextPowerOfTwo_go_pow (n := max c.alignment 1) (p := 1) (by omega) ⟨0, by omega, rfl⟩
  have hsmall : 2 ^ k < usizeMax + 1 := by
    rw [usizeMax_succ]
    exact Nat.pow_lt_pow_right (by omega) (by omega)
  exact ⟨k, hk, by rw [effectiveAlignment, nextPowerOfTwo, he, Nat.mod_eq_of_lt hsmall]⟩

/-- An alignment above `2 ^ 63` wraps to zero: its next power of two is a multiple of the
word size. -/
theorem effectiveAlignment_eq_zero {c : StreamConfig} (h : 2 ^ 63 < c.alignment) :
    c.effectiveAlignment = 0 := by
  obtain ⟨hle, k, hk⟩ := le_nextPowerOfTwo_go (n := max c.alignment 1) (p := 1) ⟨0, rfl⟩
  have hk64 : 64 ≤ k := by
    by_contra hlt
    have : 2 ^ k ≤ 2 ^ 63 := Nat.pow_le_pow_right (by omega) (by omega)
    omega
  rw [effectiveAlignment, nextPowerOfTwo, hk, usizeMax_succ]
  exact Nat.mod_eq_zero_of_dvd (Nat.pow_dvd_pow 2 hk64)

theorem effectiveAlignment_pos_le {c : StreamConfig} (h : c.alignment ≤ 2 ^ 63) :
    0 < c.effectiveAlignment ∧ c.effectiveAlignment ≤ 2 ^ 63 := by
  obtain ⟨k, hk, hA⟩ := effectiveAlignment_pow h
  exact ⟨hA ▸ Nat.two_pow_pos k, hA ▸ Nat.pow_le_pow_right (by omega) hk⟩

/-- Rounding up reaches `n` when the alignment is in effect and `n` fits a signed word. -/
theorem le_roundUp {c : StreamConfig} (h : c.alignment ≤ 2 ^ 63) {n : Nat} (hn : n ≤ 2 ^ 63) :
    n ≤ c.roundUp n := by
  obtain ⟨hpos, hle⟩ := effectiveAlignment_pos_le h
  -- below `2 ^ 64` the saturating sum is the sum
  have hsat : satAdd n (c.effectiveAlignment - 1) = n + (c.effectiveAlignment - 1) :=
    min_eq_left (by have := usizeMax_succ; omega)
  rw [roundUp, alignDown, hsat]
  have hdiv := Nat.div_add_mod' (n + (c.effectiveAlignment - 1)) c.effectiveAlignment
  have hmod := Nat.mod_lt (n + (c.effectiveAlignment - 1)) hpos
  omega

theorem le_growTo_self (c : StreamConfig) (cap target : Nat) : cap ≤ c.growTo cap target := by
  fun_induction c.growTo cap target with
  | case1 cap _ _ ih => exact (c.lt_grow cap).le.trans ih
  | case2 cap _ => exact le_rfl

end StreamConfig

/-! ### The cursor -/

/-- What a byte stream means: its logical bytes and its cursor. -/
structure ByteCursor where
  /-- The logical bytes. -/
  bytes : List UInt8
  /-- The cursor. -/
  pos : Nat
  deriving DecidableEq, Repr

/-- A call that every byte stream answers. -/
inductive StreamOp where
  /-- Write these bytes at the cursor. -/
  | write (d : List UInt8)
  /-- Read this many bytes at the cursor. -/
  | read (n : Nat)
  /-- Move the cursor here. -/
  | seek (q : Nat)
  deriving DecidableEq, Repr

/-- A call on a growable stream: one of every stream's, or one that reshapes the stream. -/
inductive GrowOp where
  /-- A call every stream answers. -/
  | stream (op : StreamOp)
  /-- Drop the bytes after the cursor. -/
  | truncate
  /-- Drop all the bytes. -/
  | clear
  /-- Replace the stream with its clone. -/
  | clone
  deriving DecidableEq, Repr

/-- How many bytes a call writes. -/
def GrowOp.written : GrowOp → Nat
  | .stream (.write d) => d.length
  | _ => 0

namespace ByteCursor

/-- One call on the cursor: the answer (the bytes a read takes, none for the other calls, or
the error) and the cursor after it. A call that fails leaves the cursor as it was. -/
def step (c : ByteCursor) : StreamOp → Except StreamError (List UInt8) × ByteCursor
  | .write d => (.ok [], ⟨splice c.bytes c.pos d, c.pos + d.length⟩)
  | .read n =>
    if n ≤ c.bytes.length - c.pos then
      (.ok ((c.bytes.drop c.pos).take n), ⟨c.bytes, c.pos + n⟩)
    else (.error (.underflow n (c.bytes.length - c.pos)), c)
  | .seek q =>
    if q ≤ c.bytes.length then (.ok [], ⟨c.bytes, q⟩)
    else (.error (.invalidSeek q c.bytes.length), c)

/-- One call on a cursor over fixed bytes: every write fails. -/
def readOnlyStep (c : ByteCursor) : StreamOp → Except StreamError (List UInt8) × ByteCursor
  | .write _ => (.error .writeOnReadOnly, c)
  | op => c.step op

/-- One call on the cursor of a growable stream: truncating drops the bytes after the cursor,
clearing drops them all, and a clone starts over at the same bytes. -/
def growStep (c : ByteCursor) : GrowOp → Except StreamError (List UInt8) × ByteCursor
  | .stream op => c.step op
  | .truncate => (.ok [], ⟨c.bytes.take c.pos, c.pos⟩)
  | .clear => (.ok [], ⟨[], 0⟩)
  | .clone => (.ok [], ⟨c.bytes, 0⟩)

end ByteCursor

/-! ### Runs -/

/-- The answers of `ops`, called one after another from `a`, and the state they leave. -/
def runOps {α ω ρ : Type} (step : α → ω → ρ × α) (a : α) : List ω → List ρ × α
  | [] => ([], a)
  | op :: ops =>
    let r := step a op
    (runOps step r.2 ops).map (r.1 :: ·) id

section Runs

variable {α β ω ρ : Type} {step : α → ω → ρ × α}

/-- What every step keeps holds after a run. The property may look at the calls still to come,
so a budget that each call spends from is kept the same way. -/
theorem runOps_invariant (P : List ω → α → Prop)
    (h : ∀ a op ops, P (op :: ops) a → P ops (step a op).2) {a : α} {ops : List ω}
    (ha : P ops a) : P [] (runOps step a ops).2 := by
  induction ops generalizing a with
  | nil => exact ha
  | cons op ops ih => exact ih (h a op ops ha)

/-- A run seen through `f` is a run of `step'` when every step from a state that keeps the
invariant is. -/
theorem runOps_map {step' : β → ω → ρ × β} (f : α → β) (P : List ω → α → Prop)
    (h : ∀ a op ops, P (op :: ops) a → P ops (step a op).2)
    (hsim : ∀ a op ops, P (op :: ops) a → step' (f a) op = (step a op).map id f)
    {a : α} {ops : List ω} (ha : P ops a) :
    runOps step' (f a) ops = (runOps step a ops).map id f := by
  induction ops generalizing a with
  | nil => rfl
  | cons op ops ih =>
    simp only [runOps, hsim a op ops ha, Prod.map, id, ih (h a op ops ha)]

end Runs

/-! ### Calls on any byte stream -/

namespace ByteStream

variable {σ : Type} [ByteStream σ]

/-- One call on a byte stream, answered as the cursor answers it. A call that fails leaves the
stream as it was. -/
def call (s : σ) : StreamOp → Except StreamError (List UInt8) × σ
  | .write d =>
    match write s d.toByteArray with
    | .ok s' => (.ok [], s')
    | .error e => (.error e, s)
  | .read n =>
    match read s n with
    | .ok (bs, s') => (.ok bs.data.toList, s')
    | .error e => (.error e, s)
  | .seek q =>
    match seek s q with
    | .ok s' => (.ok [], s')
    | .error e => (.error e, s)

/-- The cursor a stream stands for. -/
def view (s : σ) : ByteCursor := ⟨(contents s).data.toList, position s⟩

theorem length_view (s : σ) : (view s).bytes.length = length s := by
  simp only [view, length, Array.length_toList, ByteArray.size_data]

theorem call_read_state (s : σ) (n : Nat) :
    (call s (.read n)).2 = if n ≤ left s then moveTo s (position s + n) else s := by
  simp only [call, read]
  split_ifs <;> rfl

theorem call_seek_state (s : σ) (q : Nat) :
    (call s (.seek q)).2 = if q ≤ length s then moveTo s q else s := by
  simp only [call, seek]
  split_ifs <;> rfl

section Lawful

-- moving the cursor keeps the bytes, in every stream here
variable (hmove : ∀ (s : σ) p, view (moveTo s p) = ⟨(view s).bytes, p⟩)
include hmove

theorem call_read (s : σ) (n : Nat) :
    (call s (.read n)).map id view = (view s).step (.read n) := by
  have hleft : left s = (view s).bytes.length - (view s).pos := by
    rw [length_view]; rfl
  simp only [call, read, ByteCursor.step, hleft]
  split_ifs with h
  · simp only [Prod.map, id, advance, hmove]
    simp [view, List.extract_eq_take_drop]
  · rfl

theorem call_seek (s : σ) (q : Nat) :
    (call s (.seek q)).map id view = (view s).step (.seek q) := by
  simp only [call, seek, ByteCursor.step, length_view]
  split_ifs with h
  · simp [hmove]
  · rfl

end Lawful

end ByteStream

/-! ### Growable streams -/

namespace GrowableStream

open ByteStream (view)

/-- One call on a growable stream. -/
def call (g : GrowableStream) : GrowOp → Except StreamError (List UInt8) × GrowableStream
  | .stream op => ByteStream.call g op
  | .truncate => (.ok [], g.truncate)
  | .clear => (.ok [], g.clear)
  | .clone => (.ok [], g.clone)

/-- The streams a program starts from: an empty one with a sizing policy (the default one for
a plain new stream), or one over given bytes. -/
inductive Fresh : GrowableStream → Prop
  | withConfig (c : StreamConfig) : Fresh (withConfig c)
  | ofBytes (bs : ByteArray) : Fresh (ofBytes bs)

/-- The cursor stays within the logical bytes, and the buffer covers them. -/
structure Inv (g : GrowableStream) : Prop where
  pos_le : g.pos ≤ g.bytes.size
  size_le : g.bytes.size ≤ g.capacity

theorem Fresh.inv {g : GrowableStream} : g.Fresh → g.Inv
  | .withConfig _ => ⟨Nat.zero_le _, by rw [size_bytes]; exact Nat.zero_le _⟩
  | .ofBytes _ => ⟨Nat.zero_le _, by rw [size_bytes]; exact le_rfl⟩

theorem Inv.pos_le_len {g : GrowableStream} (hg : g.Inv) : g.pos ≤ g.len := by
  simpa using hg.pos_le

theorem Inv.len_le {g : GrowableStream} (hg : g.Inv) : g.len ≤ g.buf.size := by
  simpa [capacity] using hg.size_le

theorem Inv.asBytes {g : GrowableStream} (hg : g.Inv) : g.asBytes = some g.bytes := by
  rw [GrowableStream.asBytes, if_pos hg.len_le]
  congr 1
  apply ByteArray.ext
  apply Array.toList_inj.mp
  rw [extract_zero_data_toList, bytes_data_toList_of_le hg.len_le]

@[simp] theorem view_eq (g : GrowableStream) : view g = ⟨g.bytes.data.toList, g.pos⟩ := rfl

@[simp] theorem pos_truncate (g : GrowableStream) : g.truncate.pos = g.pos := rfl

@[simp] theorem len_truncate (g : GrowableStream) : g.truncate.len = g.pos := rfl

@[simp] theorem config_truncate (g : GrowableStream) : g.truncate.config = g.config := by
  simp only [truncate]

/-- A truncation cuts the buffer to the aligned cursor exactly when it exceeds twice the cursor
(saturating) and the floor. -/
theorem capacity_truncate (g : GrowableStream) :
    g.truncate.capacity =
      if min (2 * g.pos) usizeMax < g.capacity ∧ g.config.shrinkFloor < g.capacity then
        min g.capacity (g.config.roundUp g.pos)
      else g.capacity := by
  unfold truncate capacity
  by_cases h : min (2 * g.pos) usizeMax < g.buf.size ∧ g.config.shrinkFloor < g.buf.size
  · simp only [h, and_self, if_true, ByteArray.size_extract, Nat.sub_zero]
    exact Nat.min_comm _ _
  · simp only [h, if_false]

theorem bytes_truncate_of_le {g : GrowableStream} (hg : g.Inv) (h : g.pos ≤ g.truncate.capacity) :
    g.truncate.bytes = g.bytes.extract 0 g.pos := by
  apply ByteArray.ext
  apply Array.toList_inj.mp
  rw [bytes_data_toList_of_le (s := g.truncate) h, extract_zero_data_toList,
    bytes_data_toList_of_le hg.len_le, List.take_take, min_eq_left hg.pos_le_len, len_truncate]
  -- the buffer left is the old one or its first bytes up to the aligned cursor
  have hbuf : g.truncate.buf =
      if min (2 * g.pos) usizeMax < g.buf.size ∧ g.config.shrinkFloor < g.buf.size then
        g.buf.extract 0 (g.config.roundUp g.pos)
      else g.buf := rfl
  rw [capacity_truncate] at h
  unfold capacity at h
  rw [hbuf]
  by_cases hshrink : min (2 * g.pos) usizeMax < g.buf.size ∧ g.config.shrinkFloor < g.buf.size
  · simp only [hshrink, and_self, if_true] at h ⊢
    rw [extract_zero_data_toList, List.take_take, min_eq_left (le_min_iff.mp h).2]
  · simp only [hshrink, if_false]

@[simp] theorem len_writeBytes (g : GrowableStream) (d : ByteArray) :
    (g.writeBytes d).len = max g.len (min g.pos g.len + d.size) := rfl

@[simp] theorem config_writeBytes (g : GrowableStream) (d : ByteArray) :
    (g.writeBytes d).config = g.config := rfl

theorem capacity_writeBytes (g : GrowableStream) (d : ByteArray) :
    (g.writeBytes d).capacity = g.config.growTo g.capacity (g.pos + d.size) := by
  have hgrow := g.config.le_growTo g.buf.size (g.pos + d.size)
  have hkeep := g.config.le_growTo_self g.buf.size (g.pos + d.size)
  have hbuf := copySlice_data_toList d (g.reserve (g.pos + d.size)) (min g.pos g.len)
  rw [reserve_data_toList] at hbuf
  have hlen := congrArg List.length hbuf
  rw [length_data_toList, length_splice (by simp; omega)] at hlen
  simp only [List.length_append, length_data_toList, List.length_replicate] at hlen
  simp only [capacity, writeBytes]
  omega

theorem call_write (g : GrowableStream) (d : List UInt8) :
    g.call (.stream (.write d)) = (.ok [], g.writeBytes d.toByteArray) := rfl

@[simp] theorem bytes_clear (g : GrowableStream) : g.clear.bytes.data.toList = [] := by
  simp [clear, bytes_data_toList]

/-- A clone's buffer: the logical bytes, then zeros up to the aligned length. -/
theorem clone_buf_data_toList (g : GrowableStream) :
    g.clone.buf.data.toList =
      g.bytes.data.toList ++ List.replicate (g.config.roundUp g.len - g.len) 0 := by
  have hcb : g.clone.buf =
      g.bytes.copySlice 0 (zeroBytes (g.config.roundUp g.len)) 0 g.bytes.size := by
    rw [size_bytes]; rfl
  rw [hcb, copySlice_data_toList]
  simp [splice]

theorem capacity_clone (g : GrowableStream) :
    g.clone.capacity = g.len + (g.config.roundUp g.len - g.len) := by
  rw [capacity, ← length_data_toList, clone_buf_data_toList]
  simp

theorem bytes_clone (g : GrowableStream) :
    g.clone.bytes = g.bytes ∧ g.bytes.size ≤ g.clone.capacity := by
  have hsize : g.len ≤ g.clone.buf.size := by
    rw [← capacity, capacity_clone]
    omega
  refine ⟨ByteArray.ext (Array.toList_inj.mp ?_), by simpa [capacity] using hsize⟩
  rw [bytes_data_toList_of_le (s := g.clone) hsize, clone_buf_data_toList]
  simp [clone]

/-! #### The invariant, call by call -/

section Invariant

variable {g : GrowableStream}

theorem Inv.moveTo (hg : g.Inv) {p : Nat} (hp : p ≤ g.bytes.size) : Inv { g with pos := p } :=
  ⟨hp, hg.size_le⟩

/-- A write ends inside the bytes it leaves, and growing covers both the old bytes and the end
of the write. -/
theorem Inv.writeBytes (hg : g.Inv) (d : ByteArray) : (g.writeBytes d).Inv := by
  have hpos := hg.pos_le_len
  have hlen := hg.len_le
  have hstop := g.config.le_growTo g.capacity (g.pos + d.size)
  have hcap := g.config.le_growTo_self g.capacity (g.pos + d.size)
  constructor
  · simp only [size_bytes, len_writeBytes, pos_writeBytes]
    omega
  · simp only [size_bytes, len_writeBytes, capacity_writeBytes]
    simp only [capacity] at hstop hcap ⊢
    omega

@[simp] theorem config_call (op : GrowOp) : (g.call op).2.config = g.config := by
  rcases op with ((d | n | q) | _ | _ | _)
  · rfl
  · rw [call, ByteStream.call_read_state]; split_ifs <;> rfl
  · rw [call, ByteStream.call_seek_state]; split_ifs <;> rfl
  · exact config_truncate g
  · rfl
  · rfl

section Fitting

-- the alignment is in effect and the bytes fit a signed machine word
variable (hg : g.Inv) (halign : g.config.alignment ≤ 2 ^ 63) (hsize : g.bytes.size ≤ 2 ^ 63)
include hg halign hsize

/-- Truncating keeps the bytes before the cursor, and the buffer still covers them: the
aligned cursor does. -/
theorem truncate_keeps :
    g.truncate.bytes = g.bytes.extract 0 g.pos ∧ g.pos ≤ g.truncate.capacity := by
  have hround := g.config.le_roundUp halign (hg.pos_le.trans hsize)
  have hcap : g.pos ≤ g.capacity := hg.pos_le.trans hg.size_le
  -- the buffer left is the old one or the aligned cursor, and both cover the cursor
  have hcover : g.pos ≤ g.truncate.capacity := by
    rw [capacity_truncate]
    split_ifs
    · exact le_min hcap hround
    · exact hcap
  exact ⟨bytes_truncate_of_le hg hcover, hcover⟩

theorem Inv.call : ∀ op, (g.call op).2.Inv
  | .stream (.write d) => hg.writeBytes _
  | .stream (.read n) => by
    rw [GrowableStream.call, ByteStream.call_read_state]
    split_ifs with h
    · change n ≤ g.bytes.size - g.pos at h
      exact hg.moveTo (show g.pos + n ≤ g.bytes.size by have := hg.pos_le; omega)
    · exact hg
  | .stream (.seek q) => by
    rw [GrowableStream.call, ByteStream.call_seek_state]
    split_ifs with h
    · exact hg.moveTo h
    · exact hg
  | .truncate => by
    obtain ⟨hbytes, hcap⟩ := truncate_keeps hg halign hsize
    show g.truncate.Inv
    exact ⟨by simp, by simpa using hcap⟩
  | .clear => show g.clear.Inv from ⟨Nat.zero_le _, by simp [clear]⟩
  | .clone => by
    obtain ⟨hbytes, hcap⟩ := bytes_clone g
    exact show g.clone.Inv from ⟨Nat.zero_le _, hbytes ▸ hcap⟩

omit halign hsize in
theorem size_call_le : ∀ op, (g.call op).2.bytes.size ≤ g.bytes.size + op.written
  | .stream (.write d) => by
    simp only [call_write, size_bytes, len_writeBytes, GrowOp.written, List.size_toByteArray]
    omega
  | .stream (.read n) => by
    rw [call, ByteStream.call_read_state]
    split_ifs <;> exact Nat.le_add_right _ _
  | .stream (.seek q) => by
    rw [call, ByteStream.call_seek_state]
    split_ifs <;> exact Nat.le_add_right _ _
  | .truncate => by
    simpa [call, GrowOp.written] using hg.pos_le
  | .clear => by simp [call, clear]
  | .clone => by simp [call, (bytes_clone g).1]

/-- Every call answers as the cursor does. -/
theorem call_view : ∀ op, (g.call op).map id view = (view g).growStep op
  | .stream (.write d) => by
    simp [call_write, ByteCursor.growStep, ByteCursor.step, bytes_writeBytes]
  | .stream (.read n) => ByteStream.call_read (fun _ _ => rfl) g n
  | .stream (.seek q) => ByteStream.call_seek (fun _ _ => rfl) g q
  | .truncate => by
    obtain ⟨hbytes, -⟩ := truncate_keeps hg halign hsize
    simp [call, ByteCursor.growStep, hbytes, List.extract_eq_take_drop]
  | .clear => by
    simp only [call, ByteCursor.growStep, Prod.map, id, view_eq, bytes_clear]
    rfl
  | .clone => by
    simp only [call, ByteCursor.growStep, Prod.map, id, view_eq, (bytes_clone g).1]
    rfl

end Fitting

end Invariant

/-! #### Runs -/

/-- A stream that keeps the invariant, has its alignment in effect, and stays within `2 ^ 63`
bytes through the calls `ops` still to come. -/
structure Fits (ops : List GrowOp) (g : GrowableStream) : Prop where
  inv : g.Inv
  align : g.config.alignment ≤ 2 ^ 63
  size : g.bytes.size + (ops.map GrowOp.written).sum ≤ 2 ^ 63

theorem Fits.size_le {g : GrowableStream} {ops : List GrowOp} (h : Fits ops g) :
    g.bytes.size ≤ 2 ^ 63 :=
  (Nat.le_add_right _ _).trans h.size

theorem Fits.call {g : GrowableStream} {op : GrowOp} {ops : List GrowOp}
    (h : Fits (op :: ops) g) : Fits ops (g.call op).2 := by
  have hbudget := h.size
  simp only [List.map_cons, List.sum_cons] at hbudget
  have hle := size_call_le h.inv op
  exact ⟨h.inv.call h.align h.size_le op, by rw [config_call]; exact h.align, by omega⟩

/-! #### Alignments that wrap -/

/-- Under an alignment that wraps to zero a growth step adds one byte, so growing ends exactly
at the target. -/
theorem growTo_of_wide_alignment {c : StreamConfig} (halign : 2 ^ 63 < c.alignment)
    (cap target : Nat) : c.growTo cap target = max cap target := by
  have hzero := StreamConfig.effectiveAlignment_eq_zero halign
  fun_induction c.growTo cap target with
  | case1 cap hlt _ ih =>
    have hstep : c.grow cap = cap + 1 := by
      simp [StreamConfig.grow, StreamConfig.alignDown, hzero]
    rw [ih, hstep]
    omega
  | case2 cap h => omega

/-- With an alignment above `2 ^ 63` the alignment in effect wraps to zero, and a truncation
that gives memory back gives all of it, below the logical end: slicing the logical bytes out of
the buffer fails, and a write that follows grows the buffer with zeros, so the bytes before the
cursor read as zeros. -/
theorem truncate_of_wide_alignment {g : GrowableStream} (halign : 2 ^ 63 < g.config.alignment)
    (hshrink : min (2 * g.pos) usizeMax < g.capacity ∧ g.config.shrinkFloor < g.capacity)
    (hpos : 0 < g.pos) (d : ByteArray) :
    g.truncate.capacity = 0 ∧ g.truncate.asBytes = none ∧
      (g.truncate.writeBytes d).asBytes = some (zeroBytes g.pos ++ d) := by
  have hzero : g.config.roundUp g.pos = 0 := by
    simp [StreamConfig.roundUp, StreamConfig.alignDown,
      StreamConfig.effectiveAlignment_eq_zero halign]
  have hcap : g.truncate.capacity = 0 := by
    rw [capacity_truncate, if_pos hshrink, hzero, Nat.min_zero]
  have hbuf : g.truncate.buf.size = 0 := hcap
  refine ⟨hcap, by simp [GrowableStream.asBytes, hbuf]; omega, ?_⟩
  -- the write grows the empty buffer one byte at a time, to exactly its end
  have hgrow : g.truncate.config.growTo 0 (g.pos + d.size) = g.pos + d.size := by
    rw [config_truncate, growTo_of_wide_alignment halign]
    omega
  have hwb : (g.truncate.writeBytes d).buf =
      d.copySlice 0 (g.truncate.reserve (g.pos + d.size)) g.pos d.size := by
    simp only [writeBytes, pos_truncate, len_truncate, min_self]
  have hwrite : (g.truncate.writeBytes d).buf.data.toList =
      List.replicate g.pos 0 ++ d.data.toList := by
    have hnil : g.truncate.buf.data.toList = [] :=
      List.eq_nil_of_length_eq_zero (by rw [length_data_toList]; exact hbuf)
    rw [hwb, copySlice_data_toList, reserve_data_toList, hbuf, hgrow, hnil]
    simp [splice, List.take_replicate, List.drop_replicate]
  have hsize : (g.truncate.writeBytes d).buf.size = g.pos + d.size := by
    rw [← length_data_toList, hwrite]
    simp
  have hlen : (g.truncate.writeBytes d).len = g.pos + d.size := by simp
  rw [GrowableStream.asBytes, if_pos (by omega)]
  congr 1
  apply ByteArray.ext
  apply Array.toList_inj.mp
  rw [extract_zero_data_toList, hwrite, hlen, ByteArray.data_append, Array.toList_append,
    zeroBytes_data_toList]
  simp

end GrowableStream

/-! ### Slice streams -/

namespace SliceStream

open ByteStream (view)

/-- Every call on a slice stream answers as a cursor over fixed bytes does. -/
theorem call_view (s : SliceStream) :
    ∀ op, (ByteStream.call s op).map id view = (view s).readOnlyStep op
  | .write _ => rfl
  | .read n => ByteStream.call_read (fun _ _ => rfl) s n
  | .seek q => ByteStream.call_seek (fun _ _ => rfl) s q

theorem call_keeps {s : SliceStream} (hs : s.pos ≤ s.data.size) :
    ∀ op, (ByteStream.call s op).2.data = s.data ∧ (ByteStream.call s op).2.pos ≤ s.data.size
  | .write _ => ⟨rfl, hs⟩
  | .read n => by
    rw [ByteStream.call_read_state]
    split_ifs with h
    · change n ≤ s.data.size - s.pos at h
      exact ⟨rfl, show s.pos + n ≤ s.data.size by omega⟩
    · exact ⟨rfl, hs⟩
  | .seek q => by
    rw [ByteStream.call_seek_state]
    split_ifs with h
    · exact ⟨rfl, h⟩
    · exact ⟨rfl, hs⟩

end SliceStream

/-! ### Streams refine the cursor -/

open ByteStream (view)

/-- Growable and slice streams are cursors over bytes. From a fresh growable stream whose
alignment is in effect, through calls that write at most `2 ^ 63` bytes in all, every call
answers as the cursor does; the cursor stays within the logical bytes and the buffer covers
them, so slicing them out of the buffer gives the cursor's bytes, whatever scratch lies past
them. A slice stream answers every call as a cursor over its fixed bytes does. -/
theorem streams_refine_cursor {g : GrowableStream} (hg : g.Fresh)
    (halign : g.config.alignment ≤ 2 ^ 63) (ops : List GrowOp)
    (hfit : g.bytes.size + (ops.map GrowOp.written).sum ≤ 2 ^ 63)
    (b : ByteArray) (sliceOps : List StreamOp) :
    (let run := runOps GrowableStream.call g ops
     runOps ByteCursor.growStep (view g) ops = run.map id view ∧
       run.2.asBytes = some run.2.bytes ∧ run.2.pos ≤ run.2.len ∧
       run.2.len ≤ run.2.capacity) ∧
    (let run := runOps ByteStream.call ({ data := b } : SliceStream) sliceOps
     runOps ByteCursor.readOnlyStep ⟨b.data.toList, 0⟩ sliceOps = run.map id view ∧
       run.2.data = b ∧ run.2.pos ≤ b.size) := by
  constructor
  · have hfits : GrowableStream.Fits ops g := ⟨hg.inv, halign, hfit⟩
    have hinv := (runOps_invariant _ (fun _ _ _ h => h.call) hfits).inv
    exact ⟨runOps_map view _ (fun _ _ _ h => h.call)
        (fun _ op _ h => (GrowableStream.call_view h.inv h.align h.size_le op).symm) hfits,
      hinv.asBytes, hinv.pos_le_len, by simpa [GrowableStream.capacity] using hinv.len_le⟩
  · -- the bytes stay `b` and the cursor within them, whatever calls are still to come
    let P : List StreamOp → SliceStream → Prop := fun _ s => s.data = b ∧ s.pos ≤ b.size
    have hstep : ∀ s op ops, P (op :: ops) s → P ops (ByteStream.call s op).2 := by
      rintro s op - ⟨rfl, hs⟩
      exact SliceStream.call_keeps hs op
    have hstart : P sliceOps { data := b } := ⟨rfl, Nat.zero_le _⟩
    exact ⟨runOps_map view P hstep (fun s op _ _ => (SliceStream.call_view s op).symm) hstart,
      runOps_invariant P hstep hstart⟩

/-- A stream aligned to eight bytes, written, moved back, truncated and written past its end;
and a slice that refuses a write between two reads. -/
theorem truncated_stream_refines_cursor :
    let g := GrowableStream.withConfig { alignment := 8, shrinkFloor := 0 }
    let ops := [.stream (.write [1, 2, 3, 4, 5, 6, 7, 8, 9, 10]), .stream (.seek 2), .truncate,
      .stream (.write [0xaa]), .clear, .stream (.write [7]), .clone, .stream (.read 1)]
    let b := [1, 2, 3].toByteArray
    let sliceOps := [.read 2, .write [9], .read 2, .seek 1]
    g.Fresh ∧ g.config.alignment ≤ 2 ^ 63 ∧
      g.bytes.size + (ops.map GrowOp.written).sum ≤ 2 ^ 63 ∧
      (let run := runOps GrowableStream.call g ops
       runOps ByteCursor.growStep (view g) ops = run.map id view ∧
         run.2.asBytes = some run.2.bytes ∧ run.2.pos ≤ run.2.len ∧
         run.2.len ≤ run.2.capacity) ∧
      (let run := runOps ByteStream.call ({ data := b } : SliceStream) sliceOps
       runOps ByteCursor.readOnlyStep ⟨b.data.toList, 0⟩ sliceOps = run.map id view ∧
         run.2.data = b ∧ run.2.pos ≤ b.size) :=
  ⟨.withConfig _, by decide, by decide,
    streams_refine_cursor (.withConfig _) (by decide) _ (by decide) _ _⟩

end RecordWire
