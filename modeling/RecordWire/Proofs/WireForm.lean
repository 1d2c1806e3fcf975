import RecordWire.Proofs.Typed
import RecordWire.Codec.Binary
import RecordWire.Proofs.Streams
import RecordWire.Catalog
/-!
# The binary form as a grammar

The binary form of a value, read off its shape directly: a record is its members' forms one
after another, a collection is a four-byte little-endian element count followed by its elements'
forms, a string is its UTF-8 length in four bytes followed by the bytes, and every other scalar
is the little-endian bytes of its layout (integers in two's complement, floats as their
patterns, a boolean as zero or one, an entry as its `u8`).

Flattened, the form is a list of pieces, each a collection's count or a scalar leaf, in the order
they are written: `Schema.pieces`, and `Schema.wire` is their bytes. The encoder refuses three
kinds of pieces: a count of `2 ^ 32` or more elements, a string longer than a block, and a zero
entry. `encode_eq_emitAll` says that encoding a well-typed value writes its pieces one after
another and stops at the first refused one, having written all before it and nothing of it;
`encode_writes_wire_form` carries this to a growable stream, where the bytes land at the cursor.
-/

namespace RecordWire

/-! ## Writing one thing after another -/

namespace Emitted

@[simp] theorem nil_andThen (next : Unit → Emitted) : (⟨[], none⟩ : Emitted).andThen next = next () := by
  simp [andThen]

@[simp] theorem andThen_nil (e : Emitted) : e.andThen (fun _ => ⟨[], none⟩) = e := by
  unfold andThen
  split
  · rfl
  · next h => cases e; simp_all

theorem ok_andThen (bs : List UInt8) (next : Unit → Emitted) :
    (⟨bs, none⟩ : Emitted).andThen next = { next () with bytes := bs ++ (next ()).bytes } := rfl

theorem andThen_of_fault {e : Emitted} {f : CodecError} (h : e.fault = some f)
    (next : Unit → Emitted) : e.andThen next = e := by
  simp [andThen, h]

theorem andThen_assoc (e : Emitted) (next after : Unit → Emitted) :
    (e.andThen next).andThen after = e.andThen fun u => (next u).andThen after := by
  -- only a failure of `e` or of `next` stops the chain; both sides stop at the same one
  cases e with
  | mk bs fault =>
    cases fault with
    | some f => rfl
    | none =>
      simp only [ok_andThen]
      generalize next () = n
      cases n with
      | mk nb nf =>
        cases nf with
        | some f => simp [andThen]
        | none => simp [ok_andThen]

end Emitted

/-! ## Pieces -/

/-- The two's-complement word of an integer that fits the width is the integer itself. -/
theorem wordOfSigned_of_lt {bits : Nat} {n : Int} (h0 : 0 ≤ n) (h : n < 2 ^ bits) :
    wordOfSigned bits n = n.toNat := by
  have hmod : n % Int.pow 2 bits = n := Int.emod_eq_of_lt h0 h
  rw [wordOfSigned, hmod]

namespace ScalarType

/-- The binary form of a scalar, written out directly. -/
def wire (t : ScalarType) : Value → List UInt8
  | .int n => leBytes t.size (wordOfSigned (8 * t.size) n)
  | .float bits => leBytes t.size bits
  | .bool b => [if b then 1 else 0]
  | .str s => leBytes 4 (utf8Bytes s).length ++ utf8Bytes s
  | _ => []

end ScalarType

/-- A piece of a binary form: the element count that opens a collection, or a scalar. -/
inductive Piece where
  | count (n : Nat)
  | leaf (t : ScalarType) (v : Value)
  deriving DecidableEq, Repr

namespace Piece

/-- The bytes of a piece. -/
def bytes : Piece → List UInt8
  | count n => leBytes 4 n
  | leaf t v => t.wire v

/-- Why the encoder refuses a piece: a count that needs more than four bytes, a string longer
than a block, or a zero entry. -/
def refusal : Piece → Option CodecError
  | count n => if n < 2 ^ 32 then none else some (.collectionTooLarge n)
  | leaf .string (.str s) =>
    if (utf8Bytes s).length ≤ maxBlockSize then none
    else some (.stream (.blockTooLarge (utf8Bytes s).length))
  | leaf .entry (.int n) => if n = 0 then some (.stream .writeOnReadOnly) else none
  | leaf _ _ => none

/-- Writing one piece: its bytes, or nothing and its refusal. -/
def emit (p : Piece) : Emitted :=
  match p.refusal with
  | some e => ⟨[], some e⟩
  | none => ⟨p.bytes, none⟩

/-- Writing pieces one after another, up to the first refused one. -/
def emitAll : List Piece → Emitted
  | [] => ⟨[], none⟩
  | p :: ps => p.emit.andThen fun _ => emitAll ps

theorem emit_of_accepted {p : Piece} (h : p.refusal = none) : p.emit = ⟨p.bytes, none⟩ := by
  simp [emit, h]

theorem emit_of_refused {p : Piece} {e : CodecError} (h : p.refusal = some e) :
    p.emit = ⟨[], some e⟩ := by
  simp [emit, h]

theorem emitAll_append (ps qs : List Piece) :
    emitAll (ps ++ qs) = (emitAll ps).andThen fun _ => emitAll qs := by
  induction ps with
  | nil => simp [emitAll]
  | cons p ps ih => simp only [List.cons_append, emitAll, ih, Emitted.andThen_assoc]

theorem emitAll_of_accepted {ps : List Piece} (h : ∀ p ∈ ps, p.refusal = none) :
    emitAll ps = ⟨ps.flatMap bytes, none⟩ := by
  induction ps with
  | nil => rfl
  | cons p ps ih =>
    rw [emitAll, emit_of_accepted (h p List.mem_cons_self),
      ih fun q hq => h q (List.mem_cons_of_mem p hq)]
    rfl

/-- The first refused piece stops the writing: everything before it is written and nothing
of it, and its refusal is the answer. -/
theorem emitAll_of_refused {pre post : List Piece} {q : Piece} {e : CodecError}
    (hpre : ∀ p ∈ pre, p.refusal = none) (hq : q.refusal = some e) :
    emitAll (pre ++ q :: post) = ⟨pre.flatMap bytes, some e⟩ := by
  rw [emitAll_append, emitAll_of_accepted hpre, Emitted.ok_andThen, emitAll,
    emit_of_refused hq, Emitted.andThen_of_fault rfl]
  simp

end Piece

namespace Schema

variable {ι : Type} (S : Schema ι)

mutual
/-- The pieces of the binary form of a value of shape `s`, in the order they are written. -/
def pieces : Shape ι → Value → List Piece
  | .scalar t, v => [.leaf t v]
  | .record r, .record vs => piecesMembers (S.descriptor r).members vs
  | .collection _ e, .items xs => .count xs.length :: piecesItems e xs
  | _, _ => []
/-- The pieces of a record's members, one after another. -/
def piecesMembers : List (Member ι) → List Value → List Piece
  | m :: ms, v :: vs => pieces m.shape v ++ piecesMembers ms vs
  | _, _ => []
/-- The pieces of a collection's elements, one after another. -/
def piecesItems (e : Shape ι) : List Value → List Piece
  | v :: vs => pieces e v ++ piecesItems e vs
  | [] => []
end

/-- The binary form of a value of shape `s`. -/
def wire (s : Shape ι) (v : Value) : List UInt8 := (S.pieces s v).flatMap Piece.bytes

/-- Whether the encoder writes every piece of the value: no collection has `2 ^ 32` or more
elements, no string is longer than a block, and no entry is zero. -/
def WithinLimits (s : Shape ι) (v : Value) : Prop := ∀ p ∈ S.pieces s v, p.refusal = none

instance (s : Shape ι) (v : Value) : Decidable (S.WithinLimits s v) :=
  inferInstanceAs (Decidable (∀ p ∈ S.pieces s v, p.refusal = none))

@[simp] theorem wire_scalar (t : ScalarType) (v : Value) : S.wire (.scalar t) v = t.wire v := by
  simp [wire, pieces, Piece.bytes]

theorem wire_collection (k : CollectionKind) (e : Shape ι) (xs : List Value) :
    S.wire (.collection k e) (.items xs) = leBytes 4 xs.length ++ xs.flatMap (S.wire e) := by
  have items : ∀ xs : List Value,
      (S.piecesItems e xs).flatMap Piece.bytes = xs.flatMap (S.wire e) := by
    intro xs
    induction xs with
    | nil => simp [piecesItems]
    | cons x xs ih => simp [piecesItems, wire, ih]
  simp [wire, pieces, Piece.bytes, items]

theorem wire_record (r : ι) (vs : List Value) :
    S.wire (.record r) (.record vs) =
      ((S.descriptor r).members.zip vs).flatMap fun p => S.wire p.1.shape p.2 := by
  have members : ∀ (ms : List (Member ι)) (vs : List Value),
      (S.piecesMembers ms vs).flatMap Piece.bytes = (ms.zip vs).flatMap fun p => S.wire p.1.shape p.2 := by
    intro ms
    induction ms with
    | nil => simp [piecesMembers]
    | cons m ms ih => intro vs; cases vs <;> simp [piecesMembers, wire, ih]
  simp [wire, pieces, members]

variable {S}

theorem pieces_subset_of_mem_zip {ms : List (Member ι)} {vs : List Value} {p : Member ι × Value}
    (h : p ∈ ms.zip vs) : S.pieces p.1.shape p.2 ⊆ S.piecesMembers ms vs := by
  induction ms generalizing vs with
  | nil => simp at h
  | cons m ms ih =>
    cases vs with
    | nil => simp at h
    | cons v vs =>
      rw [List.zip_cons_cons, List.mem_cons] at h
      rw [piecesMembers]
      rcases h with rfl | h
      · exact List.subset_append_left _ _
      · exact List.Subset.trans (ih h) (List.subset_append_right _ _)

theorem pieces_subset_of_mem_items {e : Shape ι} {xs : List Value} {x : Value} (h : x ∈ xs) :
    S.pieces e x ⊆ S.piecesItems e xs := by
  induction xs with
  | nil => simp at h
  | cons y xs ih =>
    rw [piecesItems]
    rcases List.mem_cons.mp h with rfl | h
    · exact List.subset_append_left _ _
    · exact List.Subset.trans (ih h) (List.subset_append_right _ _)

/-! ## The encoder writes the pieces -/

theorem encode_scalar {t : ScalarType} {v : Value} (h : t.admits v = true) :
    S.encode (.scalar t) v = (Piece.leaf t v).emit := by
  cases v <;> cases t <;>
    simp_all [ScalarType.admits, ScalarType.encodeBinary, encode, Piece.emit, Piece.refusal,
      Piece.bytes, ScalarType.wire, ScalarType.intBits?, ScalarType.floatFormat?, ScalarType.size,
      FloatFormat.width, FloatFormat.single, FloatFormat.double]
  case str.string => split_ifs <;> rfl
  case int.entry n =>
    -- an entry is a byte, so its word is the number itself
    simp only [ScalarType.inRange, ScalarType.intBits?, Bool.and_eq_true, decide_eq_true_eq] at h
    split_ifs
    · rfl
    · simp [wordOfSigned_of_lt h.1 h.2]


theorem encodeMembers_eq_emitAll : ∀ (ms : List (Member ι)) (vs : List Value),
    (∀ p ∈ ms.zip vs, S.encode p.1.shape p.2 = Piece.emitAll (S.pieces p.1.shape p.2)) →
      S.encodeMembers ms vs = Piece.emitAll (S.piecesMembers ms vs)
  | [], _, _ => by simp [encodeMembers, piecesMembers, Piece.emitAll]
  | _ :: _, [], _ => by simp [encodeMembers, piecesMembers, Piece.emitAll]
  | m :: ms, v :: vs, h => by
    rw [encodeMembers, piecesMembers, Piece.emitAll_append, h (m, v) List.mem_cons_self,
      encodeMembers_eq_emitAll ms vs fun p hp => h p (List.mem_cons_of_mem _ hp)]

theorem encodeItems_eq_emitAll (e : Shape ι) : ∀ xs : List Value,
    (∀ x ∈ xs, S.encode e x = Piece.emitAll (S.pieces e x)) →
      S.encodeItems e xs = Piece.emitAll (S.piecesItems e xs)
  | [], _ => by simp [encodeItems, piecesItems, Piece.emitAll]
  | x :: xs, h => by
    rw [encodeItems, piecesItems, Piece.emitAll_append, h x List.mem_cons_self,
      encodeItems_eq_emitAll e xs fun y hy => h y (List.mem_cons_of_mem _ hy)]

/-- Encoding a well-typed value writes its pieces one after another, up to the first refused
one. -/
theorem encode_eq_emitAll {s : Shape ι} {v : Value} (hv : S.Typed s v) :
    S.encode s v = Piece.emitAll (S.pieces s v) := by
  induction hv with
  | scalar h => simp [encode_scalar h, pieces, Piece.emitAll]
  | record _ _ ih =>
    rw [encode, pieces]
    exact encodeMembers_eq_emitAll _ _ ih
  | @collection k e xs _ _ ih =>
    rw [encode, pieces, Piece.emitAll, encodeItems_eq_emitAll e xs ih]
    -- the count is refused exactly when the encoder's guard fails
    by_cases hlen : xs.length < 2 ^ 32
    · rw [if_pos (show xs.length < Nat.pow 2 32 from hlen), Piece.emit, Piece.refusal, if_pos hlen]
      rfl
    · rw [if_neg (show ¬xs.length < Nat.pow 2 32 from hlen), Piece.emit, Piece.refusal,
        if_neg hlen]
      rfl

/-- A well-typed value within the limits encodes to its binary form, with no failure. -/
theorem encode_of_withinLimits {s : Shape ι} {v : Value} (hv : S.Typed s v)
    (hlim : S.WithinLimits s v) : S.encode s v = ⟨S.wire s v, none⟩ := by
  rw [encode_eq_emitAll hv, Piece.emitAll_of_accepted hlim]
  rfl

end Schema

/-! ## On a growable stream -/

namespace GrowableStream

/-- Emitting on a growable stream writes the emitted bytes at the cursor, in place, and answers
the encoder's failure; the stream never refuses. -/
theorem emit_eq (st : GrowableStream) (out : Emitted) :
    (ByteStream.emit st out).2 = out.fault ∧
      (ByteStream.emit st out).1.bytes.data.toList = splice st.bytes.data.toList st.pos out.bytes ∧
      (ByteStream.emit st out).1.pos = st.pos + out.bytes.length := by
  unfold ByteStream.emit
  by_cases h : out.bytes.isEmpty
  · have hnil : out.bytes = [] := List.isEmpty_iff.mp h
    simp [hnil]
  · simp only [h, Bool.false_eq_true, if_false]
    refine ⟨rfl, ?_, ?_⟩
    · exact (bytes_writeBytes st _).trans (by simp)
    · simp [ByteStream.write]

end GrowableStream

namespace Schema

variable {ι : Type} {S : Schema ι}

/-- The encoder agrees with the binary form, failures included. Writing a well-typed value at
the cursor of a growable stream puts its whole binary form there when every piece is within the
limits; otherwise the first refused piece, in the order of writing, is the answer, and the
stream holds the forms of all pieces before it (the counts of enclosing collections included)
and nothing of it. -/
theorem encode_writes_wire_form {s : Shape ι} {v : Value} (hv : S.Typed s v)
    (st : GrowableStream) :
    (S.WithinLimits s v →
      (ByteStream.emit st (S.encode s v)).2 = none ∧
      (ByteStream.emit st (S.encode s v)).1.bytes.data.toList =
        splice st.bytes.data.toList st.pos (S.wire s v) ∧
      (ByteStream.emit st (S.encode s v)).1.pos = st.pos + (S.wire s v).length) ∧
    (∀ pre q post e, S.pieces s v = pre ++ q :: post → (∀ p ∈ pre, p.refusal = none) →
      q.refusal = some e →
      (ByteStream.emit st (S.encode s v)).2 = some e ∧
      (ByteStream.emit st (S.encode s v)).1.bytes.data.toList =
        splice st.bytes.data.toList st.pos (pre.flatMap Piece.bytes) ∧
      (ByteStream.emit st (S.encode s v)).1.pos = st.pos + (pre.flatMap Piece.bytes).length) := by
  obtain ⟨hfault, hbytes, hpos⟩ := GrowableStream.emit_eq st (S.encode s v)
  rw [encode_eq_emitAll hv] at hfault hbytes hpos ⊢
  constructor
  · intro hlim
    rw [Piece.emitAll_of_accepted hlim] at hfault hbytes hpos ⊢
    exact ⟨hfault, hbytes, hpos⟩
  · intro pre q post e hsplit hpre hq
    rw [hsplit, Piece.emitAll_of_refused hpre hq] at hfault hbytes hpos ⊢
    exact ⟨hfault, hbytes, hpos⟩

end Schema

/-- An `Account` whose second entry is zero: writing it stops at that entry, leaving the count
and the first entry on the stream. -/
theorem account_zero_entry_refused :
    let v : Value := .record [.items [.int 1, .int 0, .int 2]]
    let out := ByteStream.emit (GrowableStream.withConfig {}) (catalog.encode (.record .account) v)
    catalog.Typed (.record .account) v ∧
      out.2 = some (.stream .writeOnReadOnly) ∧ out.1.bytes.data.toList = [3, 0, 0, 0, 1] := by
  have hv : catalog.Typed (.record .account) (.record [.items [.int 1, .int 0, .int 2]]) := by
    decide
  obtain ⟨hfault, hbytes, -⟩ := (Schema.encode_writes_wire_form hv (GrowableStream.withConfig {})).2
    [.count 3, .leaf .entry (.int 1)] (.leaf .entry (.int 0)) [.leaf .entry (.int 2)] _
    (by decide) (by decide) rfl
  refine ⟨hv, hfault, ?_⟩
  rw [hbytes]
  decide

end RecordWire
