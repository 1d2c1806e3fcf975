import RecordWire.Proofs.ReadingSteps
/-!
# Cut-off input underflows

Reading a binary form that was cut off fails, and always by running out of bytes: no cut can
make a length prefix, a count or a piece of text read as anything else, because the decoder
follows the same path as on the whole form up to the first read that needs bytes past the cut,
and every check it makes on a length or on text bytes comes after those bytes are all read.

`Piece.underflowAt` says what that first read reports, for a cut inside one piece of the form: a
count, or any scalar but a string, is one read of its whole width; a string is a read of its four
length bytes and then one read of its text bytes. The read asks for its width and finds the
bytes left before the cut (`decode_cut`). For the protocol, a cut inside the four code bytes
fails on the code, and a later cut as the payload's does (`truncation_underflows`).
-/

namespace RecordWire

/-! ## Cuts of a four-byte prefix -/

theorem take_leBytes_append {n c : Nat} (body : List UInt8) (hc : 4 ≤ c) :
    (leBytes 4 n ++ body).take c = leBytes 4 n ++ body.take (c - 4) := by
  rw [List.take_append, List.take_of_length_le (by simp; omega), length_leBytes]

theorem Schema.readCount_take_of_lt {n c : Nat} (body : List UInt8) (hc : c < 4) :
    Schema.readCount ((leBytes 4 n ++ body).take c) = none := by
  simp [Schema.readCount]
  omega

namespace Piece

/-- The underflow a read reports when the input ends `c` bytes into this piece: a string asks
for its four length bytes and then for its text bytes; any other piece asks for its width. -/
def underflowAt : Piece → Nat → StreamError
  | count _, c => .underflow 4 c
  | leaf _ (.str s), c => if c < 4 then .underflow 4 c else .underflow (utf8Bytes s).length (c - 4)
  | leaf t _, c => .underflow t.size c

/-- The underflow reading pieces one after another reports when the input ends `c` bytes in:
that of the piece the cut falls in. -/
def cutUnderflow : List Piece → Nat → StreamError
  | [], c => .underflow 0 c
  | q :: qs, c =>
    if c < q.bytes.length then q.underflowAt c else cutUnderflow qs (c - q.bytes.length)

theorem cutUnderflow_append_of_lt {ps qs : List Piece} {c : Nat}
    (h : c < (ps.flatMap bytes).length) : cutUnderflow (ps ++ qs) c = cutUnderflow ps c := by
  induction ps generalizing c with
  | nil => simp at h
  | cons p ps ih =>
    simp only [List.flatMap_cons, List.length_append] at h
    simp only [List.cons_append, cutUnderflow]
    split
    · rfl
    · rw [ih (by omega)]

theorem cutUnderflow_append_of_le {ps qs : List Piece} {c : Nat}
    (h : (ps.flatMap bytes).length ≤ c) :
    cutUnderflow (ps ++ qs) c = cutUnderflow qs (c - (ps.flatMap bytes).length) := by
  induction ps generalizing c with
  | nil => simp
  | cons p ps ih =>
    simp only [List.flatMap_cons, List.length_append] at h
    simp only [List.cons_append, cutUnderflow, List.flatMap_cons, List.length_append]
    rw [if_neg (by omega), ih (by omega), Nat.sub_add_eq]

/-- A cut inside a piece is that piece's underflow, at the bytes of it before the cut. -/
theorem cutUnderflow_split {pre post : List Piece} {q : Piece} {c : Nat}
    (h₁ : (pre.flatMap bytes).length ≤ c) (h₂ : c < (pre.flatMap bytes).length + q.bytes.length) :
    cutUnderflow (pre ++ q :: post) c = q.underflowAt (c - (pre.flatMap bytes).length) := by
  rw [cutUnderflow_append_of_le h₁, cutUnderflow, if_pos (by omega)]

theorem exists_split_of_lt {ps : List Piece} {c : Nat} (h : c < (ps.flatMap bytes).length) :
    ∃ (pre post : List Piece) (q : Piece), ps = pre ++ q :: post ∧
      (pre.flatMap bytes).length ≤ c ∧ c < (pre.flatMap bytes).length + q.bytes.length := by
  induction ps generalizing c with
  | nil => simp at h
  | cons p ps ih =>
    by_cases hp : c < p.bytes.length
    · exact ⟨[], ps, p, rfl, by simp, by simpa using hp⟩
    · -- the cut lies past the first piece: find it in the rest and put the first piece in front
      have hrest : c - p.bytes.length < (ps.flatMap bytes).length := by
        simp only [List.flatMap_cons, List.length_append] at h
        omega
      obtain ⟨pre, post, q, rfl, h₁, h₂⟩ := ih hrest
      refine ⟨p :: pre, post, q, rfl, ?_, ?_⟩ <;>
        simp only [List.flatMap_cons, List.length_append] <;> omega

end Piece

/-! ## Scalars -/

namespace ScalarType

/-- A scalar form cut off `c` bytes in fails with the underflow of its piece. -/
theorem decodeBinary_take {t : ScalarType} {v : Value} (h : t.admits v = true)
    (hlim : (Piece.leaf t v).refusal = none) {c : Nat} (hc : c < (t.wire v).length) :
    ∃ rest, t.decodeBinary ((t.wire v).take c) =
      .error (.stream ((Piece.leaf t v).underflowAt c), rest) := by
  have hlen : ((t.wire v).take c).length = c := by simp; omega
  cases v with
  | int n =>
    simp only [admits, Bool.and_eq_true, Option.isSome_iff_exists] at h
    obtain ⟨⟨⟨signed, bits⟩, hb⟩, -⟩ := h
    obtain ⟨hnb, hns, hf, hsize, -⟩ := intBits_facts hb
    have hshort : ¬ t.size ≤ c := by simp [wire] at hc; omega
    rw [decodeBinary.eq_3 t _ hnb hns, hf, hb]
    simp [Except.map, hlen, hshort, Piece.underflowAt, show bits / 8 = t.size by omega]
  | float bits =>
    simp only [admits] at h
    split at h
    · next f hf =>
      obtain ⟨hnb, hns, hwidth⟩ := floatFormat_facts hf
      have hshort : ¬ t.size ≤ c := by simp [wire] at hc; omega
      rw [decodeBinary.eq_3 t _ hnb hns, hf]
      simp [Except.map, hlen, hshort, Piece.underflowAt, show f.width / 8 = t.size by omega]
    · simp at h
  | bool b =>
    have ht : t = .bool := by simpa [admits] using h
    subst ht
    have hc0 : c = 0 := by simp [wire] at hc; omega
    subst hc0
    simp [decodeBinary, Except.map, Piece.underflowAt, size]
  | str s =>
    have ht : t = .string := by simpa [admits] using h
    subst ht
    have hblock : (utf8Bytes s).length ≤ maxBlockSize := by
      by_contra hgt
      simp [Piece.refusal, hgt] at hlim
    have hlenBytes : ofLeBytes (leBytes 4 (utf8Bytes s).length) = (utf8Bytes s).length :=
      ofLeBytes_leBytes _ _ (by simp [maxBlockSize] at hblock ⊢; omega)
    simp only [wire, List.length_append, length_leBytes] at hc
    by_cases h4 : c < 4
    · -- the cut falls in the length prefix
      have hlt : ¬ 4 ≤ c := by omega
      have hle : c ≤ 4 + (utf8Bytes s).length := by omega
      simp [decodeBinary, wire, hle, hlt, Piece.underflowAt, h4, bind, Except.bind]
    · -- the length is read whole, and the cut falls in the text bytes
      have hcut : c - 4 < (utf8Bytes s).length := by omega
      rw [show (ScalarType.string.wire (.str s)).take c =
        leBytes 4 (utf8Bytes s).length ++ (utf8Bytes s).take (c - 4) from
          take_leBytes_append _ (by omega)]
      simp [decodeBinary, hlenBytes, Piece.underflowAt, h4, bind, Except.bind, throw, throwThe,
        MonadExceptOf.throw, Nat.not_lt.mpr hblock, hcut, Nat.min_eq_left hcut.le]
  | record _ | items _ => simp [admits] at h

end ScalarType

/-! ## Values -/

namespace Schema

variable {ι : Type} {S : Schema ι}

variable (S) in
/-- Every cut of `v`'s binary form fails to read, into any value of its shape, with the
underflow of the read that crosses the cut. -/
def CutUnderflows (s : Shape ι) (v : Value) : Prop :=
  ∀ old, S.Typed s old → ∀ c < (S.wire s v).length,
    (S.decode s old ((S.wire s v).take c)).fault =
      some (.stream (Piece.cutUnderflow (S.pieces s v) c))

/-- Members read one after another, each of which reads back whole and underflows when cut:
a cut of their forms underflows at the member it falls in, after reading those before it. -/
theorem decodeMembers_cut (r : ι) {ms : List {m // m ∈ (S.descriptor r).members}}
    {vs : List Value}
    (hread : List.Forall₂ (fun m v => S.ReadsBack m.1.shape v ∧ S.CutUnderflows m.1.shape v)
      ms vs) :
    ∀ {olds : List Value}, List.Forall₂ (fun m o => S.Typed m.1.shape o) ms olds →
      ∀ c < ((S.piecesMembers (ms.map Subtype.val) vs).flatMap Piece.bytes).length,
        (S.decodeMembers r ms olds
          (((S.piecesMembers (ms.map Subtype.val) vs).flatMap Piece.bytes).take c)).fault =
          some (.stream (Piece.cutUnderflow (S.piecesMembers (ms.map Subtype.val) vs) c)) := by
  induction hread with
  | nil =>
    intro olds _ c hc
    simp [piecesMembers] at hc
  | @cons m v ms vs hmv _ ih =>
    intro olds holds c hc
    obtain ⟨m, hm⟩ := m
    obtain ⟨hback, hcut⟩ := hmv
    cases holds with
    | cons hmo holds =>
      rename_i o olds
      set tail := (S.piecesMembers (ms.map Subtype.val) vs).flatMap Piece.bytes
      have hform : (S.piecesMembers ((⟨m, hm⟩ :: ms).map Subtype.val) (v :: vs)).flatMap
          Piece.bytes = S.wire m.shape v ++ tail := by
        simp [piecesMembers, wire, tail]
      have hpieces : S.piecesMembers ((⟨m, hm⟩ :: ms).map Subtype.val) (v :: vs) =
          S.pieces m.shape v ++ S.piecesMembers (ms.map Subtype.val) vs := rfl
      rw [hform] at hc ⊢
      rw [hpieces]
      by_cases hin : c < (S.wire m.shape v).length
      · -- the cut falls in this member
        rw [List.take_append_of_le_length hin.le, Piece.cutUnderflow_append_of_lt hin]
        rw [decodeMembers_cons_fault rfl (hcut o hmo c hin)]
      · -- this member reads whole, and the cut falls in a later one
        have hwhole := hback o hmo (tail.take (c - (S.wire m.shape v).length))
        rw [List.take_append, List.take_of_length_le (by omega),
          Piece.cutUnderflow_append_of_le (by simpa [wire] using hin)]
        rw [decodeMembers_cons_ok hwhole rfl]
        simp only [List.tail_cons]
        rw [ih holds _ (by simp only [List.length_append] at hc; omega)]
        rfl

theorem decodeItems_cut (k : CollectionKind) (e : Shape ι) {xs : List Value}
    (hread : ∀ x ∈ xs, S.ReadsBack e x ∧ S.CutUnderflows e x) (acc : List Value) {c : Nat}
    (hc : c < ((S.piecesItems e xs).flatMap Piece.bytes).length) :
    (S.decodeItems k e xs.length acc (((S.piecesItems e xs).flatMap Piece.bytes).take c)).fault =
      some (.stream (Piece.cutUnderflow (S.piecesItems e xs) c)) := by
  induction xs generalizing acc c with
  | nil => simp [piecesItems] at hc
  | cons x xs ih =>
    obtain ⟨hback, hcut⟩ := hread x List.mem_cons_self
    set tail := (S.piecesItems e xs).flatMap Piece.bytes
    have hform : (S.piecesItems e (x :: xs)).flatMap Piece.bytes = S.wire e x ++ tail := by
      simp [piecesItems, wire, tail]
    rw [hform] at hc ⊢
    rw [piecesItems, List.length_cons]
    by_cases hin : c < (S.wire e x).length
    · -- the cut falls in this element
      rw [List.take_append_of_le_length hin.le, Piece.cutUnderflow_append_of_lt hin]
      rw [decodeItems_succ_fault rfl (hcut _ (S.typed_default e) c hin)]
    · -- this element reads whole, and the cut falls in a later one
      have hwhole := hback _ (S.typed_default e) (tail.take (c - (S.wire e x).length))
      rw [List.take_append, List.take_of_length_le (by omega),
        Piece.cutUnderflow_append_of_le (by simpa [wire] using hin)]
      rw [decodeItems_succ_ok hwhole rfl]
      exact ih (fun y hy => hread y (List.mem_cons_of_mem x hy)) _
        (by simp only [List.length_append] at hc; omega)

/-- Every cut of the binary form of a well-typed value within the limits underflows at the read
that crosses it. -/
theorem cutUnderflows_of_typed {s : Shape ι} {v : Value} (hv : S.Typed s v)
    (hlim : S.WithinLimits s v) : S.CutUnderflows s v := by
  induction hv with
  | @scalar t v h =>
    intro old _ c hc
    have hleaf : (Piece.leaf t v).refusal = none := hlim _ (by simp [pieces])
    rw [wire_scalar] at hc
    obtain ⟨rest, hdec⟩ := ScalarType.decodeBinary_take h hleaf hc
    rw [decode.eq_1, wire_scalar, hdec]
    simp [pieces, Piece.cutUnderflow, Piece.bytes, hc]
  | @record r vs hlen hall ih =>
    intro old hold c hc
    obtain ⟨ws, rfl⟩ : ∃ ws, old = .record ws := by cases hold; exact ⟨_, rfl⟩
    -- each member reads back whole and underflows when cut
    have hread : List.Forall₂ (fun m v => S.ReadsBack m.shape v ∧ S.CutUnderflows m.shape v)
        (S.descriptor r).members vs := by
      refine List.forall₂_iff_zip.mpr ⟨hlen.symm, fun hp => ?_⟩
      have hlimp : S.WithinLimits _ _ := fun q hq => hlim q (pieces_subset_of_mem_zip hp hq)
      exact ⟨readsBack_of_typed (hall _ hp) hlimp, ih _ hp hlimp⟩
    have hcut := decodeMembers_cut r (forall₂_attach hread) (forall₂_attach hold.forall₂_members)
    rw [List.attach_map_subtype_val] at hcut
    rw [decode.eq_def]
    exact hcut c hc
  | @collection k e xs hall hsorted ih =>
    intro old _ c hc
    have hcount : xs.length < 2 ^ 32 := by
      have h := hlim (.count xs.length) (by simp [pieces])
      by_contra hbig
      rw [Piece.refusal, if_neg hbig] at h
      cases h
    have hread : ∀ x ∈ xs, S.ReadsBack e x ∧ S.CutUnderflows e x := fun x hx =>
      have hlimx : S.WithinLimits e x :=
        fun q hq => hlim q (List.mem_cons_of_mem _ (pieces_subset_of_mem_items hx hq))
      ⟨readsBack_of_typed (hall x hx) hlimx, ih x hx hlimx⟩
    set body := (S.piecesItems e xs).flatMap Piece.bytes
    have hwire : S.wire (.collection k e) (.items xs) = leBytes 4 xs.length ++ body := by
      simp [wire, pieces, Piece.bytes, body]
    have hpieces : S.pieces (.collection k e) (.items xs) =
        .count xs.length :: S.piecesItems e xs := by
      rw [pieces]
    rw [hwire] at hc ⊢
    rw [hpieces, Piece.cutUnderflow]
    simp only [List.length_append, length_leBytes] at hc
    by_cases h4 : c < 4
    · -- the cut falls in the count
      rw [decode_collection_none (readCount_take_of_lt body h4)]
      simp [Piece.bytes, h4, Piece.underflowAt]
      omega
    · -- the count is read whole, and the cut falls in the elements
      rw [take_leBytes_append body (by omega), decode_collection_some (readCount_leBytes hcount _),
        Piece.bytes, length_leBytes, if_neg h4]
      exact decodeItems_cut k e hread [] (show c - 4 < body.length by omega)

/-- A cut of a well-typed value's binary form fails to read with the underflow of the piece it
falls in: the read asks for that piece's width and finds the bytes of it before the cut. -/
theorem decode_cut {s : Shape ι} {v old : Value} (hv : S.Typed s v) (hlim : S.WithinLimits s v)
    (hold : S.Typed s old) {c : Nat} (hc : c < (S.wire s v).length) :
    ∃ (pre post : List Piece) (q : Piece), S.pieces s v = pre ++ q :: post ∧
      (pre.flatMap Piece.bytes).length ≤ c ∧
      c < (pre.flatMap Piece.bytes).length + q.bytes.length ∧
      (S.decode s old ((S.wire s v).take c)).fault =
        some (.stream (q.underflowAt (c - (pre.flatMap Piece.bytes).length))) := by
  obtain ⟨pre, post, q, hsplit, h₁, h₂⟩ := Piece.exists_split_of_lt hc
  refine ⟨pre, post, q, hsplit, h₁, h₂, ?_⟩
  rw [cutUnderflows_of_typed hv hlim old hold c hc, hsplit, Piece.cutUnderflow_split h₁ h₂]

end Schema

/-! ## Framed messages -/

namespace Protocol

variable {ι : Type} {S : Schema ι} {p : Protocol ι} {maxSize code : Nat} {r : ι} {v : Value}

/-- A cut of a framed message of a type that fits underflows at the read that crosses it: the
code reads as a count does, and the value's pieces follow it. -/
theorem decode_cut (hcode : code < 2 ^ 32) (htype : p.typeFor code = .ok r)
    (hroom : (S.descriptor r).size ≤ maxSize) (hv : S.Typed (.record r) v)
    (hlim : S.WithinLimits (.record r) v) {c : Nat}
    (hc : c < (leBytes 4 code ++ S.wire (.record r) v).length) :
    (p.decode S maxSize ((leBytes 4 code ++ S.wire (.record r) v).take c)).1 =
      .error (.ofStream (Piece.cutUnderflow (.count code :: S.pieces (.record r) v) c)) := by
  rw [List.length_append, length_leBytes] at hc
  rw [Piece.cutUnderflow, Piece.bytes, length_leBytes]
  by_cases h4 : c < 4
  · -- the cut falls in the code
    have hlen : ((leBytes 4 code ++ S.wire (.record r) v).take c).length = c := by simp; omega
    simp [decode, Schema.readCount_take_of_lt _ h4, hlen, h4, Piece.underflowAt]
  · -- the code is read whole, and the cut falls in the value
    have hfault := Schema.cutUnderflows_of_typed hv hlim _ (S.typed_default (.record r)) (c - 4)
      (by omega)
    simp [decode, take_leBytes_append _ (show 4 ≤ c by omega), Schema.readCount_leBytes hcode, htype, Nat.not_lt.mpr hroom, hfault, h4,
      ProtocolError.ofStream]

/-- Cut-off input over the catalog, for a protocol built by registration. Reading a fresh value
from any proper prefix of a well-typed value's binary form fails, and with the underflow of the
read that crosses the cut: the cut falls inside one piece of the form, and the read of that
piece asks for its width and finds the bytes of it before the cut. Decoding a proper prefix of
the value's framed form, for a registered type that fits, fails the same way, its code read as
a count is. -/
theorem truncation_underflows {p : Protocol RecordName} (hp : p.Reachable catalog)
    {r : RecordName} {v : Value} (hv : catalog.Typed (.record r) v)
    (hlim : catalog.WithinLimits (.record r) v) :
    (∀ c < (catalog.wire (.record r) v).length, ∃ (pre post : List Piece) (q : Piece),
      catalog.pieces (.record r) v = pre ++ q :: post ∧
      (pre.flatMap Piece.bytes).length ≤ c ∧
      c < (pre.flatMap Piece.bytes).length + q.bytes.length ∧
      (catalog.decode (.record r) (catalog.default (.record r))
        ((catalog.wire (.record r) v).take c)).fault =
        some (.stream (q.underflowAt (c - (pre.flatMap Piece.bytes).length)))) ∧
    (∀ maxSize, r ∈ p.pdus → (catalog.descriptor r).size ≤ maxSize →
      ∀ c < (p.encode catalog ⟨.record r, v⟩).1.length, ∃ (pre post : List Piece) (q : Piece),
        .count (p.pdus.idxOf r + 1) :: catalog.pieces (.record r) v = pre ++ q :: post ∧
        (pre.flatMap Piece.bytes).length ≤ c ∧
        c < (pre.flatMap Piece.bytes).length + q.bytes.length ∧
        (p.decode catalog maxSize ((p.encode catalog ⟨.record r, v⟩).1.take c)).1 =
          .error (.ofStream (q.underflowAt (c - (pre.flatMap Piece.bytes).length)))) := by
  refine ⟨fun c hc => Schema.decode_cut hv hlim (catalog.typed_default _) hc, ?_⟩
  intro maxSize hr hroom c hc
  have hsmall : p.size < 2 ^ 32 := Nat.lt_of_le_of_lt hp.size_le_catalog (by decide)
  have hreg := hp.registers
  have hcode := hreg.code_of_mem (S := catalog) hr
  have hlt : p.pdus.idxOf r + 1 < 2 ^ 32 := Nat.lt_of_le_of_lt (hreg.code_le_size hcode) hsmall
  rw [encode_of_code hcode hv hlim] at hc ⊢
  -- the frame is the code's piece followed by the value's
  have hframe : leBytes 4 (p.pdus.idxOf r + 1) ++ catalog.wire (.record r) v =
      (Piece.count (p.pdus.idxOf r + 1) :: catalog.pieces (.record r) v).flatMap Piece.bytes := rfl
  obtain ⟨pre, post, q, hsplit, h₁, h₂⟩ := Piece.exists_split_of_lt (hframe ▸ hc)
  refine ⟨pre, post, q, hsplit, h₁, h₂, ?_⟩
  rw [decode_cut hlt (hreg.typeFor_code hcode) hroom hv hlim hc, hsplit,
    Piece.cutUnderflow_split h₁ h₂]

/-- The chat protocol's `Chat` message, with two strings, cut anywhere. -/
theorem chat_truncation_underflows :
    let p : Protocol RecordName := (Protocol.chain catalog "chat" [.ping, .chat]).protocol
    let v : Value := .record [.str "jon", .str "hi"]
    p.Reachable catalog ∧ catalog.Typed (.record .chat) v ∧
      catalog.WithinLimits (.record .chat) v ∧
      (∀ c < (catalog.wire (.record .chat) v).length, ∃ (pre post : List Piece) (q : Piece),
        catalog.pieces (.record .chat) v = pre ++ q :: post ∧
        (pre.flatMap Piece.bytes).length ≤ c ∧
        c < (pre.flatMap Piece.bytes).length + q.bytes.length ∧
        (catalog.decode (.record .chat) (catalog.default (.record .chat))
          ((catalog.wire (.record .chat) v).take c)).fault =
          some (.stream (q.underflowAt (c - (pre.flatMap Piece.bytes).length)))) ∧
      (∀ maxSize, .chat ∈ p.pdus → (catalog.descriptor .chat).size ≤ maxSize →
        ∀ c < (p.encode catalog ⟨.record .chat, v⟩).1.length,
          ∃ (pre post : List Piece) (q : Piece),
          .count (p.pdus.idxOf .chat + 1) :: catalog.pieces (.record .chat) v = pre ++ q :: post ∧
          (pre.flatMap Piece.bytes).length ≤ c ∧
          c < (pre.flatMap Piece.bytes).length + q.bytes.length ∧
          (p.decode catalog maxSize ((p.encode catalog ⟨.record .chat, v⟩).1.take c)).1 =
            .error (.ofStream (q.underflowAt (c - (pre.flatMap Piece.bytes).length)))) := by
  intro p v
  have hp : p.Reachable catalog := chain_reachable catalog "chat" [.ping, .chat]
  have hv : catalog.Typed (.record .chat) v := by decide
  have hlim : catalog.WithinLimits (.record .chat) v := by decide
  exact ⟨hp, hv, hlim, truncation_underflows hp hv hlim⟩

end Protocol

end RecordWire
