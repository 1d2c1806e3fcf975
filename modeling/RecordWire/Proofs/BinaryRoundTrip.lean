import RecordWire.Proofs.WireForm
import RecordWire.Proofs.Utf8
import RecordWire.Catalog
/-!
# Reading back the binary form

The binary decoder inverts the binary form, and consumes exactly it: reading a well-typed value
within the limits back from its form followed by any bytes gives the value and leaves those
bytes, whatever value it reads into (`readsBack_of_typed`). The form carries no lengths beyond
the counts and string lengths it needs, so each level must stop exactly where its part ends:
a scalar after its fixed width or its block, a record after its last member, a collection after
as many elements as its count says.

Sets come back as they were because the elements of a set value are distinct and ascending, and
inserting such elements one after another appends them.
-/

namespace RecordWire

/-! ## Words -/

@[simp] theorem int_pow_eq_pow (a : Int) (m : Nat) : Int.pow a m = a ^ m := rfl

theorem wordOfSigned_lt (bits : Nat) (n : Int) : wordOfSigned bits n < 2 ^ bits := by
  have hpos : (0 : Int) < 2 ^ bits := Int.pow_pos (by decide)
  have h1 := Int.emod_nonneg n (Int.ne_of_gt hpos)
  have h2 := Int.emod_lt_of_pos n hpos
  have hcast : ((2 ^ bits : Nat) : Int) = (2 : Int) ^ bits := Int.natCast_pow 2 bits
  simp only [wordOfSigned, int_pow_eq_pow]
  omega

/-- A word read back as a signed number is the number written, when it fits the width. -/
theorem signedOfWord_wordOfSigned {bits : Nat} {n : Int} (hb : 0 < bits)
    (hlo : -2 ^ (bits - 1) ≤ n) (hhi : n < 2 ^ (bits - 1)) :
    signedOfWord bits (wordOfSigned bits n) = n := by
  obtain ⟨k, rfl⟩ : ∃ k, bits = k + 1 := ⟨bits - 1, by omega⟩
  simp only [Nat.add_sub_cancel] at hlo hhi
  have hpow : (2 : Int) ^ (k + 1) = 2 * 2 ^ k := by rw [Int.pow_succ]; omega
  have hcast : ((2 ^ k : Nat) : Int) = (2 : Int) ^ k := Int.natCast_pow 2 k
  simp only [signedOfWord, wordOfSigned, int_pow_eq_pow, Nat.add_sub_cancel, hpow, Nat.pow_eq]
  generalize (2 : Int) ^ k = P at hlo hhi hcast ⊢
  -- a negative number is stored as its sum with `2 * P`, which lies in the upper half
  by_cases h0 : 0 ≤ n
  · have hm : n % (2 * P) = n := Int.emod_eq_of_lt h0 (by omega)
    rw [hm, if_pos (by omega)]
    omega
  · have hm : n % (2 * P) = n + 2 * P := by
      rw [← Int.add_mul_emod_self_right n 1 (2 * P), Int.emod_eq_of_lt (by omega) (by omega)]
      omega
    rw [hm, if_neg (by omega)]
    omega

/-! ## Scalars -/

namespace ScalarType

theorem intBits_facts {t : ScalarType} {signed : Bool} {bits : Nat}
    (h : t.intBits? = some (signed, bits)) :
    t ≠ .bool ∧ t ≠ .string ∧ t.floatFormat? = none ∧ bits = 8 * t.size ∧ 0 < bits := by
  cases t <;> simp_all [intBits?, floatFormat?, size] <;> omega

theorem floatFormat_facts {t : ScalarType} {f : FloatFormat} (h : t.floatFormat? = some f) :
    t ≠ .bool ∧ t ≠ .string ∧ f.width = 8 * t.size := by
  cases t <;> simp_all [floatFormat?, size, FloatFormat.width] <;> subst h <;> rfl

theorem take_append {bs rest : List UInt8} {n : Nat} (h : bs.length = n) :
    (if n ≤ (bs ++ rest).length then
      (.ok ((bs ++ rest).take n, (bs ++ rest).drop n) : Except (CodecError × List UInt8) _)
    else .error (.stream (.underflow n (bs ++ rest).length), bs ++ rest)) = .ok (bs, rest) := by
  subst h
  simp

theorem decodeBinary_int {t : ScalarType} {n : Int} (h : t.admits (.int n) = true)
    (rest : List UInt8) : t.decodeBinary (t.wire (.int n) ++ rest) = .ok (.int n, rest) := by
  simp only [admits, Bool.and_eq_true, Option.isSome_iff_exists] at h
  obtain ⟨⟨⟨signed, bits⟩, hb⟩, hrange⟩ := h
  obtain ⟨hnb, hns, hf, hsize, hpos⟩ := intBits_facts hb
  have hw : wordOfSigned bits n < Nat.pow 256 t.size := by
    have := wordOfSigned_lt bits n
    rw [Nat.pow_eq, hsize, Nat.pow_mul] at *
    exact this
  rw [decodeBinary.eq_3 t _ hnb hns, hf, hb]
  simp only [wire, ← hsize, show bits / 8 = t.size by omega]
  rw [take_append (length_leBytes _ _)]
  simp only [Except.map, ofLeBytes_leBytes _ _ hw]
  -- the range check is the one of the type's signedness
  cases signed with
  | true =>
    simp only [inRange, hb, int_pow_eq_pow, Bool.and_eq_true, decide_eq_true_eq] at hrange
    simp [signedOfWord_wordOfSigned hpos hrange.1 hrange.2]
  | false =>
    simp only [inRange, hb, int_pow_eq_pow, Bool.and_eq_true, decide_eq_true_eq] at hrange
    have hword : wordOfSigned bits n = n.toNat := wordOfSigned_of_lt hrange.1 hrange.2
    simp [hword, Int.toNat_of_nonneg hrange.1]

theorem decodeBinary_float {t : ScalarType} {bits : Nat} (h : t.admits (.float bits) = true)
    (rest : List UInt8) :
    t.decodeBinary (t.wire (.float bits) ++ rest) = .ok (.float bits, rest) := by
  simp only [admits] at h
  split at h
  · next f hf =>
    obtain ⟨hnb, hns, hwidth⟩ := floatFormat_facts hf
    have hw : bits < Nat.pow 256 t.size := by
      rw [Nat.pow_eq, show (256 : Nat) = 2 ^ 8 by rfl, ← Nat.pow_mul, ← hwidth]
      simpa using h
    rw [decodeBinary.eq_3 t _ hnb hns, hf]
    simp only [wire, show f.width / 8 = t.size by omega]
    rw [take_append (length_leBytes _ _)]
    simp [Except.map, ofLeBytes_leBytes _ _ hw]
  · simp at h

theorem decodeBinary_bool (b : Bool) (rest : List UInt8) :
    ScalarType.bool.decodeBinary (ScalarType.bool.wire (.bool b) ++ rest) = .ok (.bool b, rest) := by
  cases b <;> simp [decodeBinary, wire, Except.map]

theorem decodeBinary_string {s : String} (hlim : (utf8Bytes s).length ≤ maxBlockSize)
    (rest : List UInt8) :
    ScalarType.string.decodeBinary (ScalarType.string.wire (.str s) ++ rest) =
      .ok (.str s, rest) := by
  have hlen : ofLeBytes (leBytes 4 (utf8Bytes s).length) = (utf8Bytes s).length :=
    ofLeBytes_leBytes _ _ (by simp [maxBlockSize] at hlim ⊢; omega)
  -- the length is within a block, and all its bytes are there
  have hblock : ¬ (utf8Bytes s).length > maxBlockSize := Nat.not_lt.mpr hlim
  have hall : ¬ (utf8Bytes s).length + rest.length < (utf8Bytes s).length :=
    Nat.not_lt.mpr (Nat.le_add_right _ _)
  simp only [decodeBinary, wire]
  simp [hlen, bind, Except.bind, utf8Decode_utf8Bytes, hblock, hall]
  rfl

/-- A scalar within the limits reads back from its binary form, whatever follows. -/
theorem decodeBinary_wire {t : ScalarType} {v : Value} (h : t.admits v = true)
    (hlim : (Piece.leaf t v).refusal = none) (rest : List UInt8) :
    t.decodeBinary (t.wire v ++ rest) = .ok (v, rest) := by
  cases v with
  | int n => exact decodeBinary_int h rest
  | float bits => exact decodeBinary_float h rest
  | bool b =>
    have ht : t = .bool := by simpa [admits] using h
    subst ht
    exact decodeBinary_bool b rest
  | str s =>
    have ht : t = .string := by simpa [admits] using h
    subst ht
    have hlen : (utf8Bytes s).length ≤ maxBlockSize := by
      by_contra hgt
      simp [Piece.refusal, hgt] at hlim
    exact decodeBinary_string hlen rest
  | record _ | items _ => simp [admits] at h

end ScalarType

/-! ## Records and collections -/

namespace Schema

variable {ι : Type} {S : Schema ι}

theorem readCount_leBytes {n : Nat} (h : n < 2 ^ 32) (rest : List UInt8) :
    readCount (leBytes 4 n ++ rest) = some (n, rest) := by
  have hn : ofLeBytes (leBytes 4 n) = n := ofLeBytes_leBytes 4 n h
  simp [readCount, hn]

variable (S) in
/-- `v` reads back from its binary form: into any value of its shape, and followed by any bytes,
reading gives `v` and leaves exactly the bytes that followed. -/
def ReadsBack (s : Shape ι) (v : Value) : Prop :=
  ∀ old, S.Typed s old → ∀ rest, S.decode s old (S.wire s v ++ rest) = ⟨v, rest, none⟩

theorem decodeMembers_wire (r : ι) {ms : List {m // m ∈ (S.descriptor r).members}}
    {vs : List Value} (hread : List.Forall₂ (fun m v => S.ReadsBack m.1.shape v) ms vs) :
    ∀ {olds : List Value}, List.Forall₂ (fun m o => S.Typed m.1.shape o) ms olds →
      ∀ rest, S.decodeMembers r ms olds
        ((S.piecesMembers (ms.map Subtype.val) vs).flatMap Piece.bytes ++ rest) =
          ⟨vs, rest, none⟩ := by
  induction hread with
  | nil =>
    intro olds holds rest
    cases holds
    simp [decodeMembers, piecesMembers]
  | @cons m v ms vs hmv _ ih =>
    intro olds holds rest
    cases holds with
    | cons hmo holds =>
      rename_i o olds
      have hm := hmv o hmo ((S.piecesMembers (ms.map Subtype.val) vs).flatMap Piece.bytes ++ rest)
      rw [decodeMembers.eq_def]
      simp only [List.map_cons, piecesMembers, List.flatMap_append, List.append_assoc]
      rw [show (S.pieces m.1.shape v).flatMap Piece.bytes = S.wire m.1.shape v from rfl]
      simp only [List.headD_cons, List.tail_cons, hm, ih holds rest]
      rw [dif_pos (by simp)]

theorem decodeItems_wire (k : CollectionKind) (e : Shape ι) {xs : List Value}
    (hread : ∀ x ∈ xs, S.ReadsBack e x) (acc : List Value) (rest : List UInt8) :
    S.decodeItems k e xs.length acc ((S.piecesItems e xs).flatMap Piece.bytes ++ rest) =
      ⟨xs.foldl k.insert acc, rest, none⟩ := by
  induction xs generalizing acc with
  | nil => simp [decodeItems, piecesItems]
  | cons x xs ih =>
    have hx := hread x List.mem_cons_self (S.default e) (S.typed_default e)
      ((S.piecesItems e xs).flatMap Piece.bytes ++ rest)
    rw [decodeItems.eq_def]
    simp only [List.length_cons, piecesItems, List.flatMap_append, List.append_assoc]
    rw [show (S.pieces e x).flatMap Piece.bytes = S.wire e x from rfl]
    simp only [hx, List.foldl_cons]
    rw [dif_pos (by simp)]
    exact ih (fun y hy => hread y (List.mem_cons_of_mem x hy)) _

/-- Reading undoes writing: a well-typed value within the limits reads back from its binary
form. -/
theorem readsBack_of_typed {s : Shape ι} {v : Value} (hv : S.Typed s v)
    (hlim : S.WithinLimits s v) : S.ReadsBack s v := by
  induction hv with
  | @scalar t v h =>
    intro old _ rest
    have hleaf : (Piece.leaf t v).refusal = none := hlim _ (by simp [pieces])
    rw [decode.eq_1, wire_scalar, ScalarType.decodeBinary_wire h hleaf]
  | @record r vs hlen hall ih =>
    intro old hold rest
    obtain ⟨ws, rfl⟩ : ∃ ws, old = .record ws := by cases hold; exact ⟨_, rfl⟩
    -- each member reads back, and the old record has a value of each member's shape
    have hread : List.Forall₂ (fun m v => S.ReadsBack m.shape v) (S.descriptor r).members vs :=
      List.forall₂_iff_zip.mpr
        ⟨hlen.symm, fun hp => ih _ hp fun q hq => hlim q (pieces_subset_of_mem_zip hp hq)⟩
    have hdec := decodeMembers_wire r (forall₂_attach hread)
      (forall₂_attach hold.forall₂_members) rest
    rw [List.attach_map_subtype_val] at hdec
    rw [decode.eq_def]
    simp only [Value.fields]
    rw [show S.wire (.record r) (.record vs) =
      (S.piecesMembers (S.descriptor r).members vs).flatMap Piece.bytes from rfl, hdec]
  | @collection k e xs hall hsorted ih =>
    intro old _ rest
    have hcount : xs.length < 2 ^ 32 := by
      have h := hlim (.count xs.length) (by simp [pieces])
      by_contra hbig
      rw [Piece.refusal, if_neg hbig] at h
      cases h
    have hread : ∀ x ∈ xs, S.ReadsBack e x := fun x hx =>
      ih x hx fun q hq => hlim q (List.mem_cons_of_mem _ (pieces_subset_of_mem_items hx hq))
    have hitems := decodeItems_wire k e hread [] rest
    rw [show xs.foldl k.insert [] = xs from CollectionKind.ofList_of_sorted hsorted] at hitems
    have hwire : S.wire (.collection k e) (.items xs) =
        leBytes 4 xs.length ++ (S.piecesItems e xs).flatMap Piece.bytes := by
      simp [wire, pieces, Piece.bytes]
    rw [decode.eq_def, hwire, List.append_assoc]
    dsimp only
    -- the count is read first, and the elements after it
    split
    · next h => rw [readCount_leBytes hcount] at h; cases h
    · next n r h =>
      rw [readCount_leBytes hcount] at h
      cases h
      simp [hitems]

/-! ## Through streams -/

/-- Reading at a growable stream's cursor: the value read from the unread bytes, and the cursor
moved past what was consumed. -/
theorem decodeFrom_of_decode {s : Shape ι} {old : Value} {g : GrowableStream}
    {e rest : List UInt8} {o : Decoded} (hunread : (ByteStream.unread g).data.toList = e ++ rest)
    (hdec : S.decode s old (e ++ rest) = o) (hrest : o.rest = rest) :
    S.decodeFrom s old g = (o, { g with pos := g.pos + e.length }) := by
  simp only [decodeFrom, hunread, hdec, hrest, List.length_append, Nat.add_sub_cancel]
  rfl

/-- The binary round trip. Writing a well-typed value within the limits into an empty growable
stream succeeds and leaves its form `e` there. Reading from any growable stream whose unread
bytes are `e` followed by any bytes gives the value back, bit for bit, and leaves the cursor just
after `e`; so reading `e` and more as a whole value reports exactly the bytes left over. -/
theorem binary_round_trip {s : Shape ι} {v : Value} (hv : S.Typed s v)
    (hlim : S.WithinLimits s v) (c : StreamConfig) (rest : List UInt8) :
    ∃ e : List UInt8,
      (ByteStream.emit (GrowableStream.withConfig c) (S.encode s v)).2 = none ∧
      (ByteStream.emit (GrowableStream.withConfig c) (S.encode s v)).1.bytes.data.toList = e ∧
      (∀ g : GrowableStream, (ByteStream.unread g).data.toList = e ++ rest →
        S.decodeFrom s (S.default s) g = (⟨v, rest, none⟩, { g with pos := g.pos + e.length })) ∧
      S.decodeWhole s (e ++ rest) =
        if rest = [] then .ok v else .error (.trailingBytes rest.length) := by
  have hread := readsBack_of_typed hv hlim (S.default s) (S.typed_default s) rest
  obtain ⟨hfault, hbytes, -⟩ := GrowableStream.emit_eq (GrowableStream.withConfig c) (S.encode s v)
  rw [encode_of_withinLimits hv hlim] at hfault hbytes ⊢
  refine ⟨S.wire s v, hfault, ?_, fun g hg => decodeFrom_of_decode hg hread rfl, ?_⟩
  · -- a fresh stream is empty, so the splice is the form itself
    rw [hbytes]
    simp [GrowableStream.withConfig, splice]
  · simp only [decodeWhole, hread]
    cases rest <;> simp

end Schema

/-- An `Outer` record, with a nested record, a list of records and a set, comes back from its
binary form whatever follows it. -/
theorem outer_round_trip :
    let v : Value := .record [.int 77, .record [.bool true, .float 0x3f000000],
      .items [.record [.bool false, .float 0x3fc00000]], .items [.int 2, .int 9]]
    catalog.Typed (.record .outer) v ∧ catalog.WithinLimits (.record .outer) v ∧
      ∃ e : List UInt8,
        (ByteStream.emit (GrowableStream.withConfig {}) (catalog.encode (.record .outer) v)).2 = none ∧
        (ByteStream.emit (GrowableStream.withConfig {}) (catalog.encode (.record .outer) v)).1.bytes.data.toList = e ∧
        (∀ g : GrowableStream, (ByteStream.unread g).data.toList = e ++ [0xff] →
          catalog.decodeFrom (.record .outer) (catalog.default (.record .outer)) g =
            (⟨v, [0xff], none⟩, { g with pos := g.pos + e.length })) ∧
        catalog.decodeWhole (.record .outer) (e ++ [0xff]) =
          if [0xff] = ([] : List UInt8) then .ok v else .error (.trailingBytes [0xff].length) :=
  ⟨by decide, by decide, Schema.binary_round_trip (by decide) (by decide) {} [0xff]⟩

end RecordWire
