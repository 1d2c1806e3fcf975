import Mathlib
import RecordWire.Collection.Adapter
import RecordWire.Protocol.Registry
import RecordWire.Catalog
import RecordWire.Proofs.DecoderRuns
import RecordWire.Proofs.TextGrammar
/-!
# Values of another type are refused first, and only they

The type-erased operations take values whose type they cannot see, and each checks that type
before it does anything else. An accessor checks the owner against the type it addresses a value
in (for a whole-value accessor, its own type) and refuses any other with a type mismatch naming
that type; a refused read or write leaves the value, the stream, the text and the reader as
they were, and a refused reset gives no value. A collection adapter refuses a value that is not
its collection, naming the collection type and consuming nothing. Dropping a boxed value checks
it against the addressed type, and releasing a message checks its payload against the type
registered for its code.

The refusal is exact: an operation reports a type mismatch exactly when its value is of another
type. Past the check nothing reports one. The scalar codecs fail only with stream and UTF-8
errors, the readers' runs only with those and grammar errors (`Schema.BinaryRun.fault_ne`,
`Schema.TextRun.fault_ne`), and the encoder never with a mismatch (`Schema.encode_fault_ne`). The
text writer checks every value inside the owner once more, and on an owner of its type every
one of those checks passes, for an accessor of the member it names (`Accessor.Addresses`).

Main statement: `ill_typed_values_refused`.
-/

namespace RecordWire

/-! ### Past the check, no type mismatch -/

namespace ScalarType

variable {t : ScalarType}

/-- Only a zero entry and a string longer than a block are refused. -/
theorem encodeBinary_error_cases {v : Value} {f : CodecError} (h : t.encodeBinary v = .error f) :
    f = .stream .writeOnReadOnly ∨ ∃ n, f = .stream (.blockTooLarge n) := by
  unfold encodeBinary at h
  repeat' split at h
  all_goals try (dsimp only at h; split_ifs at h)
  all_goals cases h
  · exact .inl rfl
  · exact .inr ⟨_, rfl⟩

theorem encodeBinary_error_ne {v : Value} {f : CodecError} (h : t.encodeBinary v = .error f)
    (n : String) : f ≠ .typeMismatch n := by
  rcases encodeBinary_error_cases h with rfl | ⟨_, rfl⟩ <;> simp

theorem decodeBinary_error_ne {input rest : List UInt8} {f : CodecError}
    (h : t.decodeBinary input = .error (f, rest)) (n : String) : f ≠ .typeMismatch n := by
  rcases decodeBinary_error_cases h with ⟨_, rfl, -⟩ | ⟨_, rfl, -⟩ | ⟨_, rfl, -⟩ | ⟨_, rfl, -⟩ <;>
    simp

end ScalarType

theorem Emitted.andThen_fault_ne {e : Emitted} {next : Unit → Emitted} {f : CodecError}
    (he : e.fault ≠ some f) (hn : (next ()).fault ≠ some f) : (e.andThen next).fault ≠ some f := by
  unfold Emitted.andThen
  split
  · exact he
  · exact hn

namespace Schema

variable {ι : Type} (S : Schema ι)

theorem encode_scalar_fault_ne (t : ScalarType) (v : Value) (n : String) :
    (S.encode (.scalar t) v).fault ≠ some (.typeMismatch n) := by
  rw [encode]
  split
  · simp
  · next e h => exact fun hf => ScalarType.encodeBinary_error_ne h n (Option.some.inj hf)

mutual

theorem encode_fault_ne (s : Shape ι) (v : Value) (n : String) :
    (S.encode s v).fault ≠ some (.typeMismatch n) := by
  cases s with
  | scalar t => exact encode_scalar_fault_ne S t v n
  | record r =>
    cases v
    case record vs => rw [encode]; exact encodeMembers_fault_ne _ vs n
    all_goals simp [encode]
  | collection k e =>
    cases v
    case items xs =>
      rw [encode]
      split
      · exact Emitted.andThen_fault_ne (by simp) (encodeItems_fault_ne e xs n)
      · simp
    all_goals simp [encode]
termination_by structural v

theorem encodeMembers_fault_ne (ms : List (Member ι)) (vs : List Value) (n : String) :
    (S.encodeMembers ms vs).fault ≠ some (.typeMismatch n) := by
  cases vs with
  | nil => cases ms <;> simp [encodeMembers]
  | cons v vs =>
    cases ms with
    | nil => simp [encodeMembers]
    | cons m ms =>
      rw [encodeMembers]
      exact Emitted.andThen_fault_ne (encode_fault_ne m.shape v n) (encodeMembers_fault_ne ms vs n)
termination_by structural vs

theorem encodeItems_fault_ne (e : Shape ι) (xs : List Value) (n : String) :
    (S.encodeItems e xs).fault ≠ some (.typeMismatch n) := by
  cases xs with
  | nil => simp [encodeItems]
  | cons x xs =>
    rw [encodeItems]
    exact Emitted.andThen_fault_ne (encode_fault_ne e x n) (encodeItems_fault_ne e xs n)
termination_by structural xs

end

mutual

theorem BinaryRun.fault_ne : ∀ {s : Shape ι} {old : Value} {input : List UInt8} {o : Decoded},
    S.BinaryRun s old input o → ∀ n, o.fault ≠ some (.typeMismatch n)
  | _, _, _, _, .scalar_ok _ => by simp
  | _, _, _, _, .scalar_fault h => fun n hf =>
    ScalarType.decodeBinary_error_ne h n (Option.some.inj hf)
  | _, _, _, _, .record hm => BinaryMembersRun.fault_ne hm
  | _, _, _, _, .short _ => by simp
  | _, _, _, _, .collection _ hi => BinaryItemsRun.fault_ne hi

theorem BinaryMembersRun.fault_ne : ∀ {ms : List (Member ι)} {olds : List Value}
    {input : List UInt8} {o : DecodedList}, S.BinaryMembersRun ms olds input o →
    ∀ n, o.fault ≠ some (.typeMismatch n)
  | _, _, _, _, .nil => by simp
  | _, _, _, _, .fault hrun hf => fun n h => BinaryRun.fault_ne hrun n (hf.trans h)
  | _, _, _, _, .next _ _ hrest => fun n => BinaryMembersRun.fault_ne hrest n

theorem BinaryItemsRun.fault_ne : ∀ {k : CollectionKind} {e : Shape ι} {count : Nat}
    {acc : List Value} {input : List UInt8} {o : DecodedList},
    S.BinaryItemsRun k e count acc input o → ∀ n, o.fault ≠ some (.typeMismatch n)
  | _, _, _, _, _, _, .done => by simp
  | _, _, _, _, _, _, .fault hrun hf => fun n h => BinaryRun.fault_ne hrun n (hf.trans h)
  | _, _, _, _, _, _, .next _ _ hrest => BinaryItemsRun.fault_ne hrest

end

mutual

theorem TextRun.fault_ne : ∀ {s : Shape ι} {old : Value} {r : TextReader} {o : TextRead},
    S.TextRun s old r o → ∀ n, o.fault ≠ some (.typeMismatch n)
  | _, _, _, _, .scalar_ok _ => by simp
  | _, _, _, _, .scalar_fault _ => by simp
  | _, _, _, _, .record_open_fail _ => by simp
  | _, _, _, _, .record_fault _ hm hf => fun n h => TextMembersRun.fault_ne hm n (hf.trans h)
  | _, _, _, _, .record_close _ _ _ _ => by simp
  | _, _, _, _, .record_unclosed _ _ _ _ => by simp [CodecError.atByte]
  | _, _, _, _, .collection_open_fail _ => by simp
  | _, _, _, _, .collection _ hi => TextItemsRun.fault_ne hi

theorem TextMembersRun.fault_ne : ∀ {ms : List (Member ι)} {olds : List Value}
    {r : TextReader} {o : TextReadList}, S.TextMembersRun ms olds r o →
    ∀ n, o.fault ≠ some (.typeMismatch n)
  | _, _, _, _, .nil => by simp
  | _, _, _, _, .at_end _ => by simp [CodecError.atByte]
  | _, _, _, _, .fault _ hrun hf => fun n h => TextRun.fault_ne hrun n (hf.trans h)
  | _, _, _, _, .next _ _ _ hrest => fun n => TextMembersRun.fault_ne hrest n

theorem TextItemsRun.fault_ne : ∀ {k : CollectionKind} {e : Shape ι} {acc : List Value}
    {r : TextReader} {o : TextReadList}, S.TextItemsRun k e acc r o →
    ∀ n, o.fault ≠ some (.typeMismatch n)
  | _, _, _, _, _, .at_end _ => by simp [CodecError.atByte]
  | _, _, _, _, _, .close _ _ => by simp
  | _, _, _, _, _, .fault _ _ hrun hf => fun n h => TextRun.fault_ne hrun n (hf.trans h)
  | _, _, _, _, _, .next _ _ _ _ hrest => TextItemsRun.fault_ne hrest

end

theorem decode_fault_ne (s : Shape ι) (old : Value) (input : List UInt8) (n : String) :
    (S.decode s old input).fault ≠ some (.typeMismatch n) :=
  BinaryRun.fault_ne S (S.binaryRun_decode s old input) n

theorem readText_fault_ne (s : Shape ι) (old : Value) (r : TextReader) (n : String) :
    (S.readText s old r).fault ≠ some (.typeMismatch n) :=
  TextRun.fault_ne S (S.textRun_readText s old r) n

end Schema

/-- A fault is a type mismatch exactly when a check fails, if the check's failure gives one and
its success gives none. -/
theorem mismatch_iff {p : Prop} {f : Option CodecError} (hpass : p → ∀ n, f ≠ some (.typeMismatch n))
    (hfail : ¬p → ∃ n, f = some (.typeMismatch n)) : (∃ n, f = some (.typeMismatch n)) ↔ ¬p :=
  ⟨fun ⟨n, hn⟩ hp => hpass hp n hn, hfail⟩

variable {ι : Type} [DecidableEq ι] {S : Schema ι}

/-- Writing nothing leaves a stream as it was and reports the writer's failure. -/
theorem ByteStream.emit_nothing {σ : Type} [ByteStream σ] (st : σ) (e : CodecError) :
    ByteStream.emit st ⟨[], some e⟩ = (st, some e) := rfl

/-! ### Accessors -/

namespace Accessor

variable {a : Accessor ι} {owner : AnyValue ι}

section Mismatch

-- the owner is of another type than the one the accessor addresses a value in
variable (h : owner.shape ≠ a.ownerShape)
include h

theorem get_of_ne : a.get S owner = .error (a.mismatch S) := by
  unfold get
  exact if_neg h

theorem writeBinary_of_ne : a.writeBinary S owner = ⟨[], some (a.mismatch S)⟩ := by
  rw [writeBinary, get_of_ne h]

theorem readBinary_of_ne (input : List UInt8) :
    a.readBinary S owner input = ⟨owner.value, input, some (a.mismatch S)⟩ := by
  rw [readBinary, get_of_ne h]

theorem writeText_of_ne : a.writeText S owner = ([], some (a.mismatch S)) := by
  rw [writeText, get_of_ne h]

theorem readText_of_ne (r : TextReader) :
    a.readText S owner r = ⟨owner.value, r, some (a.mismatch S)⟩ := by
  rw [readText, get_of_ne h]

theorem construct_of_ne : a.construct S owner = .error (a.mismatch S) := by
  rw [construct, get_of_ne h]
  rfl

end Mismatch

section Match

-- the owner is of the type the accessor addresses a value in
variable (h : owner.shape = a.ownerShape)
include h

theorem get_of_eq : ∃ v, a.get S owner = .ok v := by
  unfold get
  rw [if_pos h]
  cases a <;> exact ⟨_, rfl⟩

theorem writeBinary_fault_ne (n : String) :
    (a.writeBinary S owner).fault ≠ some (.typeMismatch n) := by
  obtain ⟨v, hv⟩ := get_of_eq (S := S) h
  rw [writeBinary, hv]
  exact S.encode_fault_ne a.shape v n

theorem readBinary_fault_ne (input : List UInt8) (n : String) :
    (a.readBinary S owner input).fault ≠ some (.typeMismatch n) := by
  obtain ⟨v, hv⟩ := get_of_eq (S := S) h
  rw [readBinary, hv]
  exact S.decode_fault_ne a.shape v input n

theorem readText_fault_ne (r : TextReader) (n : String) :
    (a.readText S owner r).fault ≠ some (.typeMismatch n) := by
  obtain ⟨v, hv⟩ := get_of_eq (S := S) h
  rw [readText, hv]
  exact S.readText_fault_ne a.shape v r n

theorem construct_of_eq : a.construct S owner = .ok (a.put owner.value (S.default a.shape)) := by
  obtain ⟨v, hv⟩ := get_of_eq (S := S) h
  rw [construct, hv]
  rfl

end Match

/-- A reset answers a type mismatch exactly for an owner of another type. -/
theorem construct_mismatch_iff :
    (∃ n, a.construct S owner = .error (.typeMismatch n)) ↔ owner.shape ≠ a.ownerShape := by
  constructor
  · rintro ⟨n, hn⟩ heq
    rw [construct_of_eq heq] at hn
    cases hn
  · intro hne
    exact ⟨_, construct_of_ne hne⟩

variable (S) in
/-- An accessor addresses the member it names: a member accessor names the member at its index
in the record type's descriptor, as every accessor `ofMember?` gives does; a whole-value accessor
addresses its owner. -/
def Addresses : Accessor ι → Prop
  | whole _ => True
  | member r i m => (S.descriptor r).members[i]? = some m

omit [DecidableEq ι] in
theorem ofMember?_addresses {r : ι} {name : String} (h : ofMember? S r name = some a) :
    a.Addresses S := by
  unfold ofMember? at h
  obtain ⟨⟨m, i⟩, hfind, rfl⟩ := Option.map_eq_some_iff.1 h
  exact List.mk_mem_zipIdx_iff_getElem?.1 (List.mem_of_find?_eq_some hfind)

/-- Through an accessor of the member it names, an owner of its type gives a value of the
addressed shape. -/
theorem typed_of_get {v : Value} (ha : a.Addresses S) (ho : S.Typed owner.shape owner.value)
    (hget : a.get S owner = .ok v) : S.Typed a.shape v := by
  unfold get at hget
  split at hget
  · next h =>
    cases a with
    | whole s =>
      cases hget
      rwa [h] at ho
    | member r i m =>
      cases hget
      rw [h, ownerShape] at ho
      -- the owner is a record of type `r`, one value of each member's shape
      generalize owner.value = w at ho ⊢
      cases ho with
      | record hlen hall =>
        rename_i vs
        have hi : i < (S.descriptor r).members.length := (List.getElem?_eq_some_iff.1 ha).1
        have hm : (S.descriptor r).members[i] = m := (List.getElem?_eq_some_iff.1 ha).2
        have hiv : i < vs.length := hlen ▸ hi
        have hz : i < ((S.descriptor r).members.zip vs).length := by simp [hi, hiv]
        have hp : ((S.descriptor r).members.zip vs)[i] = (m, vs[i]) := by simp [hm]
        have hmem := hp ▸ List.getElem_mem hz
        simpa [shape, Value.fields, List.getD_eq_getElem?_getD, hiv] using hall _ hmem
  · cases hget

/-- Through an accessor of the member it names, writing an owner of its type passes every check
inside it. -/
theorem writeText_fault_of_typed (ha : a.Addresses S) (ho : S.Typed owner.shape owner.value)
    (h : owner.shape = a.ownerShape) : (a.writeText S owner).2 = none := by
  obtain ⟨v, hv⟩ := get_of_eq (S := S) h
  simp only [writeText, hv, Schema.writeValueText_of_typed (typed_of_get ha ho hv)]

end Accessor

/-! ### Collection adapters -/

namespace Adapter

variable {ad : Adapter ι} {c : AnyValue ι}

section Mismatch

-- the value is not a collection of the adapter's type
variable (h : c.shape ≠ ad.shape)
include h

theorem items_of_ne : ad.items S c = .error (.typeMismatch (ad.typeName S)) := by
  rw [items, if_neg h]

theorem size_of_ne : ad.size S c = .error (.typeMismatch (ad.typeName S)) := by
  rw [size, items_of_ne h]
  rfl

theorem begin_of_ne : ad.begin S c = .error (.typeMismatch (ad.typeName S)) := by
  rw [begin, items_of_ne h]
  rfl

theorem clear_of_ne : ad.clear S c = .error (.typeMismatch (ad.typeName S)) := by
  rw [clear, items_of_ne h]
  rfl

theorem appendText_of_ne (r : TextReader) :
    ad.appendText S c r = ⟨c.value, r, some (.typeMismatch (ad.typeName S))⟩ := by
  rw [appendText, items_of_ne h]

theorem appendBinary_of_ne (input : List UInt8) :
    ad.appendBinary S c input = ⟨c.value, input, some (.typeMismatch (ad.typeName S))⟩ := by
  rw [appendBinary, items_of_ne h]

end Mismatch

section Match

-- the value is a collection of the adapter's type
variable (h : c.shape = ad.shape)
include h

theorem items_of_eq : ad.items S c = .ok c.value.elems := by
  rw [items, if_pos h]

theorem appendText_fault_ne (r : TextReader) (n : String) :
    (ad.appendText S c r).fault ≠ some (.typeMismatch n) := by
  rw [appendText, items_of_eq h]
  dsimp only
  -- whether the element reads or not, the fault is the element reader's
  split <;> exact S.readText_fault_ne ad.elem (S.default ad.elem) r n

theorem appendBinary_fault_ne (input : List UInt8) (n : String) :
    (ad.appendBinary S c input).fault ≠ some (.typeMismatch n) := by
  rw [appendBinary, items_of_eq h]
  dsimp only
  split <;> exact S.decode_fault_ne ad.elem (S.default ad.elem) input n

end Match

/-- Counting, walking and clearing answer a type mismatch exactly for a value of another type. -/
theorem items_mismatch_iff {α : Type} {f : List Value → α} :
    (∃ n, (ad.items S c).map f = .error (.typeMismatch n)) ↔ c.shape ≠ ad.shape := by
  constructor
  · rintro ⟨n, hn⟩ heq
    rw [items_of_eq heq] at hn
    cases hn
  · intro hne
    exact ⟨_, by rw [items_of_ne hne]; rfl⟩

end Adapter

/-! ### Messages -/

theorem Protocol.destroy_of_ne {p : Protocol ι} {m : Message ι} {r : ι}
    (hr : p.typeFor m.code = .ok r) (h : m.value.shape ≠ .record r) :
    p.destroy S m = .error (.typeMismatch m.code (S.descriptor r).name) := by
  rw [Protocol.destroy, hr]
  exact if_neg h

theorem Protocol.destroy_of_eq {p : Protocol ι} {m : Message ι} {r : ι}
    (hr : p.typeFor m.code = .ok r) (h : m.value.shape = .record r) : p.destroy S m = .ok () := by
  rw [Protocol.destroy, hr]
  exact if_pos h

/-! ### Every operation -/

variable (S) in
/-- Every type-erased operation refuses a value of another type before any effect, and nothing
else. An accessor's binary and text reads and writes and its reset report a type mismatch exactly
when the owner is of another type than the one it addresses a value in; its text writer, which
checks the values inside the owner too, does so on an owner of its own type through an accessor
of the member it names. A refusal names the owner's type and leaves the value, the stream, the
text written and the reader as they were. Every operation of a collection adapter reports a type
mismatch exactly for a value that is not its collection, names the collection type and consumes
nothing. Dropping a boxed value succeeds exactly for a value of the addressed type and otherwise
names it; releasing a message succeeds exactly when its payload is of the type registered for its
code and otherwise names the code and that type's descriptor. -/
theorem ill_typed_values_refused :
    (∀ (a : Accessor ι) (owner : AnyValue ι),
      ((∃ n, (a.writeBinary S owner).fault = some (.typeMismatch n)) ↔
        owner.shape ≠ a.ownerShape) ∧
      (∀ input, (∃ n, (a.readBinary S owner input).fault = some (.typeMismatch n)) ↔
        owner.shape ≠ a.ownerShape) ∧
      (∀ r, (∃ n, (a.readText S owner r).fault = some (.typeMismatch n)) ↔
        owner.shape ≠ a.ownerShape) ∧
      ((∃ n, a.construct S owner = .error (.typeMismatch n)) ↔ owner.shape ≠ a.ownerShape) ∧
      (a.Addresses S → S.Typed owner.shape owner.value →
        ((∃ n, (a.writeText S owner).2 = some (.typeMismatch n)) ↔ owner.shape ≠ a.ownerShape)) ∧
      (owner.shape ≠ a.ownerShape →
        (∀ (σ : Type) [ByteStream σ] (st : σ), ByteStream.emit st (a.writeBinary S owner) =
          (st, some (.typeMismatch (S.typeName a.ownerShape)))) ∧
        (∀ input, a.readBinary S owner input =
          ⟨owner.value, input, some (.typeMismatch (S.typeName a.ownerShape))⟩) ∧
        a.writeText S owner = ([], some (.typeMismatch (S.typeName a.ownerShape))) ∧
        (∀ r, a.readText S owner r =
          ⟨owner.value, r, some (.typeMismatch (S.typeName a.ownerShape))⟩) ∧
        a.construct S owner = .error (.typeMismatch (S.typeName a.ownerShape)))) ∧
    (∀ (ad : Adapter ι) (c : AnyValue ι),
      ((∃ n, ad.size S c = .error (.typeMismatch n)) ↔ c.shape ≠ ad.shape) ∧
      ((∃ n, ad.begin S c = .error (.typeMismatch n)) ↔ c.shape ≠ ad.shape) ∧
      ((∃ n, ad.clear S c = .error (.typeMismatch n)) ↔ c.shape ≠ ad.shape) ∧
      (∀ r, (∃ n, (ad.appendText S c r).fault = some (.typeMismatch n)) ↔ c.shape ≠ ad.shape) ∧
      (∀ input, (∃ n, (ad.appendBinary S c input).fault = some (.typeMismatch n)) ↔
        c.shape ≠ ad.shape) ∧
      (c.shape ≠ ad.shape →
        ad.size S c = .error (.typeMismatch (ad.typeName S)) ∧
        ad.begin S c = .error (.typeMismatch (ad.typeName S)) ∧
        ad.clear S c = .error (.typeMismatch (ad.typeName S)) ∧
        (∀ r, ad.appendText S c r = ⟨c.value, r, some (.typeMismatch (ad.typeName S))⟩) ∧
        (∀ input, ad.appendBinary S c input =
          ⟨c.value, input, some (.typeMismatch (ad.typeName S))⟩))) ∧
    (∀ (a : Accessor ι) (boxed : AnyValue ι),
      (a.destroyBoxed S boxed = .ok () ↔ boxed.shape = a.shape) ∧
      (boxed.shape ≠ a.shape → a.destroyBoxed S boxed = .error (.typeMismatch (S.typeName a.shape)))) ∧
    (∀ (p : Protocol ι) (m : Message ι) (r : ι), p.typeFor m.code = .ok r →
      (p.destroy S m = .ok () ↔ m.value.shape = .record r) ∧
      (m.value.shape ≠ .record r →
        p.destroy S m = .error (.typeMismatch m.code (S.descriptor r).name))) := by
  refine ⟨fun a owner => ?_, fun ad c => ?_, fun a boxed => ?_, fun p m r hr => ?_⟩
  · -- every accessor operation goes through the owner check first, and nothing after it
    -- reports a type mismatch
    refine ⟨mismatch_iff (Accessor.writeBinary_fault_ne) fun hne =>
        ⟨_, by rw [Accessor.writeBinary_of_ne hne]; rfl⟩,
      fun input => mismatch_iff (fun heq => Accessor.readBinary_fault_ne heq input) fun hne =>
        ⟨_, by rw [Accessor.readBinary_of_ne hne]; rfl⟩,
      fun r => mismatch_iff (fun heq => Accessor.readText_fault_ne heq r) fun hne =>
        ⟨_, by rw [Accessor.readText_of_ne hne]; rfl⟩,
      Accessor.construct_mismatch_iff, fun ha ho => ?_, fun hne => ?_⟩
    · refine mismatch_iff (fun heq n => ?_) fun hne => ⟨_, by rw [Accessor.writeText_of_ne hne]; rfl⟩
      rw [Accessor.writeText_fault_of_typed ha ho heq]
      simp
    · refine ⟨fun σ _ st => ?_, Accessor.readBinary_of_ne hne, Accessor.writeText_of_ne hne,
        Accessor.readText_of_ne hne, Accessor.construct_of_ne hne⟩
      rw [Accessor.writeBinary_of_ne hne]
      exact ByteStream.emit_nothing st _
  · refine ⟨Adapter.items_mismatch_iff, Adapter.items_mismatch_iff, Adapter.items_mismatch_iff,
      fun r => mismatch_iff (fun heq => Adapter.appendText_fault_ne heq r) fun hne =>
        ⟨_, by rw [Adapter.appendText_of_ne hne]⟩,
      fun input => mismatch_iff (fun heq => Adapter.appendBinary_fault_ne heq input) fun hne =>
        ⟨_, by rw [Adapter.appendBinary_of_ne hne]⟩,
      fun hne => ⟨Adapter.size_of_ne hne, Adapter.begin_of_ne hne, Adapter.clear_of_ne hne,
        Adapter.appendText_of_ne hne, Adapter.appendBinary_of_ne hne⟩⟩
  · refine ⟨⟨fun hok => ?_, fun heq => by rw [Accessor.destroyBoxed, if_pos heq]⟩,
      fun hne => by rw [Accessor.destroyBoxed, if_neg hne]⟩
    by_contra hne
    rw [Accessor.destroyBoxed, if_neg hne] at hok
    cases hok
  · refine ⟨⟨fun hok => ?_, Protocol.destroy_of_eq hr⟩, Protocol.destroy_of_ne hr⟩
    by_contra hne
    rw [Protocol.destroy_of_ne hr hne] at hok
    cases hok

/-- The accessor of a login packet's name, handed a ping, refuses it before reading a byte and
names the login packet's type. -/
theorem login_name_refuses_ping :
    (⟨.record .ping, .record [.int 7]⟩ : AnyValue RecordName).shape ≠
      (Accessor.member .loginPacket 1 ⟨"name", .text "user name", .scalar .string, 0⟩).ownerShape ∧
    ∀ input, (Accessor.member .loginPacket 1 ⟨"name", .text "user name", .scalar .string, 0⟩).readBinary
      catalog ⟨.record .ping, .record [.int 7]⟩ input =
        ⟨.record [.int 7], input, some (.typeMismatch "chat_messages::LoginPacket")⟩ :=
  ⟨by decide, (((ill_typed_values_refused catalog).1 _ _).2.2.2.2.2 (by decide)).2.1⟩

end RecordWire
