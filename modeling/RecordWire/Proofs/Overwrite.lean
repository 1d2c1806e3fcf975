import RecordWire.Proofs.ReadingSteps
/-!
# Reading overwrites

Both decoders read into an existing value, and both overwrite it completely: what a read
consumes, and whether and how it fails, never depends on the value it reads into, and a read
that succeeds into a well-typed value gives exactly what a read into the default gives
(`decoding_overwrites`). So no old element of a collection, old text of a string or old member
of a set outlives a successful read, at any depth.

The reason is the same in both codecs. The old value is consulted in one place only, as the
value a record member starts from; a scalar replaces its value once its bytes or token are read,
and a collection starts from empty. The proofs follow each decoder's own recursion, through the
step equations of `Proofs/ReadingSteps`.
-/

namespace RecordWire

namespace Schema

variable {ι : Type} (S : Schema ι)

/-! ## What a binary read consumes does not depend on the old value -/

mutual

/-- What a binary read consumes, and how it fails, is what a read into the default gives. -/
theorem decode_rest_fault (s : Shape ι) (old : Value) (input : List UInt8) :
    (S.decode s old input).rest = (S.decode s (S.default s) input).rest ∧
      (S.decode s old input).fault = (S.decode s (S.default s) input).fault := by
  cases s with
  | scalar t =>
    rw [decode.eq_1, decode.eq_1]
    split <;> exact ⟨rfl, rfl⟩
  | record r =>
    have : S.rank r < S.weight (.record r) := Nat.lt_succ_self _
    rw [decode.eq_2, decode.eq_2]
    exact decodeMembers_rest_fault r _ old.fields _ input
  | collection k e =>
    cases h : readCount input with
    | none => simp [decode_collection_none h]
    | some p => simp [decode_collection_some h]
termination_by (input.length, S.weight s, 0)
decreasing_by
  simp +zetaDelta only [Prod.lex_def, true_and] at *
  omega

theorem decodeMembers_rest_fault (r : ι) (ms : List {m // m ∈ (S.descriptor r).members})
    (olds olds' : List Value) (input : List UInt8) :
    (S.decodeMembers r ms olds input).rest = (S.decodeMembers r ms olds' input).rest ∧
      (S.decodeMembers r ms olds input).fault = (S.decodeMembers r ms olds' input).fault := by
  cases ms with
  | nil => simp [decodeMembers.eq_1]
  | cons m ms =>
    obtain ⟨m, hm⟩ := m
    have := S.weight_le_rank hm
    -- both reads of the first member consume what a fresh read does, and fail as it does
    obtain ⟨hrest, hfault⟩ := decode_rest_fault m.shape (olds.headD (S.default m.shape)) input
    obtain ⟨hrest', hfault'⟩ := decode_rest_fault m.shape (olds'.headD (S.default m.shape)) input
    cases hf : (S.decode m.shape (S.default m.shape) input).fault with
    | some f =>
      rw [decodeMembers_cons_fault rfl (hfault.trans hf),
        decodeMembers_cons_fault rfl (hfault'.trans hf)]
      exact ⟨hrest.trans hrest'.symm, rfl⟩
    | none =>
      have hle := (S.decode_rest_suffix m.shape (S.default m.shape) input).length_le
      rw [decodeMembers_cons_ok rfl (hfault.trans hf), decodeMembers_cons_ok rfl (hfault'.trans hf),
        hrest, hrest']
      exact decodeMembers_rest_fault r ms olds.tail olds'.tail _
termination_by (input.length, S.rank r, ms.length)
decreasing_by
  all_goals
    simp only [Prod.lex_def, true_and, List.length_cons]
    omega

end

/-! ## A successful binary read forgets the old value -/

mutual

/-- A binary read into a well-typed value that succeeds gives what a read into the default
gives. -/
theorem decode_value_of_typed {s : Shape ι} {old : Value} (hold : S.Typed s old)
    (input : List UInt8) (hok : (S.decode s old input).fault = none) :
    (S.decode s old input).value = (S.decode s (S.default s) input).value := by
  match s with
  | .scalar t =>
    rw [decode.eq_1] at hok ⊢
    rw [decode.eq_1]
    split
    · rfl
    · next h => simp [h] at hok
  | .record r =>
    have : S.rank r < S.weight (.record r) := Nat.lt_succ_self _
    obtain ⟨olds, rfl⟩ : ∃ olds, old = .record olds := by cases hold; exact ⟨_, rfl⟩
    -- the default is a well-typed record too
    have hdef := S.typed_default (.record r)
    generalize S.default (.record r) = fresh at hdef ⊢
    obtain ⟨fresh, rfl⟩ : ∃ vs, fresh = .record vs := by cases hdef; exact ⟨_, rfl⟩
    rw [decode.eq_2] at hok ⊢
    rw [decode.eq_2]
    simp only [Value.fields, Value.record.injEq] at hok ⊢
    exact decodeMembers_values_of_typed r (forall₂_attach hold.forall₂_members)
      (forall₂_attach hdef.forall₂_members) input hok
  | .collection k e =>
    cases h : readCount input with
    | none => simp [decode_collection_none h] at hok
    | some p => simp [decode_collection_some h]
termination_by (input.length, S.weight s, 0)
decreasing_by
  simp +zetaDelta only [Prod.lex_def, true_and] at *
  omega

theorem decodeMembers_values_of_typed (r : ι) {ms : List {m // m ∈ (S.descriptor r).members}}
    {olds olds' : List Value} (holds : List.Forall₂ (fun m o => S.Typed m.1.shape o) ms olds)
    (holds' : List.Forall₂ (fun m o => S.Typed m.1.shape o) ms olds') (input : List UInt8)
    (hok : (S.decodeMembers r ms olds input).fault = none) :
    (S.decodeMembers r ms olds input).values = (S.decodeMembers r ms olds' input).values := by
  match ms, olds, olds', holds, holds' with
  | [], [], [], .nil, .nil => rfl
  | ⟨m, hm⟩ :: ms, o :: olds, o' :: olds', .cons hmo holds, .cons hmo' holds' =>
    have := S.weight_le_rank hm
    obtain ⟨hrest, hfault⟩ := S.decode_rest_fault m.shape o input
    obtain ⟨hrest', hfault'⟩ := S.decode_rest_fault m.shape o' input
    cases hf : (S.decode m.shape (S.default m.shape) input).fault with
    | some f =>
      rw [decodeMembers_cons_fault (o := S.decode m.shape o input) rfl (hfault.trans hf)] at hok
      cases hok
    | none =>
      have hle := (S.decode_rest_suffix m.shape (S.default m.shape) input).length_le
      rw [decodeMembers_cons_ok (o := S.decode m.shape o input) rfl (hfault.trans hf)] at hok ⊢
      rw [decodeMembers_cons_ok (o := S.decode m.shape o' input) rfl (hfault'.trans hf)]
      simp only [List.tail_cons, hrest, hrest'] at hok ⊢
      -- the first member reads as a fresh one, and so do the others
      rw [decode_value_of_typed hmo input (hfault.trans hf),
        decode_value_of_typed hmo' input (hfault'.trans hf),
        decodeMembers_values_of_typed r holds holds' _ hok]
termination_by (input.length, S.rank r, ms.length)
decreasing_by
  all_goals
    simp only [Prod.lex_def, true_and, List.length_cons]
    omega

end

/-! ## What a text read consumes does not depend on the old value -/

mutual

/-- Where a text read stops, and how it fails, is what a read into the default gives. -/
theorem readText_reader_fault (s : Shape ι) (old : Value) (r : TextReader) :
    (S.readText s old r).reader = (S.readText s (S.default s) r).reader ∧
      (S.readText s old r).fault = (S.readText s (S.default s) r).fault := by
  match s with
  | .scalar t =>
    rw [readText.eq_1, readText.eq_1]
    split <;> exact ⟨rfl, rfl⟩
  | .record rid =>
    cases hopen : (r.skipBlanks.expect '[' .missingOpenToken).result with
    | error pe => simp [readText_record_open_fail hopen]
    | ok u =>
      have := TextReader.length_expect_lt hopen
      have := r.length_skipBlanks_le
      -- the members are read alike from both old values, and so is the closing bracket
      obtain ⟨hreader, hfault⟩ := readMembers_reader_fault (S.descriptor rid).members old.fields
        (S.default (.record rid)).fields (r.skipBlanks.expect '[' .missingOpenToken).reader
      cases hf : (S.readMembers (S.descriptor rid).members (S.default (.record rid)).fields
          (r.skipBlanks.expect '[' .missingOpenToken).reader).fault with
      | some f =>
        rw [readText_record_members_fault hopen rfl (hfault.trans hf),
          readText_record_members_fault hopen rfl hf]
        exact ⟨hreader, rfl⟩
      | none =>
        rcases hc : (S.readMembers (S.descriptor rid).members (S.default (.record rid)).fields
          (r.skipBlanks.expect '[' .missingOpenToken).reader).reader.skipBlanks.eat ']' with ⟨b, r3⟩
        cases b with
        | true =>
          rw [readText_record_close hopen rfl (hfault.trans hf) (by rw [hreader, hc]),
            readText_record_close hopen rfl hf hc]
          exact ⟨rfl, rfl⟩
        | false =>
          rw [readText_record_unclosed hopen rfl (hfault.trans hf) (by rw [hreader, hc]),
            readText_record_unclosed hopen rfl hf (by rw [hc])]
          exact ⟨by rw [hreader], by rw [hreader]⟩
  | .collection k e =>
    cases hopen : (r.skipBlanks.expect '{' .missingOpenToken).result with
    | error pe => simp [readText_collection_open_fail hopen]
    | ok u => simp [readText_collection_open hopen]
termination_by (r.rest.length, 0)
decreasing_by
  simp +zetaDelta only [Prod.lex_def] at *
  omega

theorem readMembers_reader_fault (ms : List (Member ι)) (olds olds' : List Value)
    (r : TextReader) :
    (S.readMembers ms olds r).reader = (S.readMembers ms olds' r).reader ∧
      (S.readMembers ms olds r).fault = (S.readMembers ms olds' r).fault := by
  match ms with
  | [] => simp [readMembers.eq_1]
  | m :: ms =>
    have := r.length_skipBlanks_le
    cases hend : r.skipBlanks.atEnd with
    | true => simp [readMembers_cons_atEnd hend]
    | false =>
      obtain ⟨hreader, hfault⟩ := readText_reader_fault m.shape (olds.headD (S.default m.shape))
        r.skipBlanks
      obtain ⟨hreader', hfault'⟩ := readText_reader_fault m.shape (olds'.headD (S.default m.shape))
        r.skipBlanks
      cases hf : (S.readText m.shape (S.default m.shape) r.skipBlanks).fault with
      | some f =>
        rw [readMembers_cons_fault hend rfl (hfault.trans hf),
          readMembers_cons_fault hend rfl (hfault'.trans hf)]
        exact ⟨hreader.trans hreader'.symm, rfl⟩
      | none =>
        have hle := ((S.readText_suffix m.shape (S.default m.shape) r.skipBlanks).trans
          r.skipBlanks_suffix).length_le
        rw [readMembers_cons_ok hend rfl (hfault.trans hf),
          readMembers_cons_ok hend rfl (hfault'.trans hf), hreader, hreader']
        exact readMembers_reader_fault ms olds.tail olds'.tail _
termination_by (r.rest.length, ms.length + 1)
decreasing_by
  all_goals
    simp +zetaDelta only [Prod.lex_def, List.length_cons] at *
    omega

end

/-! ## A successful text read forgets the old value -/

mutual

/-- A text read into a well-typed value that succeeds gives what a read into the default
gives. -/
theorem readText_value_of_typed {s : Shape ι} {old : Value} (hold : S.Typed s old)
    (r : TextReader) (hok : (S.readText s old r).fault = none) :
    (S.readText s old r).value = (S.readText s (S.default s) r).value := by
  match s with
  | .scalar t =>
    rw [readText.eq_1] at hok ⊢
    rw [readText.eq_1]
    split
    · rfl
    · next h => simp [h] at hok
  | .record rid =>
    obtain ⟨olds, rfl⟩ : ∃ olds, old = .record olds := by cases hold; exact ⟨_, rfl⟩
    have hdef := S.typed_default (.record rid)
    generalize S.default (.record rid) = fresh at hdef ⊢
    obtain ⟨fresh, rfl⟩ : ∃ vs, fresh = .record vs := by cases hdef; exact ⟨_, rfl⟩
    cases hopen : (r.skipBlanks.expect '[' .missingOpenToken).result with
    | error pe => simp [readText_record_open_fail hopen] at hok
    | ok u =>
      have := TextReader.length_expect_lt hopen
      have := r.length_skipBlanks_le
      obtain ⟨hreader, hfault⟩ := S.readMembers_reader_fault (S.descriptor rid).members olds fresh
        (r.skipBlanks.expect '[' .missingOpenToken).reader
      cases hf : (S.readMembers (S.descriptor rid).members olds
          (r.skipBlanks.expect '[' .missingOpenToken).reader).fault with
      | some f =>
        simp [readText_record_members_fault (d := .record olds) hopen rfl hf] at hok
      | none =>
        -- both reads close the record alike, and the members read alike
        have hvalues := readMembers_values_of_typed hold.forall₂_members hdef.forall₂_members
          (r.skipBlanks.expect '[' .missingOpenToken).reader hf
        rcases hc : (S.readMembers (S.descriptor rid).members olds
          (r.skipBlanks.expect '[' .missingOpenToken).reader).reader.skipBlanks.eat ']' with ⟨b, r3⟩
        cases b with
        | true =>
          have hc' : (S.readMembers (S.descriptor rid).members fresh
              (r.skipBlanks.expect '[' .missingOpenToken).reader).reader.skipBlanks.eat ']' =
              (true, r3) := by
            rw [← hreader, hc]
          rw [readText_record_close (d := .record olds) hopen rfl hf hc,
            readText_record_close (d := .record fresh) hopen rfl (hfault ▸ hf) hc']
          simp only [Value.fields, hvalues]
        | false =>
          simp [readText_record_unclosed (d := .record olds) hopen rfl hf
            (by simp only [Value.fields, hc])] at hok
  | .collection k e =>
    cases hopen : (r.skipBlanks.expect '{' .missingOpenToken).result with
    | error pe => simp [readText_collection_open_fail hopen] at hok
    | ok u => simp [readText_collection_open hopen]
termination_by (r.rest.length, 0)
decreasing_by
  simp +zetaDelta only [Prod.lex_def] at *
  omega

theorem readMembers_values_of_typed {ms : List (Member ι)} {olds olds' : List Value}
    (holds : List.Forall₂ (fun m o => S.Typed m.shape o) ms olds)
    (holds' : List.Forall₂ (fun m o => S.Typed m.shape o) ms olds') (r : TextReader)
    (hok : (S.readMembers ms olds r).fault = none) :
    (S.readMembers ms olds r).values = (S.readMembers ms olds' r).values := by
  match ms, olds, olds', holds, holds' with
  | [], [], [], .nil, .nil => rfl
  | m :: ms, o :: olds, o' :: olds', .cons hmo holds, .cons hmo' holds' =>
    have := r.length_skipBlanks_le
    cases hend : r.skipBlanks.atEnd with
    | true => simp [readMembers_cons_atEnd hend] at hok
    | false =>
      obtain ⟨hreader, hfault⟩ := S.readText_reader_fault m.shape o r.skipBlanks
      obtain ⟨hreader', hfault'⟩ := S.readText_reader_fault m.shape o' r.skipBlanks
      cases hf : (S.readText m.shape (S.default m.shape) r.skipBlanks).fault with
      | some f =>
        rw [readMembers_cons_fault (o := S.readText m.shape o r.skipBlanks) hend rfl
          (hfault.trans hf)] at hok
        cases hok
      | none =>
        have hle := ((S.readText_suffix m.shape (S.default m.shape) r.skipBlanks).trans
          r.skipBlanks_suffix).length_le
        rw [readMembers_cons_ok (o := S.readText m.shape o r.skipBlanks) hend rfl
          (hfault.trans hf)] at hok ⊢
        rw [readMembers_cons_ok (o := S.readText m.shape o' r.skipBlanks) hend rfl
          (hfault'.trans hf)]
        simp only [List.tail_cons, hreader, hreader'] at hok ⊢
        -- the first member reads as a fresh one, and so do the others
        rw [readText_value_of_typed hmo r.skipBlanks (hfault.trans hf),
          readText_value_of_typed hmo' r.skipBlanks (hfault'.trans hf),
          readMembers_values_of_typed holds holds' _ hok]
termination_by (r.rest.length, ms.length + 1)
decreasing_by
  all_goals
    simp +zetaDelta only [Prod.lex_def, List.length_cons] at *
    omega

end

/-! ## Decoding overwrites -/

variable {S}

/-- Decoding overwrites completely, in both codecs. For any two well-typed values `d₁` and `d₂`
to read into: reading bytes from any stream fails into `d₁` exactly as into `d₂` and leaves the
stream at the same place, and when it succeeds both come out as what reading into the default
gives; the same holds for reading text from any reader, which stops at the same place for both.
-/
theorem decoding_overwrites {s : Shape ι} {d₁ d₂ : Value} (h₁ : S.Typed s d₁)
    (h₂ : S.Typed s d₂) :
    (∀ {σ : Type} [ByteStream σ] (st : σ),
      (S.decodeFrom s d₁ st).1.fault = (S.decodeFrom s d₂ st).1.fault ∧
      (S.decodeFrom s d₁ st).2 = (S.decodeFrom s d₂ st).2 ∧
      ((S.decodeFrom s d₁ st).1.fault = none →
        (S.decodeFrom s d₁ st).1.value = (S.decodeFrom s (S.default s) st).1.value ∧
        (S.decodeFrom s d₂ st).1.value = (S.decodeFrom s (S.default s) st).1.value)) ∧
    (∀ r : TextReader,
      (S.readText s d₁ r).fault = (S.readText s d₂ r).fault ∧
      (S.readText s d₁ r).reader = (S.readText s d₂ r).reader ∧
      ((S.readText s d₁ r).fault = none →
        (S.readText s d₁ r).value = (S.readText s (S.default s) r).value ∧
        (S.readText s d₂ r).value = (S.readText s (S.default s) r).value)) := by
  constructor
  · intro σ _ st
    obtain ⟨hrest₁, hfault₁⟩ := S.decode_rest_fault s d₁ (ByteStream.unread st).data.toList
    obtain ⟨hrest₂, hfault₂⟩ := S.decode_rest_fault s d₂ (ByteStream.unread st).data.toList
    simp only [decodeFrom]
    refine ⟨hfault₁.trans hfault₂.symm, by rw [hrest₁, hrest₂], fun hok => ⟨?_, ?_⟩⟩
    · exact S.decode_value_of_typed h₁ _ hok
    · exact S.decode_value_of_typed h₂ _ (hfault₂.trans (hfault₁.symm.trans hok))
  · intro r
    obtain ⟨hreader₁, hfault₁⟩ := S.readText_reader_fault s d₁ r
    obtain ⟨hreader₂, hfault₂⟩ := S.readText_reader_fault s d₂ r
    refine ⟨hfault₁.trans hfault₂.symm, hreader₁.trans hreader₂.symm, fun hok => ⟨?_, ?_⟩⟩
    · exact S.readText_value_of_typed h₁ r hok
    · exact S.readText_value_of_typed h₂ r (hfault₂.trans (hfault₁.symm.trans hok))

end Schema

/-- Two `Tags` values with different old names and numbers to read into: reading bytes or text
into either fails alike and stops alike, and what succeeds forgets both. -/
theorem tags_decoding_overwrites :
    let d₁ : Value := .record [.items [.str "old"], .items [.int 5]]
    let d₂ : Value := .record [.items [], .items [.int (-3), .int 7]]
    let s : Shape RecordName := .record .tags
    catalog.Typed s d₁ ∧ catalog.Typed s d₂ ∧
    (∀ {σ : Type} [ByteStream σ] (st : σ),
      (catalog.decodeFrom s d₁ st).1.fault = (catalog.decodeFrom s d₂ st).1.fault ∧
      (catalog.decodeFrom s d₁ st).2 = (catalog.decodeFrom s d₂ st).2 ∧
      ((catalog.decodeFrom s d₁ st).1.fault = none →
        (catalog.decodeFrom s d₁ st).1.value = (catalog.decodeFrom s (catalog.default s) st).1.value ∧
        (catalog.decodeFrom s d₂ st).1.value = (catalog.decodeFrom s (catalog.default s) st).1.value)) ∧
    (∀ r : TextReader,
      (catalog.readText s d₁ r).fault = (catalog.readText s d₂ r).fault ∧
      (catalog.readText s d₁ r).reader = (catalog.readText s d₂ r).reader ∧
      ((catalog.readText s d₁ r).fault = none →
        (catalog.readText s d₁ r).value = (catalog.readText s (catalog.default s) r).value ∧
        (catalog.readText s d₂ r).value = (catalog.readText s (catalog.default s) r).value)) :=
  ⟨by decide, by decide, Schema.decoding_overwrites (by decide) (by decide)⟩

end RecordWire
