import Mathlib
import RecordWire.Proofs.Canonical
import RecordWire.Proofs.Delivery
import RecordWire.Catalog
/-!
# The decoders finish on every input

Both decoders are defined as total functions because each carries a guard that only serves its
termination (`Proofs/ReadingSteps`). The readers they stand for have no such guard: the binary
reader reads a record's members one after another, and a collection's count and then that many
elements; the text reader reads a collection's elements until its closing brace. A run of such a
reader, step by step, is an inductive relation here (`Schema.BinaryRun`, `Schema.TextRun`), one
rule per way a step goes. A run is a finite derivation, so a reader finishes on an input exactly
when the input has a run: every input has exactly one, and its outcome is the decoder's
(`Schema.binaryRun_iff`, `Schema.textRun_iff`).

They finish by consuming their input. In text the reader's position counts the bytes read
(`Schema.total_readText`), and a value that reads takes at least one byte (its token, its
opening quote or its opening bracket), so the element loop of a collection, which has no count,
moves on by a byte each time (`Schema.pos_lt_readText`). In binary a value is read inside
another (`Schema.Enters`) either as a member of a record, ranked below it, or as an element of a
collection, after its count, so no nesting of reads goes on forever
(`Schema.wellFounded_enters`); the element loop runs at most its count, a four-byte word. A
topic, which holds a collection of topics, reads a nested topic only after its title's length
and its replies' count, eight bytes on (`Schema.topic_enters_topic_after_eight_bytes`), so
topics nest at most an eighth of the input deep.

Main statement: `decoders_finish`.
-/

namespace RecordWire

namespace Schema

variable {ι : Type} (S : Schema ι)

/-! ## Runs of the binary reader -/

mutual

/-- A finished run of the binary reader of a value of shape `s` into `old` from `input`, with
its outcome: a scalar's read, a record's members one after another, or a collection's count and
then its elements. -/
inductive BinaryRun : Shape ι → Value → List UInt8 → Decoded → Prop
  | scalar_ok {t : ScalarType} {old v : Value} {input rest : List UInt8} :
      t.decodeBinary input = .ok (v, rest) → BinaryRun (.scalar t) old input ⟨v, rest, none⟩
  | scalar_fault {t : ScalarType} {old : Value} {input rest : List UInt8} {f : CodecError} :
      t.decodeBinary input = .error (f, rest) → BinaryRun (.scalar t) old input ⟨old, rest, some f⟩
  | record {r : ι} {old : Value} {input : List UInt8} {o : DecodedList} :
      BinaryMembersRun (S.descriptor r).members old.fields input o →
      BinaryRun (.record r) old input ⟨.record o.values, o.rest, o.fault⟩
  | short {k : CollectionKind} {e : Shape ι} {old : Value} {input : List UInt8} :
      readCount input = none →
      BinaryRun (.collection k e) old input ⟨old, input, some (.stream (.underflow 4 input.length))⟩
  | collection {k : CollectionKind} {e : Shape ι} {old : Value} {input body : List UInt8}
      {n : Nat} {o : DecodedList} :
      readCount input = some (n, body) → BinaryItemsRun k e n [] body o →
      BinaryRun (.collection k e) old input ⟨.items o.values, o.rest, o.fault⟩

/-- A finished run of reading the members `ms` in order, `olds` holding their old values: it
stops at the first member that fails. -/
inductive BinaryMembersRun : List (Member ι) → List Value → List UInt8 → DecodedList → Prop
  | nil {olds : List Value} {input : List UInt8} :
      BinaryMembersRun [] olds input ⟨olds, input, none⟩
  | fault {m : Member ι} {ms : List (Member ι)} {olds : List Value} {input : List UInt8}
      {o : Decoded} {f : CodecError} :
      BinaryRun m.shape (olds.headD (S.default m.shape)) input o → o.fault = some f →
      BinaryMembersRun (m :: ms) olds input ⟨o.value :: olds.tail, o.rest, some f⟩
  | next {m : Member ι} {ms : List (Member ι)} {olds : List Value} {input : List UInt8}
      {o : Decoded} {t : DecodedList} :
      BinaryRun m.shape (olds.headD (S.default m.shape)) input o → o.fault = none →
      BinaryMembersRun ms olds.tail o.rest t →
      BinaryMembersRun (m :: ms) olds input ⟨o.value :: t.values, t.rest, t.fault⟩

/-- A finished run of the element loop of a collection of kind `k` with `n` elements still to
read, each inserted into `acc`: it stops at the first element that fails. -/
inductive BinaryItemsRun : CollectionKind → Shape ι → Nat → List Value → List UInt8 →
    DecodedList → Prop
  | done {k : CollectionKind} {e : Shape ι} {acc : List Value} {input : List UInt8} :
      BinaryItemsRun k e 0 acc input ⟨acc, input, none⟩
  | fault {k : CollectionKind} {e : Shape ι} {n : Nat} {acc : List Value} {input : List UInt8}
      {o : Decoded} {f : CodecError} :
      BinaryRun e (S.default e) input o → o.fault = some f →
      BinaryItemsRun k e (n + 1) acc input ⟨acc, o.rest, some f⟩
  | next {k : CollectionKind} {e : Shape ι} {n : Nat} {acc : List Value} {input : List UInt8}
      {o : Decoded} {t : DecodedList} :
      BinaryRun e (S.default e) input o → o.fault = none →
      BinaryItemsRun k e n (k.insert acc o.value) o.rest t →
      BinaryItemsRun k e (n + 1) acc input t

end

/-! ### The decoder runs the binary reader -/

mutual

/-- The binary decoder's outcome is that of a run; the run follows the decoder's recursion. -/
theorem binaryRun_decode (s : Shape ι) (old : Value) (input : List UInt8) :
    S.BinaryRun s old input (S.decode s old input) := by
  cases s with
  | scalar t =>
    rw [decode.eq_1]
    split
    · next v rest h => exact .scalar_ok h
    · next f rest h => exact .scalar_fault h
  | record r =>
    have : S.rank r < S.weight (.record r) := Nat.lt_succ_self _
    have hrun := binaryMembersRun_decodeMembers r (S.descriptor r).members.attach old.fields input
    rw [List.attach_map_subtype_val] at hrun
    rw [decode.eq_2]
    exact .record hrun
  | collection k e =>
    cases h : readCount input with
    | none =>
      rw [decode_collection_none h]
      exact .short h
    | some p =>
      obtain ⟨n, body⟩ := p
      have := readCount_rest_lt h
      rw [decode_collection_some h]
      exact .collection h (binaryItemsRun_decodeItems e n [] body)
termination_by (input.length, S.weight s, 0)
decreasing_by
  all_goals
    simp +zetaDelta only [Prod.lex_def, true_and] at *
    omega

theorem binaryMembersRun_decodeMembers (r : ι) (ms : List {m // m ∈ (S.descriptor r).members})
    (olds : List Value) (input : List UInt8) :
    S.BinaryMembersRun (ms.map Subtype.val) olds input (S.decodeMembers r ms olds input) := by
  match ms with
  | [] =>
    rw [decodeMembers.eq_1]
    exact .nil
  | ⟨m, hm⟩ :: ms =>
    have := S.weight_le_rank hm
    have hfirst := binaryRun_decode m.shape (olds.headD (S.default m.shape)) input
    cases hf : (S.decode m.shape (olds.headD (S.default m.shape)) input).fault with
    | some f =>
      rw [decodeMembers_cons_fault rfl hf]
      exact .fault hfirst hf
    | none =>
      -- the guard on what the member left always holds, so the run goes on as the reader does
      have hle := (S.decode_rest_suffix m.shape (olds.headD (S.default m.shape)) input).length_le
      rw [decodeMembers_cons_ok rfl hf]
      exact .next hfirst hf (binaryMembersRun_decodeMembers r ms olds.tail _)
termination_by (input.length, S.rank r, ms.length)
decreasing_by
  all_goals
    simp +zetaDelta only [Prod.lex_def, true_and, List.length_cons] at *
    omega

theorem binaryItemsRun_decodeItems {k : CollectionKind} (e : Shape ι) (n : Nat)
    (acc : List Value) (input : List UInt8) :
    S.BinaryItemsRun k e n acc input (S.decodeItems k e n acc input) := by
  match n with
  | 0 =>
    rw [decodeItems.eq_1]
    exact .done
  | n + 1 =>
    have hfirst := binaryRun_decode e (S.default e) input
    cases hf : (S.decode e (S.default e) input).fault with
    | some f =>
      rw [decodeItems_succ_fault rfl hf]
      exact .fault hfirst hf
    | none =>
      have hle := (S.decode_rest_suffix e (S.default e) input).length_le
      rw [decodeItems_succ_ok rfl hf]
      exact .next hfirst hf (binaryItemsRun_decodeItems e n _ _)
termination_by (input.length, S.weight e + 1, n)
decreasing_by
  all_goals
    simp +zetaDelta only [Prod.lex_def, true_and] at *
    omega

end

/-! ### A run ends as the decoder does -/

mutual

theorem BinaryRun.decode_eq : ∀ {s : Shape ι} {old : Value} {input : List UInt8} {o : Decoded},
    S.BinaryRun s old input o → S.decode s old input = o
  | _, _, _, _, .scalar_ok h => by rw [decode.eq_1, h]
  | _, _, _, _, .scalar_fault h => by rw [decode.eq_1, h]
  | _, _, _, _, .record hm => by
    have ih := BinaryMembersRun.decodeMembers_eq hm
    rw [decode.eq_2, ih _ _ (List.attach_map_subtype_val _)]
  | _, _, _, _, .short h => decode_collection_none h
  | _, _, _, _, .collection h hi => by
    have ih := BinaryItemsRun.decodeItems_eq hi
    rw [decode_collection_some h, ih]

theorem BinaryMembersRun.decodeMembers_eq : ∀ {ms' : List (Member ι)} {olds : List Value}
    {input : List UInt8} {o : DecodedList}, S.BinaryMembersRun ms' olds input o →
    ∀ (r : ι) (ms : List {m // m ∈ (S.descriptor r).members}), ms.map Subtype.val = ms' →
      S.decodeMembers r ms olds input = o
  | _, _, _, _, .nil, _, _, hms => by rw [List.map_eq_nil_iff.1 hms, decodeMembers.eq_1]
  | _, _, _, _, .fault hrun hf, _, _, hms => by
    have ih := BinaryRun.decode_eq hrun
    obtain ⟨⟨m, hm⟩, ms, rfl, rfl, -⟩ := List.map_eq_cons_iff.1 hms
    exact decodeMembers_cons_fault ih hf
  | _, _, _, _, .next hrun hf hrest, _, _, hms => by
    have ih := BinaryRun.decode_eq hrun
    have ihrest := BinaryMembersRun.decodeMembers_eq hrest
    obtain ⟨⟨m, hm⟩, ms, rfl, rfl, htail⟩ := List.map_eq_cons_iff.1 hms
    rw [decodeMembers_cons_ok ih hf, ihrest _ ms htail]

theorem BinaryItemsRun.decodeItems_eq : ∀ {k : CollectionKind} {e : Shape ι} {n : Nat}
    {acc : List Value} {input : List UInt8} {o : DecodedList},
    S.BinaryItemsRun k e n acc input o → S.decodeItems k e n acc input = o
  | _, _, _, _, _, _, .done => by rw [decodeItems.eq_1]
  | _, _, _, _, _, _, .fault hrun hf => decodeItems_succ_fault (BinaryRun.decode_eq hrun) hf
  | _, _, _, _, _, _, .next hrun hf hrest => by
    have ih := BinaryRun.decode_eq hrun
    have ihrest := BinaryItemsRun.decodeItems_eq hrest
    rw [decodeItems_succ_ok ih hf, ihrest]

end

/-- The binary reader finishes on every input, with exactly the decoder's outcome. -/
theorem binaryRun_iff {s : Shape ι} {old : Value} {input : List UInt8} {o : Decoded} :
    S.BinaryRun s old input o ↔ S.decode s old input = o :=
  ⟨BinaryRun.decode_eq S, fun h => h ▸ S.binaryRun_decode s old input⟩

/-! ## Runs of the text reader -/

mutual

/-- A finished run of the text reader of a value of shape `s` into `old` at reader `r`, with its
outcome: a scalar's token or quoted string after blanks; a record's `[`, its members and its
`]`; or a collection's `{` and its elements up to its `}`. -/
inductive TextRun : Shape ι → Value → TextReader → TextRead → Prop
  | scalar_ok {t : ScalarType} {old v : Value} {r : TextReader} :
      (t.readText r.skipBlanks).result = .ok v →
      TextRun (.scalar t) old r ⟨v, (t.readText r.skipBlanks).reader, none⟩
  | scalar_fault {t : ScalarType} {old : Value} {r : TextReader} {pe : ParseError} :
      (t.readText r.skipBlanks).result = .error pe →
      TextRun (.scalar t) old r ⟨old, (t.readText r.skipBlanks).reader, some (.parse pe)⟩
  | record_open_fail {rid : ι} {old : Value} {r : TextReader} {pe : ParseError} :
      (r.skipBlanks.expect '[' .missingOpenToken).result = .error pe →
      TextRun (.record rid) old r
        ⟨old, (r.skipBlanks.expect '[' .missingOpenToken).reader, some (.parse pe)⟩
  | record_fault {rid : ι} {old : Value} {r : TextReader} {o : TextReadList} {f : CodecError} :
      (r.skipBlanks.expect '[' .missingOpenToken).result = .ok () →
      TextMembersRun (S.descriptor rid).members old.fields
        (r.skipBlanks.expect '[' .missingOpenToken).reader o →
      o.fault = some f → TextRun (.record rid) old r ⟨.record o.values, o.reader, some f⟩
  | record_close {rid : ι} {old : Value} {r r3 : TextReader} {o : TextReadList} :
      (r.skipBlanks.expect '[' .missingOpenToken).result = .ok () →
      TextMembersRun (S.descriptor rid).members old.fields
        (r.skipBlanks.expect '[' .missingOpenToken).reader o →
      o.fault = none → o.reader.skipBlanks.eat ']' = (true, r3) →
      TextRun (.record rid) old r ⟨.record o.values, r3, none⟩
  | record_unclosed {rid : ι} {old : Value} {r : TextReader} {o : TextReadList} :
      (r.skipBlanks.expect '[' .missingOpenToken).result = .ok () →
      TextMembersRun (S.descriptor rid).members old.fields
        (r.skipBlanks.expect '[' .missingOpenToken).reader o →
      o.fault = none → (o.reader.skipBlanks.eat ']').1 = false →
      TextRun (.record rid) old r ⟨.record o.values, o.reader.skipBlanks,
        some (.atByte .missingCloseToken o.reader.skipBlanks.pos)⟩
  | collection_open_fail {k : CollectionKind} {e : Shape ι} {old : Value} {r : TextReader}
      {pe : ParseError} :
      (r.skipBlanks.expect '{' .missingOpenToken).result = .error pe →
      TextRun (.collection k e) old r
        ⟨old, (r.skipBlanks.expect '{' .missingOpenToken).reader, some (.parse pe)⟩
  | collection {k : CollectionKind} {e : Shape ι} {old : Value} {r : TextReader}
      {o : TextReadList} :
      (r.skipBlanks.expect '{' .missingOpenToken).result = .ok () →
      TextItemsRun k e [] (r.skipBlanks.expect '{' .missingOpenToken).reader o →
      TextRun (.collection k e) old r ⟨.items o.values, o.reader, o.fault⟩

/-- A finished run of reading the members `ms` in order, each after blanks, `olds` holding their
old values: it stops where the input ends or at the first member that fails. -/
inductive TextMembersRun : List (Member ι) → List Value → TextReader → TextReadList → Prop
  | nil {olds : List Value} {r : TextReader} : TextMembersRun [] olds r ⟨olds, r, none⟩
  | at_end {m : Member ι} {ms : List (Member ι)} {olds : List Value} {r : TextReader} :
      r.skipBlanks.atEnd = true →
      TextMembersRun (m :: ms) olds r
        ⟨olds, r.skipBlanks, some (.atByte .unexpectedEnd r.skipBlanks.pos)⟩
  | fault {m : Member ι} {ms : List (Member ι)} {olds : List Value} {r : TextReader} {o : TextRead}
      {f : CodecError} :
      r.skipBlanks.atEnd = false →
      TextRun m.shape (olds.headD (S.default m.shape)) r.skipBlanks o → o.fault = some f →
      TextMembersRun (m :: ms) olds r ⟨o.value :: olds.tail, o.reader, some f⟩
  | next {m : Member ι} {ms : List (Member ι)} {olds : List Value} {r : TextReader} {o : TextRead}
      {t : TextReadList} :
      r.skipBlanks.atEnd = false →
      TextRun m.shape (olds.headD (S.default m.shape)) r.skipBlanks o → o.fault = none →
      TextMembersRun ms olds.tail o.reader t →
      TextMembersRun (m :: ms) olds r ⟨o.value :: t.values, t.reader, t.fault⟩

/-- A finished run of the element loop of a collection of kind `k`, each element after blanks
and inserted into `acc`: it stops where the input ends, at the closing brace, or at the first
element that fails. -/
inductive TextItemsRun : CollectionKind → Shape ι → List Value → TextReader → TextReadList → Prop
  | at_end {k : CollectionKind} {e : Shape ι} {acc : List Value} {r : TextReader} :
      r.skipBlanks.atEnd = true →
      TextItemsRun k e acc r ⟨acc, r.skipBlanks, some (.atByte .unexpectedEnd r.skipBlanks.pos)⟩
  | close {k : CollectionKind} {e : Shape ι} {acc : List Value} {r r2 : TextReader} :
      r.skipBlanks.atEnd = false → r.skipBlanks.eat '}' = (true, r2) →
      TextItemsRun k e acc r ⟨acc, r2, none⟩
  | fault {k : CollectionKind} {e : Shape ι} {acc : List Value} {r : TextReader} {o : TextRead}
      {f : CodecError} :
      r.skipBlanks.atEnd = false → (r.skipBlanks.eat '}').1 = false →
      TextRun e (S.default e) r.skipBlanks o → o.fault = some f →
      TextItemsRun k e acc r ⟨acc, o.reader, some f⟩
  | next {k : CollectionKind} {e : Shape ι} {acc : List Value} {r : TextReader} {o : TextRead}
      {t : TextReadList} :
      r.skipBlanks.atEnd = false → (r.skipBlanks.eat '}').1 = false →
      TextRun e (S.default e) r.skipBlanks o → o.fault = none →
      TextItemsRun k e (k.insert acc o.value) o.reader t → TextItemsRun k e acc r t

end

/-! ### The decoder runs the text reader -/

mutual

theorem textRun_readText (s : Shape ι) (old : Value) (r : TextReader) :
    S.TextRun s old r (S.readText s old r) := by
  have := r.length_skipBlanks_le
  cases s with
  | scalar t =>
    rw [readText.eq_1]
    split
    · next v h => exact .scalar_ok h
    · next pe h => exact .scalar_fault h
  | record rid =>
    cases hopen : (r.skipBlanks.expect '[' .missingOpenToken).result with
    | error pe =>
      rw [readText_record_open_fail hopen]
      exact .record_open_fail hopen
    | ok u =>
      have := TextReader.length_expect_lt hopen
      have hmembers := textMembersRun_readMembers (S.descriptor rid).members old.fields
        (r.skipBlanks.expect '[' .missingOpenToken).reader
      cases hf : (S.readMembers (S.descriptor rid).members old.fields
          (r.skipBlanks.expect '[' .missingOpenToken).reader).fault with
      | some f =>
        rw [readText_record_members_fault hopen rfl hf]
        exact .record_fault hopen hmembers hf
      | none =>
        rcases hc : (S.readMembers (S.descriptor rid).members old.fields
          (r.skipBlanks.expect '[' .missingOpenToken).reader).reader.skipBlanks.eat ']' with ⟨b, r3⟩
        cases b with
        | true =>
          rw [readText_record_close hopen rfl hf hc]
          exact .record_close hopen hmembers hf hc
        | false =>
          rw [readText_record_unclosed hopen rfl hf (by rw [hc])]
          exact .record_unclosed hopen hmembers hf (by rw [hc])
  | collection k e =>
    cases hopen : (r.skipBlanks.expect '{' .missingOpenToken).result with
    | error pe =>
      rw [readText_collection_open_fail hopen]
      exact .collection_open_fail hopen
    | ok u =>
      have := TextReader.length_expect_lt hopen
      rw [readText_collection_open hopen]
      exact .collection hopen (textItemsRun_readItems e [] _)
termination_by (r.rest.length, 0)
decreasing_by
  all_goals
    simp +zetaDelta only [Prod.lex_def] at *
    omega

theorem textMembersRun_readMembers (ms : List (Member ι)) (olds : List Value) (r : TextReader) :
    S.TextMembersRun ms olds r (S.readMembers ms olds r) := by
  match ms with
  | [] =>
    rw [readMembers.eq_1]
    exact .nil
  | m :: ms =>
    have := r.length_skipBlanks_le
    cases hend : r.skipBlanks.atEnd with
    | true =>
      rw [readMembers_cons_atEnd hend]
      exact .at_end hend
    | false =>
      have hfirst := textRun_readText m.shape (olds.headD (S.default m.shape)) r.skipBlanks
      cases hf : (S.readText m.shape (olds.headD (S.default m.shape)) r.skipBlanks).fault with
      | some f =>
        rw [readMembers_cons_fault hend rfl hf]
        exact .fault hend hfirst hf
      | none =>
        have hle := ((S.readText_suffix m.shape (olds.headD (S.default m.shape))
          r.skipBlanks).trans r.skipBlanks_suffix).length_le
        rw [readMembers_cons_ok hend rfl hf]
        exact .next hend hfirst hf (textMembersRun_readMembers ms olds.tail _)
termination_by (r.rest.length, ms.length + 1)
decreasing_by
  all_goals
    simp +zetaDelta only [Prod.lex_def, List.length_cons] at *
    omega

theorem textItemsRun_readItems {k : CollectionKind} (e : Shape ι) (acc : List Value)
    (r : TextReader) : S.TextItemsRun k e acc r (S.readItems k e acc r) := by
  have := r.length_skipBlanks_le
  cases hend : r.skipBlanks.atEnd with
  | true =>
    rw [readItems_atEnd hend]
    exact .at_end hend
  | false =>
    rcases hc : r.skipBlanks.eat '}' with ⟨b, r2⟩
    cases b with
    | true =>
      rw [readItems_close hend hc]
      exact .close hend hc
    | false =>
      have hopen : (r.skipBlanks.eat '}').1 = false := by rw [hc]
      have hfirst := textRun_readText e (S.default e) r.skipBlanks
      cases hf : (S.readText e (S.default e) r.skipBlanks).fault with
      | some f =>
        rw [readItems_fault hend hopen rfl hf]
        exact .fault hend hopen hfirst hf
      | none =>
        -- the element read consumed a character, so the loop has less input left
        have hlt := S.readText_lt e (S.default e) r.skipBlanks hf
        rw [readItems_ok hend hopen rfl hf]
        exact .next hend hopen hfirst hf (textItemsRun_readItems e _ _)
termination_by (r.rest.length, 1)
decreasing_by
  all_goals
    simp +zetaDelta only [Prod.lex_def] at *
    omega

end

/-! ### A run ends as the decoder does -/

mutual

theorem TextRun.readText_eq : ∀ {s : Shape ι} {old : Value} {r : TextReader} {o : TextRead},
    S.TextRun s old r o → S.readText s old r = o
  | _, _, _, _, .scalar_ok h => by
    rw [readText.eq_1]
    simp only [h]
  | _, _, _, _, .scalar_fault h => by
    rw [readText.eq_1]
    simp only [h]
  | _, _, _, _, .record_open_fail h => readText_record_open_fail h
  | _, _, _, _, .record_fault hopen hm hf => by
    have ih := TextMembersRun.readMembers_eq hm
    exact readText_record_members_fault hopen ih hf
  | _, _, _, _, .record_close hopen hm hf hc => by
    have ih := TextMembersRun.readMembers_eq hm
    exact readText_record_close hopen ih hf hc
  | _, _, _, _, .record_unclosed hopen hm hf hc => by
    have ih := TextMembersRun.readMembers_eq hm
    exact readText_record_unclosed hopen ih hf hc
  | _, _, _, _, .collection_open_fail h => readText_collection_open_fail h
  | _, _, _, _, .collection hopen hi => by
    have ih := TextItemsRun.readItems_eq hi
    rw [readText_collection_open hopen, ih]

theorem TextMembersRun.readMembers_eq : ∀ {ms : List (Member ι)} {olds : List Value}
    {r : TextReader} {o : TextReadList}, S.TextMembersRun ms olds r o → S.readMembers ms olds r = o
  | _, _, _, _, .nil => by rw [readMembers.eq_1]
  | _, _, _, _, .at_end h => readMembers_cons_atEnd h
  | _, _, _, _, .fault hend hrun hf => by
    have ih := TextRun.readText_eq hrun
    exact readMembers_cons_fault hend ih hf
  | _, _, _, _, .next hend hrun hf hrest => by
    have ih := TextRun.readText_eq hrun
    have ihrest := TextMembersRun.readMembers_eq hrest
    rw [readMembers_cons_ok hend ih hf, ihrest]

theorem TextItemsRun.readItems_eq : ∀ {k : CollectionKind} {e : Shape ι} {acc : List Value}
    {r : TextReader} {o : TextReadList}, S.TextItemsRun k e acc r o → S.readItems k e acc r = o
  | _, _, _, _, _, .at_end h => readItems_atEnd h
  | _, _, _, _, _, .close hend hc => readItems_close hend hc
  | _, _, _, _, _, .fault hend hopen hrun hf => by
    have ih := TextRun.readText_eq hrun
    exact readItems_fault hend hopen ih hf
  | _, _, _, _, _, .next hend hopen hrun hf hrest => by
    have ih := TextRun.readText_eq hrun
    have ihrest := TextItemsRun.readItems_eq hrest
    rw [readItems_ok hend hopen ih hf, ihrest]

end

/-- The text reader finishes on every input, with exactly the decoder's outcome. -/
theorem textRun_iff {s : Shape ι} {old : Value} {r : TextReader} {o : TextRead} :
    S.TextRun s old r o ↔ S.readText s old r = o :=
  ⟨TextRun.readText_eq S, fun h => h ▸ S.textRun_readText s old r⟩

end Schema

/-! ## The text reader moves by whole bytes -/

theorem utf8Length_le_of_suffix {q cs : List Char} (h : q <:+ cs) : utf8Length q ≤ utf8Length cs := by
  obtain ⟨t, rfl⟩ := h
  simp only [utf8Length_append]
  omega

/-- A shorter suffix of a text takes fewer bytes: at least the first character dropped. -/
theorem utf8Length_lt_of_suffix {q cs : List Char} (h : q <:+ cs) (hlt : q.length < cs.length) :
    utf8Length q < utf8Length cs := by
  obtain ⟨t, rfl⟩ := h
  obtain ⟨c, t, rfl⟩ := List.exists_cons_of_ne_nil (show t ≠ [] by rintro rfl; simp at hlt)
  have := c.utf8Size_pos
  simp only [utf8Length_append, utf8Length_cons]
  omega

namespace TextReader

theorem total_skip {r : TextReader} {cs : List Char} (h : cs <+: r.rest) :
    (r.skip cs).total = r.total := by
  obtain ⟨t, ht⟩ := h
  simp only [total, skip, ← ht, List.drop_left, utf8Length_append]
  omega

theorem total_skipBlanks (r : TextReader) : r.skipBlanks.total = r.total :=
  total_skip (List.takeWhile_prefix _)

theorem total_eat {r r' : TextReader} {c : Char} {b : Bool} (h : r.eat c = (b, r')) :
    r'.total = r.total := by
  unfold eat at h
  split at h
  · next d t hr =>
    split at h
    · next hdc =>
      cases h
      exact total_skip (by rw [hr, hdc]; exact ⟨t, rfl⟩)
    · cases h
      rfl
  · cases h
    rfl

theorem total_expect (r : TextReader) (c : Char) (kind : ParseKind) :
    (r.expect c kind).reader.total = r.total := by
  unfold expect
  split
  · next d t hr =>
    split
    · next hdc => exact total_skip (by rw [hr, hdc]; exact ⟨t, rfl⟩)
    · rfl
  · rfl

theorem total_expect_skipBlanks (r : TextReader) (c : Char) (kind : ParseKind) :
    (r.skipBlanks.expect c kind).reader.total = r.total :=
  (total_expect _ _ _).trans r.total_skipBlanks

theorem total_parseToken {α : Type} (r : TextReader) (read? : List Char → Option α) :
    (r.parseToken read?).reader.total = r.total := by
  unfold parseToken takeToken
  dsimp only
  split
  · exact total_skip (List.takeWhile_prefix _)
  · split <;> exact total_skip (List.takeWhile_prefix _)

theorem total_readQuoted (r : TextReader) : r.readQuoted.reader.total = r.total := by
  unfold readQuoted
  split
  · next body hr =>
    split
    · next s after hu =>
      -- the position is set back from the end by what is left after the closing quote
      have hsuf : after <:+ r.rest := by
        rw [hr]
        exact (unescape_suffix hu).trans (List.suffix_cons _ _)
      have hle : utf8Length after ≤ r.total := by
        have := utf8Length_le_of_suffix hsuf
        unfold total
        omega
      simp only [total] at hle ⊢
      omega
    · exact total_skip (by rw [hr]; exact ⟨body, rfl⟩)
  · rfl
  · rfl

end TextReader

theorem ScalarType.total_readText (t : ScalarType) (r : TextReader) :
    (t.readText r).reader.total = r.total := by
  unfold ScalarType.readText
  split
  · exact r.total_readQuoted
  · exact r.total_parseToken _

namespace Schema

variable {ι : Type} (S : Schema ι)

open TextReader in
mutual

/-- Along a run every step moves the bytes it consumes to the position. -/
theorem TextRun.total_reader : ∀ {s : Shape ι} {old : Value} {r : TextReader} {o : TextRead},
    S.TextRun s old r o → o.reader.total = r.total
  | _, _, r, _, .scalar_ok _ => (ScalarType.total_readText _ _).trans r.total_skipBlanks
  | _, _, r, _, .scalar_fault _ => (ScalarType.total_readText _ _).trans r.total_skipBlanks
  | _, _, r, _, .record_open_fail _ => total_expect_skipBlanks r _ _
  | _, _, r, _, .record_fault _ hm _ => by
    have ih := TextMembersRun.total_reader hm
    exact ih.trans (total_expect_skipBlanks r _ _)
  | _, _, r, _, .record_close _ hm _ hc => by
    have ih := TextMembersRun.total_reader hm
    exact (total_eat hc).trans ((total_skipBlanks _).trans
      (ih.trans (total_expect_skipBlanks r _ _)))
  | _, _, r, _, .record_unclosed _ hm _ _ => by
    have ih := TextMembersRun.total_reader hm
    exact (total_skipBlanks _).trans (ih.trans (total_expect_skipBlanks r _ _))
  | _, _, r, _, .collection_open_fail _ => total_expect_skipBlanks r _ _
  | _, _, r, _, .collection _ hi => by
    have ih := TextItemsRun.total_reader hi
    exact ih.trans (total_expect_skipBlanks r _ _)

theorem TextMembersRun.total_reader : ∀ {ms : List (Member ι)} {olds : List Value}
    {r : TextReader} {o : TextReadList}, S.TextMembersRun ms olds r o → o.reader.total = r.total
  | _, _, _, _, .nil => rfl
  | _, _, r, _, .at_end _ => r.total_skipBlanks
  | _, _, r, _, .fault _ hrun _ => by
    have ih := TextRun.total_reader hrun
    exact ih.trans r.total_skipBlanks
  | _, _, r, _, .next _ hrun _ hrest => by
    have ih := TextRun.total_reader hrun
    have ihrest := TextMembersRun.total_reader hrest
    exact ihrest.trans (ih.trans r.total_skipBlanks)

theorem TextItemsRun.total_reader : ∀ {k : CollectionKind} {e : Shape ι} {acc : List Value}
    {r : TextReader} {o : TextReadList}, S.TextItemsRun k e acc r o → o.reader.total = r.total
  | _, _, _, r, _, .at_end _ => r.total_skipBlanks
  | _, _, _, r, _, .close _ hc => (total_eat hc).trans r.total_skipBlanks
  | _, _, _, r, _, .fault _ _ hrun _ => by
    have ih := TextRun.total_reader hrun
    exact ih.trans r.total_skipBlanks
  | _, _, _, r, _, .next _ _ hrun _ hrest => by
    have ih := TextRun.total_reader hrun
    have ihrest := TextItemsRun.total_reader hrest
    exact ihrest.trans (ih.trans r.total_skipBlanks)

end

theorem total_readText (s : Shape ι) (old : Value) (r : TextReader) :
    (S.readText s old r).reader.total = r.total :=
  TextRun.total_reader S (S.textRun_readText s old r)

/-- A text value that reads moves the reader on by a byte at least, and by exactly the bytes of
the characters it consumed. -/
theorem pos_lt_readText {s : Shape ι} {old : Value} {r : TextReader}
    (hf : (S.readText s old r).fault = none) : r.pos < (S.readText s old r).reader.pos := by
  have htotal := S.total_readText s old r
  have hlt := utf8Length_lt_of_suffix (S.readText_suffix s old r) (S.readText_lt s old r hf)
  unfold TextReader.total at htotal
  omega

/-! ## The binary reader nests by consuming -/

/-- `Enters (s, input) (s', mid)`: reading a value of shape `s` from `input` reads, directly
inside it, a value of shape `s'` from `mid`: a member of a record once the members before it
are read, or an element of a collection once its count and the elements before it are read. -/
inductive Enters : Shape ι × List UInt8 → Shape ι × List UInt8 → Prop
  | member {r : ι} {pre post : List (Member ι)} {m : Member ι} {olds vs : List Value}
      {input mid : List UInt8} :
      (S.descriptor r).members = pre ++ m :: post → S.ReadsMembers pre olds input vs mid →
      Enters (.record r, input) (m.shape, mid)
  | element {k : CollectionKind} {e : Shape ι} {input body mid : List UInt8} {n : Nat}
      {xs : List Value} :
      readCount input = some (n, body) → S.ReadsItems e xs body mid → xs.length < n →
      Enters (.collection k e, input) (e, mid)

variable {S}

theorem ReadsMembers.suffix {ms : List (Member ι)} {olds vs : List Value} {input rest : List UInt8}
    (h : S.ReadsMembers ms olds input vs rest) : rest <:+ input := by
  induction h with
  | nil => exact List.suffix_refl _
  | @cons m _ olds input _ _ _ _ hdec _ ih =>
    have hmid := S.decode_rest_suffix m.shape (olds.headD (S.default m.shape)) input
    rw [hdec] at hmid
    exact ih.trans hmid

theorem ReadsItems.suffix {e : Shape ι} {xs : List Value} {input rest : List UInt8}
    (h : S.ReadsItems e xs input rest) : rest <:+ input := by
  induction h with
  | nil => exact List.suffix_refl _
  | @cons _ _ input _ _ hdec _ ih =>
    have hmid := S.decode_rest_suffix e (S.default e) input
    rw [hdec] at hmid
    exact ih.trans hmid

theorem Enters.suffix {x y : Shape ι × List UInt8} (h : S.Enters x y) : y.2 <:+ x.2 := by
  cases h with
  | member _ hreads => exact hreads.suffix
  | element hc hreads _ => exact hreads.suffix.trans (readCount_suffix hc)

theorem Enters.of_collection {k : CollectionKind} {e s : Shape ι} {input mid : List UInt8}
    (h : S.Enters (.collection k e, input) (s, mid)) : s = e ∧ mid.length + 4 ≤ input.length := by
  cases h with
  | element hc hreads _ =>
    have hbody := Protocol.readCount_length hc
    have hmid := hreads.suffix.length_le
    exact ⟨rfl, by omega⟩

theorem Enters.not_of_scalar {t : ScalarType} {input : List UInt8} {y : Shape ι × List UInt8} :
    ¬ S.Enters (.scalar t, input) y := by
  rintro ⟨⟩

/-- A value is read inside another only nearer the input's end, or as a member of a record,
which ranks below it. -/
theorem Enters.lex_lt {x y : Shape ι × List UInt8} (h : S.Enters x y) :
    Prod.Lex (· < ·) (· < ·) (y.2.length, S.weight y.1) (x.2.length, S.weight x.1) := by
  have hle := h.suffix.length_le
  cases h with
  | @member r pre post m _ _ _ _ hmem _ =>
    -- the member may take no bytes before it, but it weighs less than its record
    have hw : S.weight m.shape ≤ S.rank r := S.weight_le_rank (by simp [hmem])
    rcases Nat.lt_or_eq_of_le hle with hlt | heq
    · exact .left _ _ hlt
    · rw [heq]
      exact .right _ (Nat.lt_succ_of_le hw)
  | element hc hreads _ =>
    -- an element starts after the count
    have hbody := Protocol.readCount_length hc
    have hmid := hreads.suffix.length_le
    exact .left _ _ (by simp only; omega)

variable (S) in
/-- No value is read inside another forever: every nesting of reads is finite. -/
theorem wellFounded_enters : WellFounded (Function.swap S.Enters) :=
  Subrelation.wf (fun h => Enters.lex_lt h)
    (InvImage.wf (fun x : Shape ι × List UInt8 => (x.2.length, S.weight x.1)) (wellFounded_lt.prod_lex wellFounded_lt))

/-- A collection's element loop reads whole at most as many elements as its count, and the
collection holds those. -/
theorem decodeItems_reads_le (k : CollectionKind) (e : Shape ι) (n : Nat) (acc : List Value)
    (input : List UInt8) : ∃ xs mid, S.ReadsItems e xs input mid ∧ xs.length ≤ n ∧
      (S.decodeItems k e n acc input).values = xs.foldl k.insert acc := by
  by_cases hf : (S.decodeItems k e n acc input).fault = none
  · obtain ⟨xs, hreads, hlen, hvals⟩ := readsItems_of_decodeItems hf
    exact ⟨xs, _, hreads, hlen.le, hvals⟩
  · obtain ⟨xs, mid, -, hreads, hlt, -, hvals⟩ := exists_reads_of_decodeItems_fault hf
    exact ⟨xs, mid, hreads, hlt.le, hvals⟩

/-! ### Topics -/

theorem decodeBinary_string_length {input rest : List UInt8} {v : Value}
    (h : ScalarType.string.decodeBinary input = .ok (v, rest)) : rest.length + 4 ≤ input.length := by
  simp only [ScalarType.decodeBinary, bind, Except.bind, throw, throwThe, MonadExceptOf.throw,
    pure, Except.pure] at h
  split_ifs at h with h4
  dsimp only at h
  split_ifs at h
  split at h
  · cases h
    simp only [List.length_drop]
    omega
  · cases h

theorem topic_member_shapes : (catalog.descriptor .topic).members.map Member.shape =
    [.scalar .string, .collection .deque (.record .topic)] := rfl

/-- A topic reads its title where it starts and its replies after the title, four bytes on at
least. -/
theorem Enters.of_topic {input mid : List UInt8} {s : Shape RecordName}
    (h : catalog.Enters (.record .topic, input) (s, mid)) :
    (s = .scalar .string ∧ mid = input) ∨
      (s = .collection .deque (.record .topic) ∧ mid.length + 4 ≤ input.length) := by
  cases h with
  | @member _ pre post m _ _ _ _ hmem hreads =>
    have hshapes := congrArg (List.map Member.shape) hmem
    rw [topic_member_shapes, List.map_append, List.map_cons] at hshapes
    rcases pre with _ | ⟨a, _ | ⟨b, pre⟩⟩
    · -- the title, read first
      cases hreads
      simp only [List.map_nil, List.nil_append, List.cons.injEq] at hshapes
      exact .inl ⟨hshapes.1.symm, rfl⟩
    · -- the replies, read after the title
      simp only [List.map_cons, List.map_nil, List.cons_append, List.nil_append,
        List.cons.injEq] at hshapes
      obtain ⟨ha, hm, -⟩ := hshapes
      rcases hreads with _ | ⟨hdec, hrest⟩
      cases hrest
      rw [← ha] at hdec
      cases (binaryRun_iff catalog).2 hdec with
      | scalar_ok hstr => exact .inr ⟨hm.symm, decodeBinary_string_length hstr⟩
    · simp at hshapes

/-- Where a read that starts at a topic has got to: its title, its replies four bytes on, or
a nested topic eight bytes on. -/
theorem topic_reaches {input : List UInt8} {y : Shape RecordName × List UInt8}
    (h : Relation.TransGen catalog.Enters (.record .topic, input) y) :
    (y.1 = .scalar .string ∧ y.2.length ≤ input.length) ∨
      (y.1 = .collection .deque (.record .topic) ∧ y.2.length + 4 ≤ input.length) ∨
      (y.1 = .record .topic ∧ y.2.length + 8 ≤ input.length) := by
  induction h with
  | single hstep =>
    rcases Enters.of_topic hstep with ⟨hs, rfl⟩ | ⟨hs, hl⟩
    · exact .inl ⟨hs, le_rfl⟩
    · exact .inr (.inl ⟨hs, hl⟩)
  | @tail x y _ hstep ih =>
    obtain ⟨s, j⟩ := x
    obtain ⟨s', j'⟩ := y
    rcases ih with ⟨rfl, -⟩ | ⟨rfl, hl⟩ | ⟨rfl, hl⟩
    · exact absurd hstep Enters.not_of_scalar
    · -- the replies hold topics, each after their count
      obtain ⟨rfl, hl'⟩ := Enters.of_collection hstep
      exact .inr (.inr ⟨rfl, by simp only at hl hl' ⊢; omega⟩)
    · rcases Enters.of_topic hstep with ⟨rfl, rfl⟩ | ⟨rfl, hl'⟩
      · exact .inl ⟨rfl, by simp only at hl ⊢; omega⟩
      · exact .inr (.inl ⟨rfl, by simp only at hl hl' ⊢; omega⟩)

/-- A topic read inside a topic, at any depth, starts eight bytes further on at least: past
its parent's title length and replies count. -/
theorem topic_enters_topic_after_eight_bytes {input mid : List UInt8}
    (h : Relation.TransGen catalog.Enters (.record .topic, input) (.record .topic, mid)) :
    mid.length + 8 ≤ input.length := by
  rcases topic_reaches h with ⟨hs, -⟩ | ⟨hs, -⟩ | ⟨-, hl⟩
  · cases hs
  · cases hs
  · exact hl

/-- Topics read one inside another are at most an eighth of the input deep. -/
theorem topic_depth_le {input : List UInt8} {mids : List (List UInt8)}
    (h : List.IsChain (fun a b => Relation.TransGen catalog.Enters (.record .topic, a)
      (.record .topic, b)) (input :: mids)) :
    8 * mids.length ≤ input.length := by
  induction mids generalizing input with
  | nil => simp
  | cons mid mids ih =>
    obtain ⟨hstep, hrest⟩ := List.isChain_cons_cons.1 h
    have hdeeper := ih hrest
    have hfirst := topic_enters_topic_after_eight_bytes hstep
    simp only [List.length_cons]
    omega

/-! ## Both decoders finish -/

variable (S) in
/-- Both decoders finish on every input, and they finish by consuming it. Each reader has
exactly one run on every input, ending as the decoder does. In text, the bytes read move to the
reader's position, and a value that reads moves it on by a byte at least, so a collection's
elements, which have no count, end with the input at the latest. In binary, no value is read
inside another forever; a collection's count is one four-byte word, and its loop reads at most
that many elements, which the collection then holds. A topic reads a nested topic only eight
bytes further on, so topics nest at most an eighth of the input deep. -/
theorem decoders_finish :
    (∀ s old input o, S.BinaryRun s old input o ↔ S.decode s old input = o) ∧
    (∀ s old r o, S.TextRun s old r o ↔ S.readText s old r = o) ∧
    (∀ s old r, (S.readText s old r).reader.total = r.total ∧
      ((S.readText s old r).fault = none → r.pos < (S.readText s old r).reader.pos)) ∧
    WellFounded (Function.swap S.Enters) ∧
    (∀ k e old input n body, readCount input = some (n, body) →
      n < 2 ^ 32 ∧ body.length + 4 = input.length ∧
      ∃ xs mid, S.ReadsItems e xs body mid ∧ xs.length ≤ n ∧
        S.decode (.collection k e) old input = ⟨.items (xs.foldl k.insert []),
          (S.decodeItems k e n [] body).rest, (S.decodeItems k e n [] body).fault⟩) ∧
    (∀ input mid, Relation.TransGen catalog.Enters (.record .topic, input) (.record .topic, mid) →
      mid.length + 8 ≤ input.length) ∧
    (∀ input mids, List.IsChain (fun a b => Relation.TransGen catalog.Enters (.record .topic, a)
      (.record .topic, b)) (input :: mids) → 8 * mids.length ≤ input.length) := by
  refine ⟨fun _ _ _ _ => binaryRun_iff S, fun _ _ _ _ => textRun_iff S,
    fun s old r => ⟨S.total_readText s old r, fun hf => S.pos_lt_readText hf⟩, S.wellFounded_enters,
    fun k e old input n body hc => ?_, fun _ _ h => topic_enters_topic_after_eight_bytes h,
    fun _ _ h => topic_depth_le h⟩
  -- the count is one word, and the loop after it reads at most that many elements whole
  obtain ⟨xs, mid, hreads, hlen, hvals⟩ := S.decodeItems_reads_le k e n [] body
  refine ⟨(readCount_eq_some hc).2, Protocol.readCount_length hc, xs, mid, hreads, hlen, ?_⟩
  rw [decode_collection_some hc, hvals]

/-- A topic with an empty title and one reply, an empty topic: the reply is read eight bytes
on, past the title's length word and the replies' count. -/
theorem reply_topic_read_eight_bytes_on :
    Relation.TransGen catalog.Enters
      (.record .topic, [0, 0, 0, 0, 1, 0, 0, 0, 0, 0, 0, 0, 0, 0, 0, 0])
      (.record .topic, [0, 0, 0, 0, 0, 0, 0, 0]) ∧
    ([0, 0, 0, 0, 0, 0, 0, 0] : List UInt8).length + 8 ≤
      ([0, 0, 0, 0, 1, 0, 0, 0, 0, 0, 0, 0, 0, 0, 0, 0] : List UInt8).length := by
  have htitle : catalog.decode (.scalar .string) (.str "")
      [0, 0, 0, 0, 1, 0, 0, 0, 0, 0, 0, 0, 0, 0, 0, 0] =
        ⟨.str "", [1, 0, 0, 0, 0, 0, 0, 0, 0, 0, 0, 0], none⟩ := by
    rw [Schema.decode.eq_1]
    rfl
  have hreplies : catalog.Enters (.record .topic, [0, 0, 0, 0, 1, 0, 0, 0, 0, 0, 0, 0, 0, 0, 0, 0])
      (.collection .deque (.record .topic), [1, 0, 0, 0, 0, 0, 0, 0, 0, 0, 0, 0]) :=
    @Schema.Enters.member _ catalog .topic [⟨"title", .text "headline", .scalar .string, 0⟩] []
      ⟨"replies", .text "nested replies", .collection .deque (.record .topic), 24⟩ [.str ""]
      [.str ""] _ _ rfl (.cons htitle (.nil _ _))
  have hreply : catalog.Enters (.collection .deque (.record .topic),
      [1, 0, 0, 0, 0, 0, 0, 0, 0, 0, 0, 0]) (.record .topic, [0, 0, 0, 0, 0, 0, 0, 0]) :=
    .element (n := 1) (by decide) (.nil _) (by decide)
  have h := Relation.TransGen.tail (.single hreplies) hreply
  exact ⟨h, (Schema.decoders_finish catalog).2.2.2.2.2.1 _ _ h⟩

end Schema

end RecordWire
