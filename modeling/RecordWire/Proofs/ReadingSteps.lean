import RecordWire.Proofs.Delivery
import RecordWire.Proofs.TextTokens
/-!
# The decoders, step by step

Both decoders are written with guards that only serve their termination: a member or an element
that reads without failing is followed by the next only if the read did not give back more input
than it was given. Reading never does (`readText_suffix`, and `Schema.decode_rest_suffix` for
bytes), and a text value that reads consumes at least one character (`readText_lt`), so the
guards always hold. This file restates both decoders by step equations with the guards gone,
one per way a step can go: for bytes `decodeMembers_cons_ok`, `decodeItems_succ_fault`, …; for
text `readMembers_cons_atEnd`, `readItems_close`, `readText_record_unclosed`, …. Later proofs
about reading from arbitrary input cite these and never unfold a decoder.
-/

namespace RecordWire

/-! ## Reader steps consume a prefix -/

namespace TextReader

theorem skip_suffix (r : TextReader) (cs : List Char) : (r.skip cs).rest <:+ r.rest :=
  List.drop_suffix _ _

theorem skipBlanks_suffix (r : TextReader) : r.skipBlanks.rest <:+ r.rest := r.skip_suffix _

theorem eat_suffix {r r' : TextReader} {c : Char} {b : Bool} (h : r.eat c = (b, r')) :
    r'.rest <:+ r.rest := by
  unfold eat at h
  split at h
  · split at h
    · cases h
      exact r.skip_suffix _
    · cases h
      exact List.suffix_refl _
  · cases h
    exact List.suffix_refl _

theorem expect_suffix (r : TextReader) (c : Char) (kind : ParseKind) :
    (r.expect c kind).reader.rest <:+ r.rest := by
  unfold expect
  split
  · split
    · exact r.skip_suffix _
    · exact List.suffix_refl _
  · exact List.suffix_refl _

theorem parseToken_suffix {α : Type} (r : TextReader) (read? : List Char → Option α) :
    (r.parseToken read?).reader.rest <:+ r.rest := by
  unfold parseToken takeToken
  dsimp only
  split
  · exact r.skip_suffix _
  · split <;> exact r.skip_suffix _

/-- A token that reads is not empty, so reading it consumes a character at least. -/
theorem parseToken_lt {α : Type} {r : TextReader} {read? : List Char → Option α} {a : α}
    (h : (r.parseToken read?).result = .ok a) :
    (r.parseToken read?).reader.rest.length < r.rest.length := by
  unfold parseToken takeToken at h ⊢
  dsimp only at h ⊢
  split at h
  · cases h
  · next hne =>
    rw [if_neg hne]
    have hpos : 0 < (r.rest.takeWhile fun c => !endsToken c).length := by
      simpa [List.length_pos_iff] using hne
    have hle := (List.takeWhile_prefix (fun c => !endsToken c) (l := r.rest)).length_le
    split <;> simp only [skip, List.length_drop] <;> omega

theorem unescape_suffix {body s after : List Char} (h : unescape body = some (s, after)) :
    after <:+ body := by
  fun_induction unescape body generalizing s with
  | case1 => cases h
  | case2 rest =>
    cases h
    exact List.suffix_cons _ _
  | case3 c rest c' =>
    rename_i ih
    obtain ⟨⟨s', after'⟩, hrest, heq⟩ := Option.map_eq_some_iff.mp h
    cases heq
    exact (ih hrest).trans ((List.suffix_cons _ _).trans (List.suffix_cons _ _))
  | case4 => cases h
  | case5 c rest _ _ _ ih =>
    obtain ⟨⟨s', after'⟩, hrest, heq⟩ := Option.map_eq_some_iff.mp h
    cases heq
    exact (ih hrest).trans (List.suffix_cons _ _)

theorem readQuoted_suffix (r : TextReader) : r.readQuoted.reader.rest <:+ r.rest := by
  unfold readQuoted
  split
  · next body hr =>
    split
    · next s after hu =>
      rw [hr]
      exact (unescape_suffix hu).trans (List.suffix_cons _ _)
    · exact r.skip_suffix _
  · exact List.suffix_refl _
  · exact List.suffix_refl _

/-- A quoted string that reads consumes its opening quote at least. -/
theorem readQuoted_lt {r : TextReader} {a : String} (h : r.readQuoted.result = .ok a) :
    r.readQuoted.reader.rest.length < r.rest.length := by
  unfold readQuoted at h ⊢
  split at h
  · next body hr =>
    split at h
    · next s after hu =>
      simp only [hr, List.length_cons]
      exact Nat.lt_succ_of_le (unescape_suffix hu).length_le
    · cases h
  · cases h
  · cases h

end TextReader

namespace ScalarType

theorem readText_suffix (t : ScalarType) (r : TextReader) : (t.readText r).reader.rest <:+ r.rest := by
  unfold readText
  split
  · exact r.readQuoted_suffix
  · exact r.parseToken_suffix _

/-- A scalar that reads consumes a character at least. -/
theorem readText_lt {t : ScalarType} {r : TextReader} {v : Value}
    (h : (t.readText r).result = .ok v) : (t.readText r).reader.rest.length < r.rest.length := by
  by_cases ht : t = .string
  · subst ht
    simp only [readText] at h ⊢
    cases hq : r.readQuoted.result with
    | error e => simp [hq, Except.map] at h
    | ok s => exact TextReader.readQuoted_lt hq
  · rw [readText_of_ne_string ht] at h ⊢
    exact TextReader.parseToken_lt h

end ScalarType

namespace Schema

variable {ι : Type} (S : Schema ι)

/-! ## Binary steps -/

section BinarySteps

variable {S} {r : ι} {m : Member ι} {hm : m ∈ (S.descriptor r).members}
  {ms : List {m // m ∈ (S.descriptor r).members}} {olds : List Value} {input : List UInt8}
  {o : Decoded}

theorem decodeMembers_cons_fault {f : CodecError}
    (ho : S.decode m.shape (olds.headD (S.default m.shape)) input = o) (hf : o.fault = some f) :
    S.decodeMembers r (⟨m, hm⟩ :: ms) olds input = ⟨o.value :: olds.tail, o.rest, some f⟩ := by
  subst ho
  rw [decodeMembers.eq_2]
  simp only [hf]

theorem decodeMembers_cons_ok
    (ho : S.decode m.shape (olds.headD (S.default m.shape)) input = o) (hf : o.fault = none) :
    S.decodeMembers r (⟨m, hm⟩ :: ms) olds input =
      ⟨o.value :: (S.decodeMembers r ms olds.tail o.rest).values,
        (S.decodeMembers r ms olds.tail o.rest).rest,
        (S.decodeMembers r ms olds.tail o.rest).fault⟩ := by
  have hle := (S.decode_rest_suffix m.shape (olds.headD (S.default m.shape)) input).length_le
  subst ho
  rw [decodeMembers.eq_2]
  simp only [hf, dif_pos hle]

variable {k : CollectionKind} {e : Shape ι} {n : Nat} {acc : List Value}

theorem decodeItems_succ_fault {f : CodecError} (ho : S.decode e (S.default e) input = o)
    (hf : o.fault = some f) : S.decodeItems k e (n + 1) acc input = ⟨acc, o.rest, some f⟩ := by
  subst ho
  rw [decodeItems.eq_2]
  simp only [hf]

theorem decodeItems_succ_ok (ho : S.decode e (S.default e) input = o) (hf : o.fault = none) :
    S.decodeItems k e (n + 1) acc input = S.decodeItems k e n (k.insert acc o.value) o.rest := by
  have hle := (S.decode_rest_suffix e (S.default e) input).length_le
  subst ho
  rw [decodeItems.eq_2]
  simp only [hf, dif_pos hle]

variable {old : Value}

theorem decode_collection_none (h : readCount input = none) :
    S.decode (.collection k e) old input =
      ⟨old, input, some (.stream (.underflow 4 input.length))⟩ := by
  rw [decode.eq_3]
  split
  · rfl
  · next h' => rw [h] at h'; cases h'

theorem decode_collection_some {rest : List UInt8} (h : readCount input = some (n, rest)) :
    S.decode (.collection k e) old input =
      ⟨.items (S.decodeItems k e n [] rest).values, (S.decodeItems k e n [] rest).rest,
        (S.decodeItems k e n [] rest).fault⟩ := by
  rw [decode.eq_3]
  split
  · next h' => rw [h] at h'; cases h'
  · next n' rest' h' =>
    rw [h] at h'
    cases h'
    rfl

end BinarySteps

/-! ## Text reading consumes a prefix -/

mutual

/-- Reading text, whether it succeeds or fails, leaves a suffix of what it was given. -/
theorem readText_suffix (s : Shape ι) (old : Value) (r : TextReader) :
    (S.readText s old r).reader.rest <:+ r.rest := by
  match s with
  | .scalar t =>
    rw [readText.eq_1]
    have h := (t.readText_suffix r.skipBlanks).trans r.skipBlanks_suffix
    split <;> exact h
  | .record rid =>
    rw [readText.eq_2]
    have hopen := (r.skipBlanks.expect_suffix '[' .missingOpenToken).trans r.skipBlanks_suffix
    split
    · exact hopen
    · next h =>
      have := TextReader.length_expect_lt h
      have := r.length_skipBlanks_le
      have hmem := (readMembers_suffix (S.descriptor rid).members old.fields _).trans hopen
      dsimp only
      split
      · exact hmem
      · split
        · next r3 heat =>
          exact (TextReader.eat_suffix heat).trans ((TextReader.skipBlanks_suffix _).trans hmem)
        · exact (TextReader.skipBlanks_suffix _).trans hmem
  | .collection k e =>
    rw [readText.eq_3]
    have hopen := (r.skipBlanks.expect_suffix '{' .missingOpenToken).trans r.skipBlanks_suffix
    split
    · exact hopen
    · next h =>
      have := TextReader.length_expect_lt h
      have := r.length_skipBlanks_le
      exact (readItems_suffix k e [] _).trans hopen
termination_by (r.rest.length, 0)
decreasing_by
  all_goals
    simp +zetaDelta only [Prod.lex_def] at *
    omega

theorem readMembers_suffix (ms : List (Member ι)) (olds : List Value) (r : TextReader) :
    (S.readMembers ms olds r).reader.rest <:+ r.rest := by
  match ms with
  | [] => rw [readMembers.eq_1]
  | m :: ms =>
    rw [readMembers.eq_2]
    have := r.length_skipBlanks_le
    split
    · exact r.skipBlanks_suffix
    · have hfirst := (readText_suffix m.shape (olds.headD (S.default m.shape)) r.skipBlanks).trans
        r.skipBlanks_suffix
      dsimp only
      split
      · exact hfirst
      · split
        · exact (readMembers_suffix ms olds.tail _).trans hfirst
        · exact hfirst
termination_by (r.rest.length, ms.length + 1)
decreasing_by
  all_goals
    simp +zetaDelta only [Prod.lex_def, List.length_cons] at *
    omega

theorem readItems_suffix (k : CollectionKind) (e : Shape ι) (acc : List Value) (r : TextReader) :
    (S.readItems k e acc r).reader.rest <:+ r.rest := by
  rw [readItems.eq_1]
  have := r.length_skipBlanks_le
  split
  · exact r.skipBlanks_suffix
  · split
    · next r2 heat => exact (TextReader.eat_suffix heat).trans r.skipBlanks_suffix
    · have hfirst := (readText_suffix e (S.default e) r.skipBlanks).trans r.skipBlanks_suffix
      dsimp only
      split
      · exact hfirst
      · split
        · exact (readItems_suffix k e _ _).trans hfirst
        · exact hfirst
termination_by (r.rest.length, 1)
decreasing_by
  all_goals
    simp +zetaDelta only [Prod.lex_def] at *
    omega

end

/-! ## Text steps -/

section TextSteps

variable {S} {r : TextReader} {d : Value}

section Record

variable {rid : ι} {o : TextReadList}

theorem readText_record_open_fail {e : ParseError}
    (h : (r.skipBlanks.expect '[' .missingOpenToken).result = .error e) :
    S.readText (.record rid) d r =
      ⟨d, (r.skipBlanks.expect '[' .missingOpenToken).reader, some (.parse e)⟩ := by
  rw [readText.eq_2]
  split
  · next e' h' =>
    rw [h] at h'
    cases h'
    rfl
  · next h' => rw [h] at h'; cases h'

theorem readText_record_members_fault {f : CodecError}
    (hopen : (r.skipBlanks.expect '[' .missingOpenToken).result = .ok ())
    (ho : S.readMembers (S.descriptor rid).members d.fields
      (r.skipBlanks.expect '[' .missingOpenToken).reader = o) (hf : o.fault = some f) :
    S.readText (.record rid) d r = ⟨.record o.values, o.reader, some f⟩ := by
  rw [readText.eq_2]
  split
  · next e' h' => rw [hopen] at h'; cases h'
  · dsimp only
    rw [ho, hf]

theorem readText_record_close {r3 : TextReader}
    (hopen : (r.skipBlanks.expect '[' .missingOpenToken).result = .ok ())
    (ho : S.readMembers (S.descriptor rid).members d.fields
      (r.skipBlanks.expect '[' .missingOpenToken).reader = o) (hf : o.fault = none)
    (hc : o.reader.skipBlanks.eat ']' = (true, r3)) :
    S.readText (.record rid) d r = ⟨.record o.values, r3, none⟩ := by
  rw [readText.eq_2]
  split
  · next e' h' => rw [hopen] at h'; cases h'
  · dsimp only
    rw [ho, hf]
    dsimp only
    rw [hc]

theorem readText_record_unclosed
    (hopen : (r.skipBlanks.expect '[' .missingOpenToken).result = .ok ())
    (ho : S.readMembers (S.descriptor rid).members d.fields
      (r.skipBlanks.expect '[' .missingOpenToken).reader = o) (hf : o.fault = none)
    (hc : (o.reader.skipBlanks.eat ']').1 = false) :
    S.readText (.record rid) d r =
      ⟨.record o.values, o.reader.skipBlanks,
        some (.atByte .missingCloseToken o.reader.skipBlanks.pos)⟩ := by
  rw [readText.eq_2]
  split
  · next e' h' => rw [hopen] at h'; cases h'
  · dsimp only
    rw [ho, hf]
    dsimp only
    rcases hpair : o.reader.skipBlanks.eat ']' with ⟨b, r3⟩
    rw [hpair] at hc
    obtain rfl : b = false := hc
    rfl

end Record

section Collection

variable {k : CollectionKind} {e : Shape ι}

theorem readText_collection_open_fail {pe : ParseError}
    (h : (r.skipBlanks.expect '{' .missingOpenToken).result = .error pe) :
    S.readText (.collection k e) d r =
      ⟨d, (r.skipBlanks.expect '{' .missingOpenToken).reader, some (.parse pe)⟩ := by
  rw [readText.eq_3]
  split
  · next e' h' =>
    rw [h] at h'
    cases h'
    rfl
  · next h' => rw [h] at h'; cases h'

theorem readText_collection_open
    (h : (r.skipBlanks.expect '{' .missingOpenToken).result = .ok ()) :
    S.readText (.collection k e) d r =
      ⟨.items (S.readItems k e [] (r.skipBlanks.expect '{' .missingOpenToken).reader).values,
        (S.readItems k e [] (r.skipBlanks.expect '{' .missingOpenToken).reader).reader,
        (S.readItems k e [] (r.skipBlanks.expect '{' .missingOpenToken).reader).fault⟩ := by
  rw [readText.eq_3]
  split
  · next e' h' => rw [h] at h'; cases h'
  · rfl

end Collection

/-- A text value that reads consumes a character at least: its token, its quote or its opening
bracket. -/
theorem readText_lt (s : Shape ι) (old : Value) (r : TextReader)
    (hok : (S.readText s old r).fault = none) :
    (S.readText s old r).reader.rest.length < r.rest.length := by
  have hblanks := r.length_skipBlanks_le
  cases s with
  | scalar t =>
    rw [readText.eq_1] at hok ⊢
    split at hok
    · next v hv => exact Nat.lt_of_lt_of_le (ScalarType.readText_lt hv) hblanks
    · cases hok
  | record rid =>
    cases hopen : (r.skipBlanks.expect '[' .missingOpenToken).result with
    | error pe => simp [readText_record_open_fail hopen] at hok
    | ok u =>
      have hlt := TextReader.length_expect_lt hopen
      have hmem := (S.readMembers_suffix (S.descriptor rid).members old.fields
        (r.skipBlanks.expect '[' .missingOpenToken).reader).length_le
      cases hf : (S.readMembers (S.descriptor rid).members old.fields
          (r.skipBlanks.expect '[' .missingOpenToken).reader).fault with
      | some f => simp [readText_record_members_fault hopen rfl hf] at hok
      | none =>
        rcases hc : (S.readMembers (S.descriptor rid).members old.fields
          (r.skipBlanks.expect '[' .missingOpenToken).reader).reader.skipBlanks.eat ']' with ⟨b, r3⟩
        cases b with
        | true =>
          have h3 := (TextReader.eat_suffix hc).length_le
          have h2 := TextReader.length_skipBlanks_le (S.readMembers (S.descriptor rid).members
            old.fields (r.skipBlanks.expect '[' .missingOpenToken).reader).reader
          rw [readText_record_close hopen rfl hf hc]
          dsimp only
          omega
        | false => simp [readText_record_unclosed hopen rfl hf (by rw [hc])] at hok
  | collection k e =>
    cases hopen : (r.skipBlanks.expect '{' .missingOpenToken).result with
    | error pe => simp [readText_collection_open_fail hopen] at hok
    | ok u =>
      have hlt := TextReader.length_expect_lt hopen
      have hitems := (S.readItems_suffix k e []
        (r.skipBlanks.expect '{' .missingOpenToken).reader).length_le
      rw [readText_collection_open hopen]
      dsimp only
      omega

variable {m : Member ι} {ms : List (Member ι)} {olds : List Value} {o : TextRead}

theorem readMembers_cons_atEnd (h : r.skipBlanks.atEnd = true) :
    S.readMembers (m :: ms) olds r =
      ⟨olds, r.skipBlanks, some (.atByte .unexpectedEnd r.skipBlanks.pos)⟩ := by
  rw [readMembers.eq_2, if_pos h]

theorem readMembers_cons_fault {f : CodecError} (hend : r.skipBlanks.atEnd = false)
    (ho : S.readText m.shape (olds.headD (S.default m.shape)) r.skipBlanks = o)
    (hf : o.fault = some f) :
    S.readMembers (m :: ms) olds r = ⟨o.value :: olds.tail, o.reader, some f⟩ := by
  subst ho
  rw [readMembers.eq_2, if_neg (by simp [hend])]
  simp only [hf]

theorem readMembers_cons_ok (hend : r.skipBlanks.atEnd = false)
    (ho : S.readText m.shape (olds.headD (S.default m.shape)) r.skipBlanks = o)
    (hf : o.fault = none) :
    S.readMembers (m :: ms) olds r =
      ⟨o.value :: (S.readMembers ms olds.tail o.reader).values,
        (S.readMembers ms olds.tail o.reader).reader,
        (S.readMembers ms olds.tail o.reader).fault⟩ := by
  have hle := ((S.readText_suffix m.shape (olds.headD (S.default m.shape)) r.skipBlanks).trans
    r.skipBlanks_suffix).length_le
  subst ho
  rw [readMembers.eq_2, if_neg (by simp [hend])]
  simp only [hf, dif_pos hle]

variable {k : CollectionKind} {e : Shape ι} {acc : List Value}

theorem readItems_atEnd (h : r.skipBlanks.atEnd = true) :
    S.readItems k e acc r = ⟨acc, r.skipBlanks, some (.atByte .unexpectedEnd r.skipBlanks.pos)⟩ := by
  rw [readItems.eq_1, if_pos h]

theorem readItems_close {r2 : TextReader} (hend : r.skipBlanks.atEnd = false)
    (h : r.skipBlanks.eat '}' = (true, r2)) : S.readItems k e acc r = ⟨acc, r2, none⟩ := by
  rw [readItems.eq_1, if_neg (by simp [hend])]
  simp only [h]

theorem readItems_fault {f : CodecError} (hend : r.skipBlanks.atEnd = false)
    (hopen : (r.skipBlanks.eat '}').1 = false) (ho : S.readText e (S.default e) r.skipBlanks = o)
    (hf : o.fault = some f) : S.readItems k e acc r = ⟨acc, o.reader, some f⟩ := by
  subst ho
  rw [readItems.eq_1, if_neg (by simp [hend])]
  rcases hpair : r.skipBlanks.eat '}' with ⟨b, r2⟩
  rw [hpair] at hopen
  obtain rfl : b = false := hopen
  simp only [hf]

theorem readItems_ok (hend : r.skipBlanks.atEnd = false) (hopen : (r.skipBlanks.eat '}').1 = false)
    (ho : S.readText e (S.default e) r.skipBlanks = o) (hf : o.fault = none) :
    S.readItems k e acc r = S.readItems k e (k.insert acc o.value) o.reader := by
  have hlt := Nat.lt_of_lt_of_le (S.readText_lt e (S.default e) r.skipBlanks (ho ▸ hf))
    r.length_skipBlanks_le
  subst ho
  rw [readItems.eq_1, if_neg (by simp [hend])]
  rcases hpair : r.skipBlanks.eat '}' with ⟨b, r2⟩
  rw [hpair] at hopen
  obtain rfl : b = false := hopen
  simp only [hf, dif_pos hlt]

end TextSteps

end Schema

end RecordWire
