import Mathlib
import RecordWire.Proofs.TextGrammar
import RecordWire.Proofs.TextRoundTrip
import RecordWire.Proofs.ReadingSteps
/-!
# Blanks between tokens

The writer puts one space after every token of the text form. The reader skips blanks before
every token, and a bare token ends at the first blank, so each of those spaces may be any
nonempty run of blanks, and any blanks may come before the first token: the text reads the same.

A spacing of a token list (`TextToken.Spaced`) writes each token followed by its own nonempty
run of blanks; the text form is the spacing with one space in every run. Two spacings of a
value's tokens, read from any positions and followed by anything, read alike
(`readText_spaced`): the same value, success or failure together, and each success stops at
the run after the last token. So a respaced text is read by `fromText` to the value the text
form reads to (`respaced_text_reads_alike`).
-/

namespace RecordWire

namespace TextToken

/-- `cs` writes the tokens `ts` one after another, each followed by its own nonempty run of
blanks. -/
inductive Spaced : List TextToken → List Char → Prop
  | nil : Spaced [] []
  | cons {t : TextToken} {ts : List TextToken} {w cs : List Char} :
      w ≠ [] → allBlank w = true → Spaced ts cs → Spaced (t :: ts) (t.chars ++ w ++ cs)

/-- The text form is the spacing with one space after every token. -/
theorem spaced_render (ts : List TextToken) : Spaced ts (render ts) := by
  induction ts with
  | nil => exact .nil
  | cons t ts ih =>
    have h := Spaced.cons (t := t) (w := [' ']) (List.cons_ne_nil _ _) (by decide) ih
    simpa using h

theorem Spaced.split {ts us : List TextToken} {cs : List Char} (h : Spaced (ts ++ us) cs) :
    ∃ cs₁ cs₂, cs = cs₁ ++ cs₂ ∧ Spaced ts cs₁ ∧ Spaced us cs₂ := by
  induction ts generalizing cs with
  | nil => exact ⟨[], cs, rfl, .nil, h⟩
  | cons t ts ih =>
    cases h with
    | cons hw hb h =>
      obtain ⟨cs₁, cs₂, rfl, h₁, h₂⟩ := ih h
      exact ⟨_, cs₂, by simp, .cons hw hb h₁, h₂⟩

end TextToken

namespace TextReader

theorem skipBlanks_blank_append (pos : Nat) {lead : List Char} (hlead : allBlank lead = true)
    {c : Char} (cs : List Char) (hc : isBlank c = false) :
    skipBlanks ⟨pos, lead ++ c :: cs⟩ = ⟨pos + utf8Length lead, c :: cs⟩ := by
  have hall : ∀ d ∈ lead, isBlank d = true := by simpa [allBlank] using hlead
  rw [skipBlanks_eq]
  simp only [List.takeWhile_append_of_pos hall, List.dropWhile_append_of_pos hall,
    List.takeWhile_cons, List.dropWhile_cons, hc, Bool.false_eq_true, if_false,
    List.append_nil]

theorem skipBlanks_blank_startsValue (pos : Nat) {lead : List Char} (hlead : allBlank lead = true)
    {cs : List Char} (h : StartsValue cs) : skipBlanks ⟨pos, lead ++ cs⟩ = ⟨pos + utf8Length lead, cs⟩ := by
  obtain ⟨c, rest, rfl, hc⟩ := h
  exact skipBlanks_blank_append pos hlead rest (isBlank_of_endsToken hc)

theorem expect_blank_append (pos : Nat) {lead : List Char} (hlead : allBlank lead = true)
    {c : Char} (cs : List Char) (kind : ParseKind) (hc : isBlank c = false) :
    (skipBlanks ⟨pos, lead ++ c :: cs⟩).expect c kind =
      ⟨.ok (), ⟨pos + utf8Length lead + c.utf8Size, cs⟩⟩ := by
  rw [skipBlanks_blank_append pos hlead cs hc, expect_cons]

theorem eat_blank_append (pos : Nat) {lead : List Char} (hlead : allBlank lead = true)
    {c : Char} (cs : List Char) (hc : isBlank c = false) :
    (skipBlanks ⟨pos, lead ++ c :: cs⟩).eat c = (true, ⟨pos + utf8Length lead + c.utf8Size, cs⟩) := by
  rw [skipBlanks_blank_append pos hlead cs hc, eat_cons]

theorem atEnd_skipBlanks_blank_startsValue (pos : Nat) {lead : List Char}
    (hlead : allBlank lead = true) {cs : List Char} (h : StartsValue cs) :
    (skipBlanks ⟨pos, lead ++ cs⟩).atEnd = false := by
  rw [skipBlanks_blank_startsValue pos hlead h]
  obtain ⟨c, rest, rfl, -⟩ := h
  rfl

/-- After blanks a value starts, so a character that ends a token is not eaten there. -/
theorem eat_skipBlanks_blank_startsValue (pos : Nat) {lead : List Char}
    (hlead : allBlank lead = true) {cs : List Char} (h : StartsValue cs) {c : Char}
    (hc : endsToken c = true) : ((skipBlanks ⟨pos, lead ++ cs⟩).eat c).1 = false := by
  rw [skipBlanks_blank_startsValue pos hlead h]
  obtain ⟨d, rest, rfl, hd⟩ := h
  have hne : d ≠ c := by
    rintro rfl
    rw [hd] at hc
    cases hc
  rw [eat_of_ne hne]

theorem skipBlanks_allBlank (pos : Nat) {w : List Char} (hw : allBlank w = true) :
    skipBlanks ⟨pos, w⟩ = ⟨pos + utf8Length w, []⟩ := by
  have hall : ∀ d ∈ w, isBlank d = true := by simpa [allBlank] using hw
  simp [skipBlanks_eq, List.takeWhile_eq_self_iff.mpr hall, List.dropWhile_eq_nil_iff.mpr hall]

theorem atEnd_skipBlanks_of_allBlank (pos : Nat) {w : List Char} (hw : allBlank w = true) :
    (skipBlanks ⟨pos, w⟩).atEnd = true := by
  rw [skipBlanks_allBlank pos hw]
  rfl

theorem eq_of_rest {r : TextReader} {cs : List Char} (h : r.rest = cs) : r = ⟨r.pos, cs⟩ := by
  cases r
  cases h
  rfl

/-- A bare token is read wherever it stands and whatever follows the character that ends it:
its value if `read?` takes it, and otherwise an invalid token where it starts. -/
theorem parseToken_append_ends {α : Type} {read? : List Char → Option α} {pos : Nat}
    {tok rest : List Char} {c : Char} (htok : ∀ d ∈ tok, endsToken d = false)
    (hne : tok ≠ []) (hc : endsToken c = true) :
    parseToken ⟨pos, tok ++ c :: rest⟩ read? =
      ⟨(read? tok).elim (.error ⟨.invalidToken, pos⟩) .ok, ⟨pos + utf8Length tok, c :: rest⟩⟩ := by
  cases hread : read? tok with
  | some a => exact parseToken_append htok hne hc hread
  | none =>
    simp [parseToken, takeToken_append htok hc, hne, hread]
    rfl

end TextReader

namespace ScalarType

theorem textChars_token {t : ScalarType} {v : Value} (h : t.admits v = true) (hs : t ≠ .string) :
    t.textChars v ≠ [] ∧ ∀ c ∈ t.textChars v, TextReader.endsToken c = false := by
  cases v with
  | int n => exact intToken n
  | float bits => exact FloatFormat.display_token _ bits
  | bool b => cases b <;> exact word_token (by simp)
  | str _ => exact absurd (by simpa [admits] using h) hs
  | record _ | items _ => simp [admits] at h

/-- A scalar's token reads the same wherever it stands and whatever blanks follow it: one
outcome, found or refused where the token starts, and the reader stops right after the token. -/
theorem readText_token {t : ScalarType} {v : Value} (h : t.admits v = true) :
    ∃ res : Option Value, ∀ (pos : Nat) (w tail : List Char), w ≠ [] → allBlank w = true →
      t.readText ⟨pos, t.textChars v ++ (w ++ tail)⟩ =
        ⟨res.elim (.error ⟨.invalidToken, pos⟩) .ok,
          ⟨pos + utf8Length (t.textChars v), w ++ tail⟩⟩ := by
  by_cases hs : t = .string
  · subst hs
    obtain ⟨str, rfl⟩ : ∃ str, v = .str str := by
      cases v <;> simp_all [admits, intBits?, floatFormat?]
    refine ⟨some (.str str), fun pos w tail _ _ => ?_⟩
    simp only [readText, textChars, TextReader.readQuoted_quoteChars,
      String.ofList_toList]
    rfl
  · refine ⟨t.readToken? (t.textChars v), fun pos w tail hw hb => ?_⟩
    obtain ⟨c, w', rfl⟩ := List.exists_cons_of_ne_nil hw
    have hc : TextReader.endsToken c = true := by
      have hblank : isBlank c = true := by simpa [allBlank] using (List.all_eq_true.mp hb) c
      simp [TextReader.endsToken, hblank]
    rw [readText_of_ne_string hs, List.cons_append]
    exact TextReader.parseToken_append_ends (textChars_token h hs).2 (textChars_token h hs).1 hc

end ScalarType

namespace Schema

variable {ι : Type} {S : Schema ι}

/-! ## Reading two spacings alike -/

/-- A spacing of a value's tokens starts with a character that ends no token. -/
theorem startsValue_of_spaced {s : Shape ι} {v : Value} (hv : S.Typed s v) {cs : List Char}
    (h : TextToken.Spaced (S.tokens s v) cs) : StartsValue cs := by
  cases hv with
  | @scalar t v ht =>
    rw [tokens] at h
    cases h with
    | cons _ _ _ =>
      rw [TextToken.chars_scalar ht, List.append_assoc]
      exact (ScalarType.textChars_startsValue ht).append _
  | record =>
    rw [tokens_record] at h
    cases h with
    | cons _ _ _ => exact ⟨'[', _, rfl, by decide⟩
  | collection =>
    rw [tokens_collection] at h
    cases h with
    | cons _ _ _ => exact ⟨'{', _, rfl, by decide⟩

/-- Two text reads that agree: the same value, success or failure together, and each success
stopping at a run of blanks before its own tail. -/
structure ReadsAlike {α : Type} (tail₁ tail₂ : List Char) (a₁ a₂ : α) (r₁ r₂ : TextReader)
    (f₁ f₂ : Option CodecError) : Prop where
  same_value : a₁ = a₂
  same_outcome : f₁ = none ↔ f₂ = none
  stops₁ : f₁ = none → ∃ w, allBlank w = true ∧ r₁.rest = w ++ tail₁
  stops₂ : f₂ = none → ∃ w, allBlank w = true ∧ r₂.rest = w ++ tail₂

variable (S) in
/-- `v` reads alike from any two spacings of its tokens, after any blanks, from any positions
and followed by anything. -/
def ReadsAlikeSpaced (s : Shape ι) (v : Value) : Prop :=
  ∀ (old : Value) (pos₁ pos₂ : Nat) (lead₁ lead₂ cs₁ cs₂ tail₁ tail₂ : List Char),
    allBlank lead₁ = true → allBlank lead₂ = true →
    TextToken.Spaced (S.tokens s v) cs₁ → TextToken.Spaced (S.tokens s v) cs₂ →
    ReadsAlike tail₁ tail₂ (S.readText s old ⟨pos₁, lead₁ ++ cs₁ ++ tail₁⟩).value
      (S.readText s old ⟨pos₂, lead₂ ++ cs₂ ++ tail₂⟩).value
      (S.readText s old ⟨pos₁, lead₁ ++ cs₁ ++ tail₁⟩).reader
      (S.readText s old ⟨pos₂, lead₂ ++ cs₂ ++ tail₂⟩).reader
      (S.readText s old ⟨pos₁, lead₁ ++ cs₁ ++ tail₁⟩).fault
      (S.readText s old ⟨pos₂, lead₂ ++ cs₂ ++ tail₂⟩).fault

namespace ReadsAlike

variable {α : Type} {tail₁ tail₂ : List Char} {a₁ a₂ : α} {r₁ r₂ : TextReader}
  {f₁ f₂ : Option CodecError}

theorem ok_or_fault (h : ReadsAlike tail₁ tail₂ a₁ a₂ r₁ r₂ f₁ f₂) :
    (f₁ = none ∧ f₂ = none) ∨ (∃ e₁ e₂, f₁ = some e₁ ∧ f₂ = some e₂) := by
  cases f₁ with
  | none => exact .inl ⟨rfl, h.same_outcome.mp rfl⟩
  | some e₁ =>
    cases hf₂ : f₂ with
    | none => exact absurd (h.same_outcome.mpr hf₂) (by simp)
    | some e₂ => exact .inr ⟨e₁, e₂, rfl, rfl⟩

theorem of_faults {e₁ e₂ : CodecError} (ha : a₁ = a₂) :
    ReadsAlike tail₁ tail₂ a₁ a₂ r₁ r₂ (some e₁) (some e₂) :=
  ⟨ha, by simp, by simp, by simp⟩

end ReadsAlike

/-- Members that each read alike read alike one after another, each after its run of blanks. -/
theorem readMembers_spaced {ms : List (Member ι)} {vs : List Value}
    (hread : List.Forall₂ (fun m v => S.Typed m.shape v ∧ S.ReadsAlikeSpaced m.shape v) ms vs)
    (olds : List Value) (pos₁ pos₂ : Nat) {lead₁ lead₂ cs₁ cs₂ : List Char}
    (hl₁ : allBlank lead₁ = true) (hl₂ : allBlank lead₂ = true)
    (h₁ : TextToken.Spaced ((ms.zip vs).flatMap fun p => S.tokens p.1.shape p.2) cs₁)
    (h₂ : TextToken.Spaced ((ms.zip vs).flatMap fun p => S.tokens p.1.shape p.2) cs₂)
    (tail₁ tail₂ : List Char) :
    ReadsAlike tail₁ tail₂ (S.readMembers ms olds ⟨pos₁, lead₁ ++ cs₁ ++ tail₁⟩).values
      (S.readMembers ms olds ⟨pos₂, lead₂ ++ cs₂ ++ tail₂⟩).values
      (S.readMembers ms olds ⟨pos₁, lead₁ ++ cs₁ ++ tail₁⟩).reader
      (S.readMembers ms olds ⟨pos₂, lead₂ ++ cs₂ ++ tail₂⟩).reader
      (S.readMembers ms olds ⟨pos₁, lead₁ ++ cs₁ ++ tail₁⟩).fault
      (S.readMembers ms olds ⟨pos₂, lead₂ ++ cs₂ ++ tail₂⟩).fault := by
  induction hread generalizing olds pos₁ pos₂ lead₁ lead₂ cs₁ cs₂ with
  | nil =>
    cases h₁
    cases h₂
    simp only [readMembers]
    exact ⟨rfl, Iff.rfl, fun _ => ⟨lead₁, hl₁, by simp⟩, fun _ => ⟨lead₂, hl₂, by simp⟩⟩
  | @cons m v ms vs hmv _ ih =>
    obtain ⟨hv, halike⟩ := hmv
    rw [List.zip_cons_cons, List.flatMap_cons] at h₁ h₂
    obtain ⟨cm₁, cr₁, rfl, hm₁, hr₁⟩ := h₁.split
    obtain ⟨cm₂, cr₂, rfl, hm₂, hr₂⟩ := h₂.split
    -- the blanks before the member are skipped, and the member is read at its first token
    have hskip₁ := TextReader.skipBlanks_blank_startsValue pos₁ hl₁
      ((startsValue_of_spaced hv hm₁).append (cr₁ ++ tail₁))
    have hskip₂ := TextReader.skipBlanks_blank_startsValue pos₂ hl₂
      ((startsValue_of_spaced hv hm₂).append (cr₂ ++ tail₂))
    have hend₁ := TextReader.atEnd_skipBlanks_blank_startsValue pos₁ hl₁
      ((startsValue_of_spaced hv hm₁).append (cr₁ ++ tail₁))
    have hend₂ := TextReader.atEnd_skipBlanks_blank_startsValue pos₂ hl₂
      ((startsValue_of_spaced hv hm₂).append (cr₂ ++ tail₂))
    have hm := halike (olds.headD (S.default m.shape)) (pos₁ + utf8Length lead₁)
      (pos₂ + utf8Length lead₂) [] [] cm₁ cm₂ (cr₁ ++ tail₁) (cr₂ ++ tail₂) rfl rfl hm₁ hm₂
    simp only [List.nil_append] at hm
    have ho₁ := congrArg (S.readText m.shape (olds.headD (S.default m.shape))) hskip₁
    have ho₂ := congrArg (S.readText m.shape (olds.headD (S.default m.shape))) hskip₂
    simp only [List.append_assoc]
    rcases hm.ok_or_fault with ⟨hf₁, hf₂⟩ | ⟨e₁, e₂, hf₁, hf₂⟩
    · -- the member reads from both, and the members after it follow its run of blanks
      rw [readMembers_cons_ok hend₁ ho₁ hf₁, readMembers_cons_ok hend₂ ho₂ hf₂]
      obtain ⟨w₁, hw₁, hrest₁⟩ := hm.stops₁ hf₁
      obtain ⟨w₂, hw₂, hrest₂⟩ := hm.stops₂ hf₂
      rw [TextReader.eq_of_rest hrest₁, TextReader.eq_of_rest hrest₂, ← List.append_assoc w₁,
        ← List.append_assoc w₂]
      have htail := ih olds.tail (S.readText m.shape (olds.headD (S.default m.shape))
        ⟨pos₁ + utf8Length lead₁, cm₁ ++ (cr₁ ++ tail₁)⟩).reader.pos
        (S.readText m.shape (olds.headD (S.default m.shape))
          ⟨pos₂ + utf8Length lead₂, cm₂ ++ (cr₂ ++ tail₂)⟩).reader.pos hw₁ hw₂ hr₁ hr₂
      exact ⟨by rw [hm.same_value, htail.same_value], htail.same_outcome, htail.stops₁,
        htail.stops₂⟩
    · rw [readMembers_cons_fault hend₁ ho₁ hf₁, readMembers_cons_fault hend₂ ho₂ hf₂]
      exact .of_faults (by rw [hm.same_value])

/-- Elements that each read alike read alike one after another, each after its run of blanks,
up to the closing brace. -/
theorem readItems_spaced (k : CollectionKind) {e : Shape ι} {xs : List Value}
    (hread : ∀ x ∈ xs, S.Typed e x ∧ S.ReadsAlikeSpaced e x) (acc : List Value)
    (pos₁ pos₂ : Nat) {lead₁ lead₂ cs₁ cs₂ : List Char}
    (hl₁ : allBlank lead₁ = true) (hl₂ : allBlank lead₂ = true)
    (h₁ : TextToken.Spaced (xs.flatMap (S.tokens e) ++ [.closeCollection]) cs₁)
    (h₂ : TextToken.Spaced (xs.flatMap (S.tokens e) ++ [.closeCollection]) cs₂)
    (tail₁ tail₂ : List Char) :
    ReadsAlike tail₁ tail₂ (S.readItems k e acc ⟨pos₁, lead₁ ++ cs₁ ++ tail₁⟩).values
      (S.readItems k e acc ⟨pos₂, lead₂ ++ cs₂ ++ tail₂⟩).values
      (S.readItems k e acc ⟨pos₁, lead₁ ++ cs₁ ++ tail₁⟩).reader
      (S.readItems k e acc ⟨pos₂, lead₂ ++ cs₂ ++ tail₂⟩).reader
      (S.readItems k e acc ⟨pos₁, lead₁ ++ cs₁ ++ tail₁⟩).fault
      (S.readItems k e acc ⟨pos₂, lead₂ ++ cs₂ ++ tail₂⟩).fault := by
  induction xs generalizing acc pos₁ pos₂ lead₁ lead₂ cs₁ cs₂ with
  | nil =>
    -- only the closing brace is left
    rw [List.flatMap_nil, List.nil_append] at h₁ h₂
    cases h₁ with
    | cons hw₁ hb₁ hn₁ =>
      cases h₂ with
      | cons hw₂ hb₂ hn₂ =>
        cases hn₁
        cases hn₂
        simp only [TextToken.chars, List.append_nil, List.nil_append, List.cons_append,
          List.append_assoc]
        rw [readItems_close (by rw [TextReader.skipBlanks_blank_append pos₁ hl₁ _ (by decide)]; rfl)
            (TextReader.eat_blank_append pos₁ hl₁ _ (by decide)),
          readItems_close (by rw [TextReader.skipBlanks_blank_append pos₂ hl₂ _ (by decide)]; rfl)
            (TextReader.eat_blank_append pos₂ hl₂ _ (by decide))]
        exact ⟨rfl, Iff.rfl, fun _ => ⟨_, hb₁, rfl⟩, fun _ => ⟨_, hb₂, rfl⟩⟩
  | cons x xs ih =>
    obtain ⟨hx, halike⟩ := hread x List.mem_cons_self
    rw [List.flatMap_cons, List.append_assoc] at h₁ h₂
    obtain ⟨cx₁, cr₁, rfl, hx₁, hr₁⟩ := h₁.split
    obtain ⟨cx₂, cr₂, rfl, hx₂, hr₂⟩ := h₂.split
    -- the element starts with no closing brace, so it is read
    have hskip₁ := TextReader.skipBlanks_blank_startsValue pos₁ hl₁
      ((startsValue_of_spaced hx hx₁).append (cr₁ ++ tail₁))
    have hskip₂ := TextReader.skipBlanks_blank_startsValue pos₂ hl₂
      ((startsValue_of_spaced hx hx₂).append (cr₂ ++ tail₂))
    have hend₁ := TextReader.atEnd_skipBlanks_blank_startsValue pos₁ hl₁
      ((startsValue_of_spaced hx hx₁).append (cr₁ ++ tail₁))
    have hend₂ := TextReader.atEnd_skipBlanks_blank_startsValue pos₂ hl₂
      ((startsValue_of_spaced hx hx₂).append (cr₂ ++ tail₂))
    have hopen₁ := TextReader.eat_skipBlanks_blank_startsValue pos₁ hl₁
      ((startsValue_of_spaced hx hx₁).append (cr₁ ++ tail₁)) (c := '}') (by decide)
    have hopen₂ := TextReader.eat_skipBlanks_blank_startsValue pos₂ hl₂
      ((startsValue_of_spaced hx hx₂).append (cr₂ ++ tail₂)) (c := '}') (by decide)
    have hm := halike (S.default e) (pos₁ + utf8Length lead₁) (pos₂ + utf8Length lead₂) [] []
      cx₁ cx₂ (cr₁ ++ tail₁) (cr₂ ++ tail₂) rfl rfl hx₁ hx₂
    simp only [List.nil_append] at hm
    have ho₁ := congrArg (S.readText e (S.default e)) hskip₁
    have ho₂ := congrArg (S.readText e (S.default e)) hskip₂
    simp only [List.append_assoc]
    rcases hm.ok_or_fault with ⟨hf₁, hf₂⟩ | ⟨e₁, e₂, hf₁, hf₂⟩
    · -- the element is inserted in both, and the rest follows its run of blanks
      rw [readItems_ok hend₁ hopen₁ ho₁ hf₁, readItems_ok hend₂ hopen₂ ho₂ hf₂, hm.same_value]
      obtain ⟨w₁, hw₁, hrest₁⟩ := hm.stops₁ hf₁
      obtain ⟨w₂, hw₂, hrest₂⟩ := hm.stops₂ hf₂
      rw [TextReader.eq_of_rest hrest₁, TextReader.eq_of_rest hrest₂, ← List.append_assoc w₁,
        ← List.append_assoc w₂]
      exact ih (fun y hy => hread y (List.mem_cons_of_mem x hy)) _ _ _ hw₁ hw₂ hr₁ hr₂
    · rw [readItems_fault hend₁ hopen₁ ho₁ hf₁, readItems_fault hend₂ hopen₂ ho₂ hf₂]
      exact .of_faults rfl

/-- A scalar reads alike from any two spacings of its token: the token is read where its
blanks end, and the reader stops at the blanks after it. -/
theorem readsAlikeSpaced_scalar {t : ScalarType} {v : Value} (ht : t.admits v = true) :
    S.ReadsAlikeSpaced (.scalar t) v := by
  obtain ⟨res, hres⟩ := ScalarType.readText_token ht
  intro old pos₁ pos₂ lead₁ lead₂ cs₁ cs₂ tail₁ tail₂ hl₁ hl₂ h₁ h₂
  rw [tokens] at h₁ h₂
  cases h₁ with
  | @cons _ _ w₁ _ hw₁ hb₁ hn₁ =>
  cases h₂ with
  | @cons _ _ w₂ _ hw₂ hb₂ hn₂ =>
  cases hn₁
  cases hn₂
  simp only [TextToken.chars_scalar ht, List.append_nil, List.append_assoc]
  -- the token is read after the blanks, and the reader stops at the blanks after it
  rw [readText.eq_1, readText.eq_1,
    TextReader.skipBlanks_blank_startsValue pos₁ hl₁
      ((ScalarType.textChars_startsValue ht).append (w₁ ++ tail₁)),
    TextReader.skipBlanks_blank_startsValue pos₂ hl₂
      ((ScalarType.textChars_startsValue ht).append (w₂ ++ tail₂)),
    hres _ _ _ hw₁ hb₁, hres _ _ _ hw₂ hb₂]
  cases res with
  | none => exact .of_faults rfl
  | some x => exact ⟨rfl, Iff.rfl, fun _ => ⟨_, hb₁, rfl⟩, fun _ => ⟨_, hb₂, rfl⟩⟩

theorem readsAlikeSpaced_record {r : ι} {vs : List Value}
    (hread : List.Forall₂ (fun m v => S.Typed m.shape v ∧ S.ReadsAlikeSpaced m.shape v)
      (S.descriptor r).members vs) :
    S.ReadsAlikeSpaced (.record r) (.record vs) := by
  intro old pos₁ pos₂ lead₁ lead₂ cs₁ cs₂ tail₁ tail₂ hl₁ hl₂ h₁ h₂
  rw [tokens_record, List.cons_append] at h₁ h₂
  cases h₁ with
  | @cons _ _ w₁ _ hw₁ hb₁ h₁ =>
  cases h₂ with
  | @cons _ _ w₂ _ hw₂ hb₂ h₂ =>
  obtain ⟨cm₁, cc₁, rfl, hm₁, hc₁⟩ := h₁.split
  obtain ⟨cm₂, cc₂, rfl, hm₂, hc₂⟩ := h₂.split
  cases hc₁ with
  | @cons _ _ wc₁ _ _ hbc₁ hn₁ =>
  cases hc₂ with
  | @cons _ _ wc₂ _ _ hbc₂ hn₂ =>
  cases hn₁
  cases hn₂
  simp only [TextToken.chars, List.append_nil, List.nil_append, List.cons_append,
    List.append_assoc]
  -- the opening bracket, then the members up to the blanks before the closing bracket
  have hexp₁ := TextReader.expect_blank_append pos₁ hl₁
    (w₁ ++ (cm₁ ++ ']' :: (wc₁ ++ tail₁))) .missingOpenToken (c := '[') (by decide)
  have hexp₂ := TextReader.expect_blank_append pos₂ hl₂
    (w₂ ++ (cm₂ ++ ']' :: (wc₂ ++ tail₂))) .missingOpenToken (c := '[') (by decide)
  have hms := readMembers_spaced hread old.fields (pos₁ + utf8Length lead₁ + '['.utf8Size)
    (pos₂ + utf8Length lead₂ + '['.utf8Size) hb₁ hb₂ hm₁ hm₂ (']' :: (wc₁ ++ tail₁))
    (']' :: (wc₂ ++ tail₂))
  simp only [List.append_assoc] at hms
  rcases hms.ok_or_fault with ⟨hf₁, hf₂⟩ | ⟨e₁, e₂, hf₁, hf₂⟩
  · obtain ⟨u₁, hu₁, hrest₁⟩ := hms.stops₁ hf₁
    obtain ⟨u₂, hu₂, hrest₂⟩ := hms.stops₂ hf₂
    rw [readText_record_close (by rw [hexp₁]) (by rw [hexp₁]) hf₁
        (by rw [TextReader.eq_of_rest hrest₁]; exact TextReader.eat_blank_append _ hu₁ _ (by decide)),
      readText_record_close (by rw [hexp₂]) (by rw [hexp₂]) hf₂
        (by rw [TextReader.eq_of_rest hrest₂]; exact TextReader.eat_blank_append _ hu₂ _ (by decide))]
    exact ⟨by rw [hms.same_value], Iff.rfl, fun _ => ⟨wc₁, hbc₁, rfl⟩, fun _ => ⟨wc₂, hbc₂, rfl⟩⟩
  · rw [readText_record_members_fault (by rw [hexp₁]) (by rw [hexp₁]) hf₁,
      readText_record_members_fault (by rw [hexp₂]) (by rw [hexp₂]) hf₂]
    exact .of_faults (by rw [hms.same_value])

theorem readsAlikeSpaced_collection (k : CollectionKind) {e : Shape ι} {xs : List Value}
    (hread : ∀ x ∈ xs, S.Typed e x ∧ S.ReadsAlikeSpaced e x) :
    S.ReadsAlikeSpaced (.collection k e) (.items xs) := by
  intro old pos₁ pos₂ lead₁ lead₂ cs₁ cs₂ tail₁ tail₂ hl₁ hl₂ h₁ h₂
  rw [tokens_collection, List.cons_append] at h₁ h₂
  cases h₁ with
  | @cons _ _ w₁ cs₁ hw₁ hb₁ h₁ =>
  cases h₂ with
  | @cons _ _ w₂ cs₂ hw₂ hb₂ h₂ =>
  simp only [TextToken.chars, List.cons_append, List.nil_append, List.append_assoc]
  -- the opening brace, then the elements and the closing brace
  have hexp₁ := TextReader.expect_blank_append pos₁ hl₁ (w₁ ++ (cs₁ ++ tail₁))
    .missingOpenToken (c := '{') (by decide)
  have hexp₂ := TextReader.expect_blank_append pos₂ hl₂ (w₂ ++ (cs₂ ++ tail₂))
    .missingOpenToken (c := '{') (by decide)
  rw [readText_collection_open (by rw [hexp₁]), readText_collection_open (by rw [hexp₂]), hexp₁,
    hexp₂]
  have hitems := readItems_spaced k hread []
    (pos₁ + utf8Length lead₁ + '{'.utf8Size) (pos₂ + utf8Length lead₂ + '{'.utf8Size) hb₁ hb₂
    h₁ h₂ tail₁ tail₂
  simp only [List.append_assoc] at hitems
  exact ⟨by rw [hitems.same_value], hitems.same_outcome, hitems.stops₁, hitems.stops₂⟩

/-- Every well-typed value reads alike from any two spacings of its tokens. -/
theorem readsAlikeSpaced_of_typed {s : Shape ι} {v : Value} (hv : S.Typed s v) :
    S.ReadsAlikeSpaced s v := by
  induction hv with
  | scalar ht => exact readsAlikeSpaced_scalar ht
  | @record r vs hlen hall ih =>
    exact readsAlikeSpaced_record
      (List.forall₂_iff_zip.mpr ⟨hlen.symm, fun hp => ⟨hall _ hp, ih _ hp⟩⟩)
  | @collection k e xs hall _ ih =>
    exact readsAlikeSpaced_collection k fun x hx => ⟨hall x hx, ih x hx⟩

/-! ## Whole texts -/

/-- Two spacings of a value's tokens, after any blanks, are taken as whole texts to the same
value, or both refused. -/
theorem fromText_spaced {s : Shape ι} {v : Value} (hv : S.Typed s v)
    {lead₁ lead₂ cs₁ cs₂ : List Char} (hl₁ : allBlank lead₁ = true) (hl₂ : allBlank lead₂ = true)
    (h₁ : TextToken.Spaced (S.tokens s v) cs₁) (h₂ : TextToken.Spaced (S.tokens s v) cs₂)
    (x : Value) :
    S.fromText s (String.ofList (lead₁ ++ cs₁)) = .ok x ↔
      S.fromText s (String.ofList (lead₂ ++ cs₂)) = .ok x := by
  have hr := readsAlikeSpaced_of_typed hv (S.default s) 0 0 lead₁ lead₂ cs₁ cs₂ [] [] hl₁ hl₂ h₁ h₂
  simp only [List.append_nil] at hr
  simp only [fromText, TextReader.ofString, String.toList_ofList]
  rcases hr.ok_or_fault with ⟨hf₁, hf₂⟩ | ⟨e₁, e₂, hf₁, hf₂⟩
  · -- both reads stop at the trailing blanks, which are the end of the text
    obtain ⟨w₁, hw₁, hrest₁⟩ := hr.stops₁ hf₁
    obtain ⟨w₂, hw₂, hrest₂⟩ := hr.stops₂ hf₂
    rw [List.append_nil] at hrest₁ hrest₂
    rw [hf₁, hf₂, TextReader.eq_of_rest hrest₁, TextReader.eq_of_rest hrest₂,
      TextReader.atEnd_skipBlanks_of_allBlank _ hw₁, TextReader.atEnd_skipBlanks_of_allBlank _ hw₂,
      hr.same_value]
    simp
  · rw [hf₁, hf₂]
    simp

/-- The text form with any blanks before it and each space after a token widened to any
nonempty run of blanks is read to the value the text form is read to; when the floats of the
value read back, that is its canonical value. -/
theorem respaced_text_reads_alike {s : Shape ι} {v : Value} (hv : S.Typed s v)
    {lead cs : List Char} (hlead : allBlank lead = true) (hcs : TextToken.Spaced (S.tokens s v) cs) :
    (∀ x, S.fromText s (String.ofList (lead ++ cs)) = .ok x ↔ S.fromText s (S.toText s v) = .ok x) ∧
      (S.FloatsReadBack s v → S.fromText s (String.ofList (lead ++ cs)) = .ok (S.canonical s v)) := by
  have htext : S.toText s v = String.ofList ([] ++ TextToken.render (S.tokens s v)) := by
    rw [toText, textOf_eq_render hv, List.nil_append]
  have hsame : ∀ x, S.fromText s (String.ofList (lead ++ cs)) = .ok x ↔
      S.fromText s (S.toText s v) = .ok x := by
    intro x
    rw [htext]
    exact fromText_spaced hv hlead rfl hcs (TextToken.spaced_render _) x
  refine ⟨hsame, fun hf => (hsame _).mpr ?_⟩
  have hread := fromText_toText hv hf ""
  rwa [String.append_empty, if_pos (by simp [allBlank])] at hread

end Schema

/-- The login of version 1 for "Jon Watte", with a line feed and a space before it and a tab, a
carriage return and line feed, a no-break space, a line feed and a tab after its tokens in
place of the single spaces, reads back. -/
theorem login_respaced_reads_back :
    catalog.fromText (.record .loginPacket)
        (String.ofList ("\n ".toList ++ "[\t1\r\n\"Jon Watte\"\u00a0\"super secret\"\n]\t".toList)) =
      .ok (.record [.int 1, .str "Jon Watte", .str "super secret"]) := by
  have hv : catalog.Typed (.record .loginPacket)
      (.record [.int 1, .str "Jon Watte", .str "super secret"]) := by decide
  have hf : catalog.FloatsReadBack (.record .loginPacket)
      (.record [.int 1, .str "Jon Watte", .str "super secret"]) := by
    intro t x hx f bits hbits _ _
    have hpieces : catalog.pieces (.record .loginPacket)
        (.record [.int 1, .str "Jon Watte", .str "super secret"]) =
        [.leaf .i32 (.int 1), .leaf .string (.str "Jon Watte"),
          .leaf .string (.str "super secret")] := by decide
    rw [hpieces, hbits] at hx
    simp at hx
  -- the respaced text: each token followed by its own run of blanks
  have hcs : TextToken.Spaced
      (catalog.tokens (.record .loginPacket) (.record [.int 1, .str "Jon Watte", .str "super secret"]))
      "[\t1\r\n\"Jon Watte\"\u00a0\"super secret\"\n]\t".toList := by
    have htokens : catalog.tokens (.record .loginPacket)
        (.record [.int 1, .str "Jon Watte", .str "super secret"]) =
        [.openRecord, .scalar .i32 (.int 1), .scalar .string (.str "Jon Watte"),
          .scalar .string (.str "super secret"), .closeRecord] := by decide
    have hchars : "[\t1\r\n\"Jon Watte\"\u00a0\"super secret\"\n]\t".toList =
        TextToken.openRecord.chars ++ ['\t'] ++
          ((TextToken.scalar .i32 (.int 1)).chars ++ ['\r', '\n'] ++
            ((TextToken.scalar .string (.str "Jon Watte")).chars ++ ['\u00a0'] ++
              ((TextToken.scalar .string (.str "super secret")).chars ++ ['\n'] ++
                (TextToken.closeRecord.chars ++ ['\t'] ++ [])))) := by decide
    rw [htokens, hchars]
    exact .cons (by simp) (by decide) (.cons (by simp) (by decide) (.cons (by simp) (by decide)
      (.cons (by simp) (by decide) (.cons (by simp) (by decide) .nil))))
  have hlead : allBlank "\n ".toList = true := by decide
  have hread := (Schema.respaced_text_reads_alike hv hlead hcs).2 hf
  rwa [show catalog.canonical (.record .loginPacket)
    (.record [.int 1, .str "Jon Watte", .str "super secret"]) =
      .record [.int 1, .str "Jon Watte", .str "super secret"] by decide] at hread

end RecordWire
