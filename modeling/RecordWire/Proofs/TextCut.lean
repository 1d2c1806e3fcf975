import Mathlib
import RecordWire.Proofs.Canonical
import RecordWire.Proofs.TextSpacing
/-!
# Cut texts

A text cut short of its end is refused, and the error says how: the reader ran out where the
cut is (an unexpected end, or a missing closing bracket after the last member), or a bare
token that the cut shortened is not a token at all, and then the error stands where that token
starts. A quoted string cut short never ends, and a shortened bare token that still reads (a
number cut to fewer digits) leaves the reader at the cut, where the next step runs out.

`TextToken.CutFault` is that classification of a fault, relative to the tokens of the value and
the byte offset where they start, and `TextToken.CutOutcome` adds the read that takes all of
the cut text. Every prefix of a value's text reads to such an outcome (`readsCut_of_typed`),
and a prefix of a record's text that lacks its closing bracket is refused with a cut fault
(`truncated_text_fails`).
-/

namespace RecordWire

/-- A prefix of two lists one after the other is a prefix of the first, or the first followed
by a nonempty prefix of the second. -/
theorem prefix_append_cases {α : Type} {q a b : List α} (h : q <+: a ++ b) :
    q <+: a ∨ ∃ q', q = a ++ q' ∧ q' ≠ [] ∧ q' <+: b := by
  induction a generalizing q with
  | nil =>
    rcases eq_or_ne q [] with rfl | hne
    · exact .inl List.nil_prefix
    · exact .inr ⟨q, rfl, hne, h⟩
  | cons c a ih =>
    rcases List.prefix_cons_iff.mp h with rfl | ⟨t, rfl, ht⟩
    · exact .inl List.nil_prefix
    · rcases ih ht with h' | ⟨q', rfl, hne, hq'⟩
      · exact .inl (List.cons_prefix_cons.mpr ⟨rfl, h'⟩)
      · exact .inr ⟨q', rfl, hne, hq'⟩

theorem utf8Length_lt_of_prefix {q cs : List Char} (h : q <+: cs) (hne : q ≠ cs) :
    utf8Length q < utf8Length cs := by
  obtain ⟨t, rfl⟩ := h
  obtain ⟨c, t, rfl⟩ := List.exists_cons_of_ne_nil (by simpa using hne)
  have := c.utf8Size_pos
  simp only [utf8Length_append, utf8Length_cons]
  omega

theorem StartsValue.of_prefix {q cs : List Char} (h : StartsValue cs) (hq : q <+: cs)
    (hne : q ≠ []) : StartsValue q := by
  obtain ⟨c, rest, rfl, hc⟩ := h
  rcases List.prefix_cons_iff.mp hq with rfl | ⟨t, rfl, -⟩
  · exact absurd rfl hne
  · exact ⟨c, t, rfl, hc⟩

namespace TextReader

theorem parseToken_all {α : Type} {read? : List Char → Option α} {pos : Nat} {tok : List Char}
    (htok : ∀ d ∈ tok, endsToken d = false) (hne : tok ≠ []) :
    parseToken ⟨pos, tok⟩ read? =
      ⟨(read? tok).elim (.error ⟨.invalidToken, pos⟩) .ok, ⟨pos + utf8Length tok, []⟩⟩ := by
  have htake : tok.takeWhile (fun d => !endsToken d) = tok :=
    List.takeWhile_eq_self_iff.mpr (by simpa using htok)
  cases hread : read? tok with
  | some a => simp [parseToken, takeToken, skip, htake, hne, hread]
  | none =>
    simp [parseToken, takeToken, skip, htake, hne, hread]
    rfl

/-- Undoing the escapes of a prefix of an escaped body runs out: its closing quote never
comes. -/
theorem unescape_of_prefix {q : List Char} (cs : List Char) (h : q <+: escapeChars cs) :
    unescape q = none := by
  induction cs generalizing q with
  | nil =>
    obtain rfl := List.prefix_nil.mp h
    rfl
  | cons c cs ih =>
    -- an escape pair runs out with the rest of the body after it, and so does a plain character
    have hpair : ∀ d, q <+: '\\' :: d :: escapeChars cs → unescape q = none := by
      intro d hq
      rcases List.prefix_cons_iff.mp hq with rfl | ⟨t, rfl, ht⟩
      · rfl
      rcases List.prefix_cons_iff.mp ht with rfl | ⟨t', rfl, ht'⟩
      · rfl
      simp [unescape, ih ht']
    by_cases hq : c = '"' ∨ c = '\\'
    · exact hpair c (by simpa [escapeChars, hq] using h)
    by_cases hn : c = '\n'
    · exact hpair 'n' (by simpa [escapeChars, hq, hn] using h)
    by_cases hr : c = '\r'
    · exact hpair 'r' (by simpa [escapeChars, hq, hn, hr] using h)
    have hq' : c ≠ '"' ∧ c ≠ '\\' := not_or.mp hq
    rw [escapeChars, if_neg hq, if_neg hn, if_neg hr] at h
    rcases List.prefix_cons_iff.mp h with rfl | ⟨t, rfl, ht⟩
    · rfl
    rw [unescape.eq_5 _ _ hq'.1 (fun _ _ h _ => hq'.2 h) (fun h _ => hq'.2 h), ih ht]
    rfl

theorem skipBlanks_nil (pos : Nat) : skipBlanks ⟨pos, []⟩ = ⟨pos, []⟩ := by
  simp [skipBlanks_eq]

/-- A quoted string cut before its closing quote is an unexpected end where the text ends. -/
theorem readQuoted_cut (pos : Nat) {q : List Char} (cs : List Char) (h : q <+: escapeChars cs) :
    (readQuoted ⟨pos, '"' :: q⟩).result = .error ⟨.unexpectedEnd, pos + utf8Length ('"' :: q)⟩ := by
  simp only [readQuoted, unescape_of_prefix cs h, total]

end TextReader

namespace ScalarType

theorem readToken?_textChars {t : ScalarType} {v : Value} (h : t.admits v = true)
    (hs : t ≠ .string) (hfloat : t.DisplayReadsBack v) :
    t.readToken? (t.textChars v) = some (t.canonical v) := by
  have hread := readText_textChars h hfloat 0 []
  rw [readText_of_ne_string hs, TextReader.parseToken_append_ends (textChars_token h hs).2
    (textChars_token h hs).1 (by decide)] at hread
  cases hr : t.readToken? (t.textChars v) with
  | none => simp [hr] at hread
  | some a => simpa [hr] using hread

end ScalarType

namespace TextToken

/-- How a read of a cut text fails: it runs out where the text ends (an unexpected end, or a
closing bracket missing there), or it meets an invalid token where a bare token of `ts`
starts, with the cut strictly inside that token. The tokens start at byte `base`, and the text
ends at byte `stop`. -/
def CutFault (ts : List TextToken) (base stop : Nat) (f : Option CodecError) : Prop :=
  f = some (.atByte .unexpectedEnd stop) ∨ f = some (.atByte .missingCloseToken stop) ∨
    ∃ pre t x post, ts = pre ++ scalar t x :: post ∧ t ≠ .string ∧
      base + utf8Length (render pre) < stop ∧
      stop < base + utf8Length (render pre) + utf8Length (scalar t x).chars ∧
      f = some (.atByte .invalidToken (base + utf8Length (render pre)))

/-- How a read of a cut text ends: it takes all of the text but blanks, or it fails as a cut
text does. -/
def CutOutcome (ts : List TextToken) (base stop : Nat) (r : TextReader)
    (f : Option CodecError) : Prop :=
  (f = none ∧ r.skipBlanks = ⟨stop, []⟩) ∨ CutFault ts base stop f

variable {ts : List TextToken} {base stop : Nat} {f : Option CodecError}

theorem CutFault.ne_none (h : CutFault ts base stop f) : f ≠ none := by
  rcases h with rfl | rfl | ⟨_, _, _, _, _, _, _, _, rfl⟩ <;> simp

theorem CutFault.append_left {base' : Nat} (us : List TextToken)
    (hbase : base' = base + utf8Length (render us)) (h : CutFault ts base' stop f) :
    CutFault (us ++ ts) base stop f := by
  rcases h with h | h | ⟨pre, t, x, post, rfl, hs, hlo, hhi, rfl⟩
  · exact .inl h
  · exact .inr (.inl h)
  · refine .inr (.inr ⟨us ++ pre, t, x, post, by simp, hs, ?_, ?_, ?_⟩)
    · simp only [render_append, utf8Length_append]
      omega
    · simp only [render_append, utf8Length_append]
      omega
    · rw [hbase, render_append, utf8Length_append, Nat.add_assoc]

theorem CutFault.append_right (us : List TextToken) (h : CutFault ts base stop f) :
    CutFault (ts ++ us) base stop f := by
  rcases h with h | h | ⟨pre, t, x, post, rfl, hs, hlo, hhi, rfl⟩
  · exact .inl h
  · exact .inr (.inl h)
  · exact .inr (.inr ⟨pre, t, x, post ++ us, by simp, hs, hlo, hhi, rfl⟩)

theorem CutOutcome.append_left {base' : Nat} {r : TextReader} (us : List TextToken)
    (hbase : base' = base + utf8Length (render us)) (h : CutOutcome ts base' stop r f) :
    CutOutcome (us ++ ts) base stop r f :=
  h.imp_right (CutFault.append_left us hbase)

theorem CutOutcome.append_right {r : TextReader} (us : List TextToken)
    (h : CutOutcome ts base stop r f) : CutOutcome (ts ++ us) base stop r f :=
  h.imp_right (CutFault.append_right us)

end TextToken

namespace Schema

variable {ι : Type} {S : Schema ι}

theorem utf8Length_render_tokens {s : Shape ι} {v : Value} (hv : S.Typed s v) :
    utf8Length (TextToken.render (S.tokens s v)) = utf8Length (S.textBody s v) + 1 := by
  rw [← textOf_eq_render hv, textOf_eq hv, utf8Length_append]
  simp only [utf8Length_cons, utf8Size_frame, utf8Length_nil]

variable (S) in
/-- Every prefix of `v`'s text, read to the end of the input into an old value of its shape,
ends as a cut text does; the read takes all of it only when it is the whole text or `v` is a
scalar. -/
def ReadsCut (s : Shape ι) (v : Value) : Prop :=
  ∀ old, S.Typed s old → ∀ pos q, q <+: S.textBody s v →
    TextToken.CutOutcome (S.tokens s v) pos (pos + utf8Length q)
      (S.readText s old ⟨pos, q⟩).reader (S.readText s old ⟨pos, q⟩).fault ∧
    ((S.readText s old ⟨pos, q⟩).fault = none → q = S.textBody s v ∨ ∃ t, s = .scalar t)

/-! ## Running out -/

/-- Members read where only blanks are left: none are wanted, or the first runs out. -/
theorem readMembers_at_end {r : TextReader} {stop : Nat} (hr : r.skipBlanks = ⟨stop, []⟩)
    (ts : List TextToken) (base : Nat) (ms : List (Member ι)) (olds : List Value) :
    TextToken.CutOutcome ts base stop (S.readMembers ms olds r).reader
      (S.readMembers ms olds r).fault := by
  cases ms with
  | nil =>
    simp only [readMembers]
    exact .inl ⟨rfl, hr⟩
  | cons m ms =>
    rw [readMembers_cons_atEnd (by rw [hr]; rfl), hr]
    exact .inr (.inl rfl)

theorem readItems_at_end {r : TextReader} {stop : Nat} (hr : r.skipBlanks = ⟨stop, []⟩)
    (ts : List TextToken) (base : Nat) (k : CollectionKind) (e : Shape ι) (acc : List Value) :
    TextToken.CutFault ts base stop (S.readItems k e acc r).fault := by
  rw [readItems_atEnd (by rw [hr]; rfl), hr]
  exact .inl rfl

/-- A record whose members were read as a cut text is refused as one: where the members took
all of the text, its closing bracket is missing there. -/
theorem readText_record_cut {rid : ι} {d : Value} {r : TextReader} {o : TextReadList}
    {ts : List TextToken} {base stop : Nat}
    (hopen : (r.skipBlanks.expect '[' .missingOpenToken).result = .ok ())
    (ho : S.readMembers (S.descriptor rid).members d.fields
      (r.skipBlanks.expect '[' .missingOpenToken).reader = o)
    (hcut : TextToken.CutOutcome ts base stop o.reader o.fault) :
    TextToken.CutFault ts base stop (S.readText (.record rid) d r).fault := by
  rcases hcut with ⟨hf, hend⟩ | hfault
  · have heat : (o.reader.skipBlanks.eat ']').1 = false := by rw [hend]; rfl
    rw [readText_record_unclosed hopen ho hf heat, hend]
    exact .inr (.inl rfl)
  · obtain ⟨f, hf⟩ := Option.ne_none_iff_exists'.mp hfault.ne_none
    rw [readText_record_members_fault hopen ho hf, ← hf]
    exact hfault

/-! ## Cutting members and elements -/

/-- Members read from a prefix of their text, after the space before them, end as a cut text
does: the members before the cut read back, and the cut one ends as its own text's cut. -/
theorem readMembers_cut {ms : List (Member ι)} {vs : List Value}
    (hread : List.Forall₂
      (fun m v => S.Typed m.shape v ∧ S.ReadsBackText m.shape v ∧ S.ReadsCut m.shape v) ms vs) :
    ∀ {olds : List Value}, List.Forall₂ (fun m o => S.Typed m.shape o) ms olds →
      ∀ pos q, q <+: S.textMembers ms vs →
        TextToken.CutOutcome ((ms.zip vs).flatMap fun p => S.tokens p.1.shape p.2) (pos + 1)
          (pos + 1 + utf8Length q) (S.readMembers ms olds ⟨pos, ' ' :: q⟩).reader
          (S.readMembers ms olds ⟨pos, ' ' :: q⟩).fault := by
  induction hread with
  | nil =>
    intro olds holds pos q hq
    obtain rfl : q = [] := List.prefix_nil.mp (by simpa [textMembers] using hq)
    exact readMembers_at_end (TextReader.skipBlanks_allBlank pos (w := [' ']) rfl) _ _ _ _
  | @cons m v ms vs hmv _ ih =>
    intro olds holds pos q hq
    cases holds with
    | @cons _ o _ olds hmo holds =>
    obtain ⟨hv, hback, hcut⟩ := hmv
    rw [textMembers_cons hv] at hq
    rw [List.zip_cons_cons, List.flatMap_cons]
    rcases prefix_append_cases hq with hq | ⟨rest, rfl, hne', hrest⟩
    · -- the cut falls in this member's text
      rcases eq_or_ne q [] with rfl | hne
      · exact readMembers_at_end (TextReader.skipBlanks_allBlank pos (w := [' ']) rfl) _ _ _ _
      have hstart := StartsValue.of_prefix (textBody_startsValue hv) hq hne
      have hskip := TextReader.skipBlanks_space pos hstart
      have hend : (TextReader.skipBlanks ⟨pos, ' ' :: q⟩).atEnd = false := by
        obtain ⟨c, rest, rfl, -⟩ := hstart
        rw [hskip]
        rfl
      have ho := congrArg (S.readText m.shape ((o :: olds).headD (S.default m.shape))) hskip
      obtain ⟨hout, -⟩ := hcut o hmo (pos + 1) q hq
      rcases hout with ⟨hf, hstop⟩ | hfault
      · -- the member takes all of the text, and the next one, if any, runs out
        rw [readMembers_cons_ok hend ho hf]
        exact readMembers_at_end hstop _ _ _ _
      · obtain ⟨f, hf⟩ := Option.ne_none_iff_exists'.mp hfault.ne_none
        rw [readMembers_cons_fault hend ho hf]
        exact .inr (hf ▸ hfault.append_right _)
    · -- the member is whole and reads back; the cut falls after the space after it
      obtain ⟨q', rfl, hq'⟩ := (List.prefix_cons_iff.mp hrest).resolve_left hne'
      have hskip := TextReader.skipBlanks_space pos
        ((textBody_startsValue hv).append (' ' :: q'))
      have hend : (TextReader.skipBlanks ⟨pos, ' ' :: (S.textBody m.shape v ++ ' ' :: q')⟩).atEnd =
          false := by
        obtain ⟨c, rest, hc, -⟩ := textBody_startsValue hv
        rw [hskip, hc]
        rfl
      have ho := (congrArg (S.readText m.shape ((o :: olds).headD (S.default m.shape))) hskip).trans
        (hback o hmo (pos + 1) q')
      rw [readMembers_cons_ok hend ho rfl]
      have hstop : pos + 1 + utf8Length (S.textBody m.shape v ++ ' ' :: q') =
          pos + 1 + utf8Length (S.textBody m.shape v) + 1 + utf8Length q' := by
        simp only [utf8Length_append, utf8Length_cons, utf8Size_frame]
        omega
      rw [hstop]
      refine (ih holds _ q' hq').append_left _ ?_
      rw [utf8Length_render_tokens hv]
      omega

/-- Elements read from a prefix of their text, after the space before them, fail as a cut text
does: the closing brace never comes. -/
theorem readItems_cut (k : CollectionKind) {e : Shape ι} {xs : List Value}
    (hread : ∀ x ∈ xs, S.Typed e x ∧ S.ReadsBackText e x ∧ S.ReadsCut e x) (acc : List Value)
    (pos : Nat) {q : List Char} (hq : q <+: S.textItems e xs) :
    TextToken.CutFault (xs.flatMap (S.tokens e)) (pos + 1) (pos + 1 + utf8Length q)
      (S.readItems k e acc ⟨pos, ' ' :: q⟩).fault := by
  induction xs generalizing acc pos q with
  | nil =>
    obtain rfl : q = [] := List.prefix_nil.mp (by simpa [textItems] using hq)
    exact readItems_at_end (TextReader.skipBlanks_allBlank pos (w := [' ']) rfl) _ _ _ _ _
  | cons x xs ih =>
    obtain ⟨hx, hback, hcut⟩ := hread x List.mem_cons_self
    rw [textItems_cons hx] at hq
    rw [List.flatMap_cons]
    -- an element starts with no closing brace
    have hopen : ∀ {pos : Nat} {cs : List Char}, StartsValue cs →
        ((TextReader.skipBlanks ⟨pos, ' ' :: cs⟩).eat '}').1 = false := by
      intro pos cs hcs
      rw [TextReader.skipBlanks_space pos hcs]
      obtain ⟨c, rest, rfl, hc⟩ := hcs
      have hne : c ≠ '}' := by
        rintro rfl
        simp [TextReader.endsToken] at hc
      rw [TextReader.eat_of_ne hne]
    have hend : ∀ {pos : Nat} {cs : List Char}, StartsValue cs →
        (TextReader.skipBlanks ⟨pos, ' ' :: cs⟩).atEnd = false := by
      intro pos cs hcs
      rw [TextReader.skipBlanks_space pos hcs]
      obtain ⟨c, rest, rfl, -⟩ := hcs
      rfl
    rcases prefix_append_cases hq with hq | ⟨rest, rfl, hne', hrest⟩
    · -- the cut falls in this element's text
      rcases eq_or_ne q [] with rfl | hne
      · exact readItems_at_end (TextReader.skipBlanks_allBlank pos (w := [' ']) rfl) _ _ _ _ _
      have hstart := StartsValue.of_prefix (textBody_startsValue hx) hq hne
      have ho := congrArg (S.readText e (S.default e)) (TextReader.skipBlanks_space pos hstart)
      obtain ⟨hout, -⟩ := hcut (S.default e) (S.typed_default e) (pos + 1) q hq
      rcases hout with ⟨hf, hstop⟩ | hfault
      · -- the element takes all of the text, and the next step runs out
        rw [readItems_ok (hend hstart) (hopen hstart) ho hf]
        exact readItems_at_end hstop _ _ _ _ _
      · obtain ⟨f, hf⟩ := Option.ne_none_iff_exists'.mp hfault.ne_none
        rw [readItems_fault (hend hstart) (hopen hstart) ho hf]
        exact hf ▸ hfault.append_right _
    · -- the element is whole and reads back; the cut falls after the space after it
      obtain ⟨q', rfl, hq'⟩ := (List.prefix_cons_iff.mp hrest).resolve_left hne'
      have hstart := (textBody_startsValue hx).append (' ' :: q')
      have ho := (congrArg (S.readText e (S.default e)) (TextReader.skipBlanks_space pos hstart)).trans
        (hback (S.default e) (S.typed_default e) (pos + 1) q')
      rw [readItems_ok (hend hstart) (hopen hstart) ho rfl]
      have hstop : pos + 1 + utf8Length (S.textBody e x ++ ' ' :: q') =
          pos + 1 + utf8Length (S.textBody e x) + 1 + utf8Length q' := by
        simp only [utf8Length_append, utf8Length_cons, utf8Size_frame]
        omega
      rw [hstop]
      refine (ih (fun y hy => hread y (List.mem_cons_of_mem x hy)) _ _ hq').append_left _ ?_
      rw [utf8Length_render_tokens hx]
      omega

/-! ## Cutting a value -/

/-- A quoted string reads as a cut text: only the whole text is taken, and a cut before the
closing quote runs out where the text ends. -/
theorem readsCut_string (str : String) : S.ReadsCut (.scalar .string) (.str str) := by
  intro old _ pos q hq
  simp only [textBody, ScalarType.textChars, quoteChars, List.cons_append] at hq ⊢
  rw [tokens, readText.eq_1]
  rcases List.prefix_cons_iff.mp hq with rfl | ⟨q₁, rfl, hq₁⟩
  · -- nothing of the string: it runs out where the text ends
    refine ⟨.inr (.inl ?_), ?_⟩ <;>
      simp [TextReader.skipBlanks_nil, ScalarType.readText, TextReader.readQuoted,
        TextReader.error, CodecError.atByte, Except.map]
  have hskip := TextReader.skipBlanks_of_startsValue pos
    (show StartsValue ('"' :: q₁) from ⟨'"', q₁, rfl, by decide⟩)
  rcases List.prefix_concat_iff.mp hq₁ with rfl | hq₁
  · -- the whole string reads back
    have hread := TextReader.readQuoted_quoteChars pos str.toList []
    simp only [quoteChars, List.cons_append, List.append_nil] at hread
    refine ⟨?_, fun _ => .inl rfl⟩
    simp only [hskip, ScalarType.readText, hread]
    exact .inl ⟨rfl, TextReader.skipBlanks_nil _⟩
  · -- the closing quote never comes
    have hcut := TextReader.readQuoted_cut pos str.toList hq₁
    refine ⟨.inr (.inl ?_), ?_⟩ <;>
      simp [hskip, ScalarType.readText, hcut, CodecError.atByte, Except.map]

/-- A bare token reads as a cut text: a cut prefix that still reads is taken whole, and one that
does not is refused where it starts, with the cut strictly inside the token. -/
theorem readsCut_bare {t : ScalarType} {v : Value} (ht : t.admits v = true) (hs : t ≠ .string)
    (hfloat : t.DisplayReadsBack v) : S.ReadsCut (.scalar t) v := by
  intro old _ pos q hq
  simp only [textBody] at hq ⊢
  rw [tokens, readText.eq_1]
  have htok := ScalarType.textChars_token ht hs
  rcases eq_or_ne q [] with rfl | hne
  · -- nothing of the token: it runs out where the text ends
    refine ⟨.inr (.inl ?_), ?_⟩ <;>
      simp [TextReader.skipBlanks_nil, ScalarType.readText_of_ne_string hs, TextReader.parseToken,
        TextReader.takeToken, TextReader.skip, TextReader.error, TextReader.atEnd,
        CodecError.atByte]
  have hstart := StartsValue.of_prefix (ScalarType.textChars_startsValue ht) hq hne
  rw [TextReader.skipBlanks_of_startsValue pos hstart, ScalarType.readText_of_ne_string hs,
    TextReader.parseToken_all (fun d hd => htok.2 d (hq.subset hd)) hne]
  cases hr : t.readToken? q with
  | some a =>
    -- the cut token still reads, and all of the text is taken
    exact ⟨.inl ⟨rfl, TextReader.skipBlanks_nil _⟩, fun _ => .inr ⟨t, rfl⟩⟩
  | none =>
    -- a whole token reads back, so the cut falls strictly inside this one
    have hcut : q ≠ t.textChars v := by
      rintro rfl
      rw [ScalarType.readToken?_textChars ht hs hfloat] at hr
      cases hr
    have hlt := utf8Length_lt_of_prefix hq hcut
    have hpos := utf8Length_lt_of_prefix List.nil_prefix hne.symm
    refine ⟨.inr (.inr (.inr ⟨[], t, v, [], rfl, hs, ?_, ?_, ?_⟩)), by simp⟩
    · simp only [TextToken.render_nil, utf8Length_nil] at hpos ⊢
      omega
    · rw [TextToken.chars_scalar ht]
      simp only [TextToken.render_nil, utf8Length_nil]
      omega
    · simp [CodecError.atByte]

theorem readsCut_record {r : ι} {vs : List Value}
    (hread : List.Forall₂
      (fun m v => S.Typed m.shape v ∧ S.ReadsBackText m.shape v ∧ S.ReadsCut m.shape v)
      (S.descriptor r).members vs) :
    S.ReadsCut (.record r) (.record vs) := by
  intro old hold pos q hq
  obtain ⟨ws, rfl⟩ : ∃ ws, old = .record ws := by cases hold; exact ⟨_, rfl⟩
  have holds := hold.forall₂_members
  have hbody : S.textBody (.record r) (.record vs) =
      '[' :: ' ' :: (S.textMembers (S.descriptor r).members vs ++ [']']) := by
    simp [textBody]
  rw [hbody] at hq
  rcases List.prefix_cons_iff.mp hq with rfl | ⟨q₁, rfl, hq₁⟩
  · -- nothing of the record: it runs out where the text ends
    have hopen : ((TextReader.skipBlanks ⟨pos, []⟩).expect '[' .missingOpenToken).result =
        .error ⟨.unexpectedEnd, pos⟩ := by
      simp [TextReader.skipBlanks_nil, TextReader.expect, TextReader.error]
    rw [readText_record_open_fail hopen]
    exact ⟨.inr (.inl (by simp [CodecError.atByte])), by simp⟩
  have hexp : (TextReader.skipBlanks ⟨pos, '[' :: q₁⟩).expect '[' .missingOpenToken =
      ⟨.ok (), ⟨pos + 1, q₁⟩⟩ := by
    rw [TextReader.skipBlanks_of_startsValue pos ⟨'[', q₁, rfl, by decide⟩, TextReader.expect_cons]
    rfl
  have hopen : ((TextReader.skipBlanks ⟨pos, '[' :: q₁⟩).expect '[' .missingOpenToken).result =
      .ok () := by
    rw [hexp]
  -- short of the closing bracket, the members' cut outcome refuses the record
  have hrefused : ∀ {o : TextReadList} {stop : Nat},
      S.readMembers (S.descriptor r).members ws ⟨pos + 1, q₁⟩ = o →
      TextToken.CutOutcome (((S.descriptor r).members.zip vs).flatMap
        fun p => S.tokens p.1.shape p.2) (pos + 1 + 1) stop o.reader o.fault →
      TextToken.CutOutcome (S.tokens (.record r) (.record vs)) pos stop
        (S.readText (.record r) (.record ws) ⟨pos, '[' :: q₁⟩).reader
        (S.readText (.record r) (.record ws) ⟨pos, '[' :: q₁⟩).fault ∧
      ((S.readText (.record r) (.record ws) ⟨pos, '[' :: q₁⟩).fault = none →
        '[' :: q₁ = '[' :: ' ' :: (S.textMembers (S.descriptor r).members vs ++ [']']) ∨
          ∃ t, Shape.record r = .scalar t) := by
    intro o stop ho hcut
    have hfault : TextToken.CutFault _ _ stop
        (S.readText (.record r) (.record ws) ⟨pos, '[' :: q₁⟩).fault :=
      readText_record_cut hopen (by rw [hexp]; exact ho) hcut
    refine ⟨.inr ?_, fun h => absurd h hfault.ne_none⟩
    rw [tokens_record, ← List.singleton_append]
    exact (hfault.append_left _ (by simp [TextToken.chars, utf8Size_frame])).append_right _
  rcases List.prefix_cons_iff.mp hq₁ with rfl | ⟨q₂, rfl, hq₂⟩
  · -- only the opening bracket: the first member, if any, runs out
    rw [show pos + utf8Length ['['] = pos + 1 by simp [utf8Size_frame]]
    exact hrefused rfl (readMembers_at_end (TextReader.skipBlanks_nil _) _ _ _ _)
  rcases List.prefix_concat_iff.mp hq₂ with rfl | hq₂
  · -- the whole record reads back
    refine ⟨?_, fun _ => .inl rfl⟩
    have hmembers : S.readMembers (S.descriptor r).members (Value.record ws).fields
        ((TextReader.skipBlanks ⟨pos, '[' :: ' ' ::
          (S.textMembers (S.descriptor r).members vs ++ [']'])⟩).expect '[' .missingOpenToken).reader =
        ⟨S.canonicalMembers (S.descriptor r).members vs,
          ⟨pos + 1 + utf8Length (S.textMembers (S.descriptor r).members vs), [' ', ']']⟩, none⟩ := by
      rw [hexp]
      exact readMembers_textMembers (hread.imp fun _ _ h => ⟨h.1, h.2.1⟩) holds (pos + 1) [']']
    have heat := TextReader.eat_blank_append
      (pos + 1 + utf8Length (S.textMembers (S.descriptor r).members vs))
      (show allBlank [' '] = true from rfl) [] (show isBlank ']' = false by decide)
    rw [readText_record_close hopen hmembers rfl heat]
    refine .inl ⟨rfl, ?_⟩
    rw [TextReader.skipBlanks_nil]
    simp only [utf8Length_cons, utf8Length_append, utf8Length_nil, utf8Size_frame]
    congr 1
    omega
  · -- a cut among the members
    rw [show pos + utf8Length ('[' :: ' ' :: q₂) = pos + 1 + 1 + utf8Length q₂ by
      simp [utf8Size_frame]; omega]
    exact hrefused rfl (readMembers_cut hread holds (pos + 1) q₂ hq₂)

theorem readsCut_collection (k : CollectionKind) {e : Shape ι} {xs : List Value}
    (hread : ∀ x ∈ xs, S.Typed e x ∧ S.ReadsBackText e x ∧ S.ReadsCut e x) :
    S.ReadsCut (.collection k e) (.items xs) := by
  intro old _ pos q hq
  have hbody : S.textBody (.collection k e) (.items xs) =
      '{' :: ' ' :: (S.textItems e xs ++ ['}']) := by
    simp [textBody]
  rw [hbody] at hq
  rcases List.prefix_cons_iff.mp hq with rfl | ⟨q₁, rfl, hq₁⟩
  · -- nothing of the collection: it runs out where the text ends
    have hopen : ((TextReader.skipBlanks ⟨pos, []⟩).expect '{' .missingOpenToken).result =
        .error ⟨.unexpectedEnd, pos⟩ := by
      simp [TextReader.skipBlanks_nil, TextReader.expect, TextReader.error]
    rw [readText_collection_open_fail hopen]
    exact ⟨.inr (.inl (by simp [CodecError.atByte])), by simp⟩
  have hexp : (TextReader.skipBlanks ⟨pos, '{' :: q₁⟩).expect '{' .missingOpenToken =
      ⟨.ok (), ⟨pos + 1, q₁⟩⟩ := by
    rw [TextReader.skipBlanks_of_startsValue pos ⟨'{', q₁, rfl, by decide⟩, TextReader.expect_cons]
    rfl
  rw [readText_collection_open (by rw [hexp]), hexp]
  dsimp only
  -- short of the closing brace, the elements fail as a cut text, and so does the collection
  have hrefused : ∀ {stop : Nat},
      TextToken.CutFault (xs.flatMap (S.tokens e)) (pos + 1 + 1) stop
        (S.readItems k e [] ⟨pos + 1, q₁⟩).fault →
      TextToken.CutOutcome (S.tokens (.collection k e) (.items xs)) pos stop
        (S.readItems k e [] ⟨pos + 1, q₁⟩).reader (S.readItems k e [] ⟨pos + 1, q₁⟩).fault ∧
      ((S.readItems k e [] ⟨pos + 1, q₁⟩).fault = none →
        '{' :: q₁ = '{' :: ' ' :: (S.textItems e xs ++ ['}']) ∨
          ∃ t, Shape.collection k e = .scalar t) := by
    intro stop hcut
    refine ⟨.inr ?_, fun h => absurd h hcut.ne_none⟩
    rw [tokens_collection, ← List.singleton_append]
    exact (hcut.append_left _ (by simp [TextToken.chars, utf8Size_frame])).append_right _
  rcases List.prefix_cons_iff.mp hq₁ with rfl | ⟨q₂, rfl, hq₂⟩
  · -- only the opening brace: the elements run out
    rw [show pos + utf8Length ['{'] = pos + 1 by simp [utf8Size_frame]]
    exact hrefused (readItems_at_end (TextReader.skipBlanks_nil _) _ _ _ _ _)
  rcases List.prefix_concat_iff.mp hq₂ with rfl | hq₂
  · -- the whole collection reads back
    refine ⟨?_, fun _ => .inl rfl⟩
    rw [readItems_textItems k (fun x hx => ⟨(hread x hx).1, (hread x hx).2.1⟩) [] (pos + 1) []]
    refine .inl ⟨rfl, ?_⟩
    rw [TextReader.skipBlanks_nil]
    simp only [utf8Length_cons, utf8Length_append, utf8Length_nil, utf8Size_frame]
    congr 1
    omega
  · -- a cut among the elements
    rw [show pos + utf8Length ('{' :: ' ' :: q₂) = pos + 1 + 1 + utf8Length q₂ by
      simp [utf8Size_frame]; omega]
    exact hrefused (readItems_cut k hread [] (pos + 1) hq₂)

/-- Every prefix of a well-typed value's text whose floats read back reads as a cut text. -/
theorem readsCut_of_typed {s : Shape ι} {v : Value} (hv : S.Typed s v) (hf : S.FloatsReadBack s v) :
    S.ReadsCut s v := by
  induction hv with
  | @scalar t v ht =>
    by_cases hs : t = .string
    · subst hs
      obtain ⟨str, rfl⟩ := ScalarType.eq_str_of_admits ht
      exact readsCut_string str
    · exact readsCut_bare ht hs (hf t v (by simp [pieces]))
  | @record r vs hlen hall ih =>
    have hfm : ∀ p ∈ (S.descriptor r).members.zip vs, S.FloatsReadBack p.1.shape p.2 :=
      fun p hp t x hx => hf t x (pieces_subset_of_mem_zip hp hx)
    exact readsCut_record (List.forall₂_iff_zip.mpr ⟨hlen.symm, fun hp =>
      ⟨hall _ hp, readsBackText_of_typed (hall _ hp) (hfm _ hp), ih _ hp (hfm _ hp)⟩⟩)
  | @collection k e xs hall _ ih =>
    refine readsCut_collection k fun x hx => ?_
    have hfx : S.FloatsReadBack e x := fun t y hy =>
      hf t y (List.mem_cons_of_mem _ (pieces_subset_of_mem_items hx hy))
    exact ⟨hall x hx, readsBackText_of_typed (hall x hx) hfx, ih x hx hfx⟩

/-! ## Truncated records -/

/-- A record's text cut before its closing bracket is refused, by `readText` and by `fromText`
with the same error, and the error is a cut fault: an unexpected end or a missing closing
bracket where the text ends, or an invalid token where a bare token starts that the cut falls
strictly inside. -/
theorem truncated_text_fails {r : ι} {v : Value} (hv : S.Typed (.record r) v)
    (hf : S.FloatsReadBack (.record r) v) {p : String}
    (hp : p.toList <+: (S.toText (.record r) v).toList)
    (hshort : p.utf8ByteSize + 1 < (S.toText (.record r) v).utf8ByteSize) :
    ∃ e, (S.readText (.record r) (S.default (.record r)) (.ofString p)).fault = some e ∧
      S.fromText (.record r) p = .error e ∧
      TextToken.CutFault (S.tokens (.record r) v) 0 p.utf8ByteSize (some e) := by
  have hbytes : p.utf8ByteSize = utf8Length p.toList := by
    rw [← utf8ByteSize_ofList, String.ofList_toList]
  have hsize := utf8ByteSize_toText hv
  have htext : (S.toText (.record r) v).toList = S.textBody (.record r) v ++ [' '] := by
    rw [toText, String.toList_ofList, textOf_eq hv]
  -- the cut falls before the closing bracket, so the prefix is a proper prefix of the body
  have hcut : p.toList <+: S.textBody (.record r) v := by
    rw [htext] at hp
    rcases prefix_append_cases hp with h | ⟨rest, hrest, hne, -⟩
    · exact h
    · have := utf8Length_lt_of_prefix List.nil_prefix hne.symm
      rw [hrest, utf8Length_append] at hbytes
      simp only [utf8Length_nil] at this
      omega
  have hproper : p.toList ≠ S.textBody (.record r) v := by
    intro heq
    rw [heq] at hbytes
    omega
  have hreader : TextReader.ofString p = ⟨0, p.toList⟩ := rfl
  obtain ⟨hout, hwhole⟩ := readsCut_of_typed hv hf _ (S.typed_default _) 0 p.toList hcut
  rw [Nat.zero_add, ← hbytes] at hout
  rw [hreader]
  -- a record takes all of a prefix only when it is the whole text
  rcases hout with ⟨hok, -⟩ | hfault
  · rcases hwhole hok with h | ⟨t, ht⟩
    · exact absurd h hproper
    · cases ht
  obtain ⟨e, he⟩ := Option.ne_none_iff_exists'.mp hfault.ne_none
  refine ⟨e, he, ?_, he ▸ hfault⟩
  simp [fromText, hreader, he]

end Schema

/-- The flag record holding true, cut inside its flag: the shortened word is refused. -/
theorem flag_cut_inside_word_fails :
    ∃ e, (catalog.readText (.record .unlisted) (catalog.default (.record .unlisted))
        (.ofString "[ tru")).fault = some e ∧
      catalog.fromText (.record .unlisted) "[ tru" = .error e ∧
      TextToken.CutFault (catalog.tokens (.record .unlisted) (.record [.bool true])) 0
        "[ tru".utf8ByteSize (some e) := by
  have hv : catalog.Typed (.record .unlisted) (.record [.bool true]) := by decide
  have hf : catalog.FloatsReadBack (.record .unlisted) (.record [.bool true]) := by
    intro t x hx f bits hbits _ _
    have hpieces : catalog.pieces (.record .unlisted) (.record [.bool true]) =
        [.leaf .bool (.bool true)] := by decide
    rw [hpieces, hbits] at hx
    simp at hx
  exact Schema.truncated_text_fails hv hf (by decide) (by decide)

end RecordWire
