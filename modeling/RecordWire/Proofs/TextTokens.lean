import RecordWire.Proofs.Typed
/-!
# Scalar tokens read back

The text form writes each scalar as a token and a space. This module shows that the reader takes
each token back: an integer's decimal digits, a boolean's word, a string between quotes with its
escapes undone, and a float's display digits. Reading is exact but for floats: every NaN reads
back as the format's canonical NaN (`ScalarType.canonical`), and a float that is not a NaN reads
back as its own pattern exactly when the format's reader takes its display text back, which
is the one fact assumed here about decimal floats.

A bare token ends at a blank, `]` or `}`; no token the writer makes holds one, so the space
after it ends it. The first character of every scalar's text ends no token either
(`StartsValue`), which is what lets blanks before a value be skipped without eating into it.
-/

namespace RecordWire

/-! ## Byte lengths -/

@[simp] theorem utf8Length_nil : utf8Length [] = 0 := rfl

@[simp] theorem utf8Length_cons (c : Char) (cs : List Char) :
    utf8Length (c :: cs) = c.utf8Size + utf8Length cs := rfl

@[simp] theorem utf8Length_append (as bs : List Char) :
    utf8Length (as ++ bs) = utf8Length as + utf8Length bs := by
  induction as with
  | nil => simp
  | cons a as ih => simp [ih, Nat.add_assoc]

/-- The space and the brackets that frame the text form take one byte each. -/
theorem utf8Size_frame :
    ' '.utf8Size = 1 ∧ '['.utf8Size = 1 ∧ ']'.utf8Size = 1 ∧ '{'.utf8Size = 1 ∧ '}'.utf8Size = 1 :=
  ⟨rfl, rfl, rfl, rfl, rfl⟩

theorem utf8ByteSize_ofList (cs : List Char) : (String.ofList cs).utf8ByteSize = utf8Length cs := by
  rw [String.utf8ByteSize_ofList]
  induction cs with
  | nil => rfl
  | cons c cs ih => simp [String.utf8Len_cons, ih, Nat.add_comm]

/-! ## Characters that start a value -/

/-- A text that starts with a character ending no bare token: neither a blank, nor `]`, nor
`}`. Every value's text starts so. -/
def StartsValue (cs : List Char) : Prop := ∃ c rest, cs = c :: rest ∧ TextReader.endsToken c = false

theorem StartsValue.append {cs : List Char} (h : StartsValue cs) (ds : List Char) :
    StartsValue (cs ++ ds) := by
  obtain ⟨c, rest, rfl, hc⟩ := h
  exact ⟨c, rest ++ ds, rfl, hc⟩

theorem endsToken_of_isDigit {c : Char} (h : c.isDigit = true) : TextReader.endsToken c = false := by
  have hc : 48 ≤ c.toNat ∧ c.toNat ≤ 57 := by
    simp only [Char.isDigit, Bool.and_eq_true, decide_eq_true_eq] at h
    exact ⟨h.1, h.2⟩
  -- digits lie between the control characters and the letters, apart from every blank
  have hblank : isBlank c = false := by
    simp only [isBlank, blankRanges, List.any_cons, List.any_nil, Bool.or_eq_false_iff,
      Bool.and_eq_false_iff, decide_eq_false_iff_not, and_true]
    omega
  have hclose : c ≠ ']' := fun h => by subst h; simp at hc
  have hbrace : c ≠ '}' := fun h => by subst h; simp at hc
  simp [TextReader.endsToken, hblank, hclose, hbrace]

/-- The fixed words of the text form (the float words, the minus sign and the two booleans)
are bare tokens. -/
theorem word_token {s : String} (hs : s ∈ ["NaN", "inf", "-inf", "-", "true", "false"]) :
    s.toList ≠ [] ∧ ∀ c ∈ s.toList, TextReader.endsToken c = false := by
  simp only [List.mem_cons, List.not_mem_nil, or_false] at hs
  -- each character is compared with the blank ranges and the two closing brackets
  rcases hs with rfl | rfl | rfl | rfl | rfl | rfl <;>
    simp only [String.reduceToList, List.forall_mem_cons, List.not_mem_nil, ne_eq, reduceCtorEq,
      not_false_eq_true, IsEmpty.forall_iff, implies_true, and_true,
      TextReader.endsToken, isBlank, blankRanges, List.any_cons, List.any_nil, Char.reduceToNat,
      Nat.reduceLeDiff, Char.reduceBEq, decide_true, decide_false, Bool.and_false, Bool.and_true,
      Bool.or_self]

namespace TextReader

/-! ## Reader steps -/

theorem skipBlanks_eq (r : TextReader) :
    r.skipBlanks = ⟨r.pos + utf8Length (r.rest.takeWhile isBlank), r.rest.dropWhile isBlank⟩ := by
  have hsplit : r.rest.takeWhile isBlank ++ r.rest.dropWhile isBlank = r.rest :=
    List.takeWhile_append_dropWhile
  have hdrop : r.rest.drop (r.rest.takeWhile isBlank).length = r.rest.dropWhile isBlank := by
    have h := @List.drop_left _ (r.rest.takeWhile isBlank) (r.rest.dropWhile isBlank)
    rwa [hsplit] at h
  simp only [skipBlanks, skip, hdrop]

theorem skipBlanks_of_startsValue (pos : Nat) {cs : List Char} (h : StartsValue cs) :
    skipBlanks ⟨pos, cs⟩ = ⟨pos, cs⟩ := by
  obtain ⟨c, rest, rfl, hc⟩ := h
  have hblank : isBlank c = false := by
    simp only [endsToken, Bool.or_eq_false_iff] at hc
    exact hc.1.1
  simp [skipBlanks_eq, hblank]

theorem skipBlanks_space_cons (pos : Nat) {c : Char} (cs : List Char) (hc : isBlank c = false) :
    skipBlanks ⟨pos, ' ' :: c :: cs⟩ = ⟨pos + 1, c :: cs⟩ := by
  simp [skipBlanks_eq, hc, show isBlank ' ' = true by decide]
  rfl

theorem skipBlanks_space (pos : Nat) {cs : List Char} (h : StartsValue cs) :
    skipBlanks ⟨pos, ' ' :: cs⟩ = ⟨pos + 1, cs⟩ := by
  obtain ⟨c, rest, rfl, hc⟩ := h
  have hblank : isBlank c = false := by
    simp only [endsToken, Bool.or_eq_false_iff] at hc
    exact hc.1.1
  exact skipBlanks_space_cons pos rest hblank

theorem expect_cons (pos : Nat) (c : Char) (cs : List Char) (kind : ParseKind) :
    expect ⟨pos, c :: cs⟩ c kind = ⟨.ok (), ⟨pos + c.utf8Size, cs⟩⟩ := by
  simp [expect, skip, utf8Length]

theorem eat_cons (pos : Nat) (c : Char) (cs : List Char) :
    eat ⟨pos, c :: cs⟩ c = (true, ⟨pos + c.utf8Size, cs⟩) := by
  simp [eat, skip, utf8Length]

theorem eat_of_ne {pos : Nat} {c d : Char} {cs : List Char} (h : d ≠ c) :
    eat ⟨pos, d :: cs⟩ c = (false, ⟨pos, d :: cs⟩) := by
  simp [eat, h]

/-- A bare token ends at the first character that ends tokens. -/
theorem takeToken_append {pos : Nat} {tok rest : List Char} {c : Char}
    (htok : ∀ d ∈ tok, endsToken d = false) (hc : endsToken c = true) :
    takeToken ⟨pos, tok ++ c :: rest⟩ = (tok, ⟨pos + utf8Length tok, c :: rest⟩) := by
  have htake : (tok ++ c :: rest).takeWhile (fun d => !endsToken d) = tok := by
    rw [List.takeWhile_append_of_pos (by simpa using htok)]
    simp [hc]
  simp [takeToken, skip, htake]

/-- A token that the reader takes is read and consumed, and the reader stops at what ended it. -/
theorem parseToken_append {α : Type} {read? : List Char → Option α} {a : α} {pos : Nat}
    {tok rest : List Char} {c : Char} (htok : ∀ d ∈ tok, endsToken d = false)
    (hne : tok ≠ []) (hc : endsToken c = true) (hread : read? tok = some a) :
    parseToken ⟨pos, tok ++ c :: rest⟩ read? = ⟨.ok a, ⟨pos + utf8Length tok, c :: rest⟩⟩ := by
  simp [parseToken, takeToken_append htok hc, hne, hread]

/-! ## Quoted strings -/

/-- Undoing the escapes of an escaped body stops at the closing quote. -/
theorem unescape_escapeChars (cs rest : List Char) :
    unescape (escapeChars cs ++ '"' :: rest) = some (cs, rest) := by
  induction cs with
  | nil => simp [escapeChars, unescape]
  | cons c cs ih =>
    -- a quote or a backslash is written after a backslash, line breaks as letters after one
    by_cases hq : c = '"' ∨ c = '\\'
    · rcases hq with rfl | rfl <;> simp [escapeChars, unescape, ih]
    · by_cases hn : c = '\n'
      · subst hn
        simp [escapeChars, unescape, ih]
      · by_cases hr : c = '\r'
        · subst hr
          simp [escapeChars, unescape, ih]
        · have hq' : c ≠ '"' ∧ c ≠ '\\' := not_or.mp hq
          simp only [escapeChars, if_neg hq, if_neg hn, if_neg hr, List.cons_append]
          rw [unescape.eq_5 _ _ hq'.1 (fun _ _ h _ => hq'.2 h) (fun h _ => hq'.2 h)]
          simp [ih]

/-- A quoted string reads back, and the reader stops right after its closing quote. -/
theorem readQuoted_quoteChars (pos : Nat) (cs rest : List Char) :
    readQuoted ⟨pos, quoteChars cs ++ rest⟩ = ⟨.ok (String.ofList cs), ⟨pos + utf8Length (quoteChars cs), rest⟩⟩ := by
  have hbody : quoteChars cs ++ rest = '"' :: (escapeChars cs ++ '"' :: rest) := by
    simp [quoteChars]
  have hlen : utf8Length (quoteChars cs ++ rest) - utf8Length rest = utf8Length (quoteChars cs) := by
    simp
  simp only [readQuoted, hbody, unescape_escapeChars, total]
  rw [← hbody, Nat.add_sub_assoc (by simp), hlen]

end TextReader

/-! ## Integer tokens -/

theorem digitsValue_toDigits (n : Nat) : digitsValue (Nat.toDigits 10 n) = n :=
  Nat.ofDigitChars_ten_toDigits

theorem toDigits_isDigit (n : Nat) : ∀ c ∈ Nat.toDigits 10 n, c.isDigit = true :=
  fun _ hc => Nat.isDigit_of_mem_toDigits (by decide) (by decide) hc

theorem toDigits_cons (n : Nat) : ∃ d ds, Nat.toDigits 10 n = d :: ds ∧ d.isDigit = true := by
  obtain ⟨d, ds, h⟩ := List.exists_cons_of_ne_nil (@Nat.toDigits_ne_nil n 10)
  exact ⟨d, ds, h, toDigits_isDigit n d (by simp [h])⟩

theorem not_sign_of_isDigit {d : Char} (h : d.isDigit = true) : d ≠ '+' ∧ d ≠ '-' := by
  constructor <;> (intro he; subst he; simp [Char.isDigit] at h)

/-- An unsigned decimal reads as its value when it fits. -/
theorem readInt?_toDigits (signed : Bool) (bits m : Nat) :
    readInt? signed bits (Nat.toDigits 10 m) =
      if (if signed then -Int.pow 2 (bits - 1) ≤ (m : Int) ∧ (m : Int) < Int.pow 2 (bits - 1)
        else (m : Int) < Int.pow 2 bits) then some (m : Int) else none := by
  obtain ⟨d, ds, hds, hd⟩ := toDigits_cons m
  have hall : (Nat.toDigits 10 m).all Char.isDigit = true := List.all_eq_true.mpr (toDigits_isDigit m)
  have hval := digitsValue_toDigits m
  obtain ⟨hplus, hminus⟩ := not_sign_of_isDigit hd
  rw [hds] at hall hval ⊢
  simp [readInt?, hplus, hminus, hall, hval]

/-- A negative decimal reads as its value for a signed type when it fits. -/
theorem readInt?_neg_toDigits (bits m : Nat) :
    readInt? true bits ('-' :: Nat.toDigits 10 m) =
      if -Int.pow 2 (bits - 1) ≤ -(m : Int) ∧ -(m : Int) < Int.pow 2 (bits - 1)
      then some (-(m : Int)) else none := by
  have hne : Nat.toDigits 10 m ≠ [] := Nat.toDigits_ne_nil
  have hall : (Nat.toDigits 10 m).all Char.isDigit = true := List.all_eq_true.mpr (toDigits_isDigit m)
  simp [readInt?, hne, hall, digitsValue_toDigits]

theorem readInt?_toString {t : ScalarType} {signed : Bool} {bits : Nat} {n : Int}
    (hb : t.intBits? = some (signed, bits)) (hr : t.inRange n = true) :
    readInt? signed bits (toString n).toList = some n := by
  cases n with
  | ofNat m =>
    have htext : (toString (Int.ofNat m)).toList = Nat.toDigits 10 m := by
      simp [toString, Int.repr, Nat.repr_eq_ofList_toDigits]
    rw [htext, readInt?_toDigits]
    cases signed <;> simp_all [ScalarType.inRange]
  | negSucc m =>
    have htext : (toString (Int.negSucc m)).toList = '-' :: Nat.toDigits 10 (m + 1) := by
      simp [toString, Int.repr, Nat.repr_eq_ofList_toDigits]
    cases signed with
    | false => simp [ScalarType.inRange, hb] at hr
    | true =>
      rw [htext, readInt?_neg_toDigits]
      simp only [ScalarType.inRange, hb, Bool.and_eq_true, decide_eq_true_eq] at hr
      have hneg : -((m + 1 : Nat) : Int) = Int.negSucc m := by simp [Int.negSucc_eq]
      rw [hneg, if_pos hr]

/-! ## Float tokens -/

theorem positional_chars (d : Decimal) : ∀ c ∈ d.positional.toList, c.isDigit = true ∨ c = '.' := by
  have hds := toDigits_isDigit d.digits
  intro c hc
  simp only [Decimal.positional] at hc
  split_ifs at hc
  · simp at hc
    rcases hc with rfl | rfl | ⟨-, rfl⟩ | hc
    all_goals first | (right; rfl) | (left; decide) | (left; exact hds c hc)
  · simp at hc
    rcases hc with hc | rfl | hc
    · exact .inl (hds c (List.mem_of_mem_take hc))
    · exact .inr rfl
    · exact .inl (hds c (List.mem_of_mem_drop hc))
  · simp at hc
    rcases hc with hc | ⟨-, rfl⟩
    · exact .inl (hds c hc)
    · exact .inl (by decide)

theorem positional_ne_nil (d : Decimal) : d.positional.toList ≠ [] := by
  have hne : Nat.toDigits 10 d.digits ≠ [] := Nat.toDigits_ne_nil
  simp only [Decimal.positional]
  split_ifs <;> simp [hne]

theorem endsToken_of_numeral {c : Char} (h : c.isDigit = true ∨ c = '.' ∨ c = '-') :
    TextReader.endsToken c = false := by
  rcases h with h | rfl | rfl
  · exact endsToken_of_isDigit h
  all_goals decide

namespace FloatFormat

/-- A float's display text is a bare token: not empty, and with no character that ends one. -/
theorem display_token (f : FloatFormat) (bits : Nat) :
    (f.display bits).toList ≠ [] ∧ ∀ c ∈ (f.display bits).toList, TextReader.endsToken c = false := by
  unfold display
  split
  · exact word_token (by simp)
  · split_ifs
    · exact word_token (by simp)
    · exact word_token (by simp)
  · rename_i neg mant exp _
    -- a sign, then a zero or the positional digits
    have hsign : ∀ c ∈ (if neg = true then "-" else "").toList, TextReader.endsToken c = false := by
      split_ifs
      · exact (word_token (by simp)).2
      · simp
    by_cases hzero : mant = 0
    · simp only [hzero, if_true, String.toList_append, List.mem_append]
      refine ⟨by simp, fun c hc => hc.elim (hsign c) fun hc => ?_⟩
      simp at hc
      subst hc
      exact endsToken_of_numeral (.inl (by decide))
    · simp only [hzero, if_false, String.toList_append, List.mem_append]
      refine ⟨fun hnil => positional_ne_nil _ (List.append_eq_nil_iff.mp hnil).2,
        fun c hc => hc.elim (hsign c) fun hc => ?_⟩
      rcases positional_chars _ c hc with h | h
      · exact endsToken_of_numeral (.inl h)
      · exact endsToken_of_numeral (.inr (.inl h))

/-- Every NaN displays as `NaN`, which reads as the canonical NaN. -/
theorem read?_display_nan {f : FloatFormat} {bits : Nat} (h : f.decode bits = .nan) :
    f.read? (f.display bits).toList = some f.canonicalNaN := by
  have hnan : f.display bits = "NaN" := by simp [display, h]
  rw [hnan]
  rfl

end FloatFormat

/-! ## Scalars -/

theorem startsValue_of_token {cs : List Char} (hne : cs ≠ [])
    (h : ∀ c ∈ cs, TextReader.endsToken c = false) : StartsValue cs := by
  obtain ⟨c, rest, rfl⟩ := List.exists_cons_of_ne_nil hne
  exact ⟨c, rest, rfl, h c List.mem_cons_self⟩

theorem intToken (n : Int) :
    (toString n).toList ≠ [] ∧ ∀ c ∈ (toString n).toList, TextReader.endsToken c = false := by
  cases n with
  | ofNat m =>
    have htext : (toString (Int.ofNat m)).toList = Nat.toDigits 10 m := by
      simp [toString, Int.repr, Nat.repr_eq_ofList_toDigits]
    rw [htext]
    exact ⟨Nat.toDigits_ne_nil, fun c hc => endsToken_of_isDigit (toDigits_isDigit m c hc)⟩
  | negSucc m =>
    have htext : (toString (Int.negSucc m)).toList = '-' :: Nat.toDigits 10 (m + 1) := by
      simp [toString, Int.repr, Nat.repr_eq_ofList_toDigits]
    rw [htext]
    refine ⟨List.cons_ne_nil _ _, fun c hc => ?_⟩
    rcases List.mem_cons.mp hc with rfl | hc
    · exact endsToken_of_numeral (.inr (.inr rfl))
    · exact endsToken_of_isDigit (toDigits_isDigit _ c hc)

namespace ScalarType

/-- The value that reading a scalar's text gives back: a NaN becomes its format's canonical NaN,
and every other value stays as it is. -/
def canonical (t : ScalarType) : Value → Value
  | .float bits =>
    match t.floatFormat? with
    | some f => if f.decode bits = .nan then .float f.canonicalNaN else .float bits
    | none => .float bits
  | v => v

/-- The one fact about decimal floats that reading text relies on, for the value `v`: a float
that is not a NaN reads back from its display text. -/
def DisplayReadsBack (t : ScalarType) (v : Value) : Prop :=
  ∀ f bits, v = .float bits → t.floatFormat? = some f → f.decode bits ≠ .nan →
    f.read? (f.display bits).toList = some bits

theorem readText_of_ne_string {t : ScalarType} (ht : t ≠ .string) (r : TextReader) :
    t.readText r = r.parseToken t.readToken? := by
  cases t <;> first | rfl | exact absurd rfl ht

theorem readToken?_of_intBits {t : ScalarType} {signed : Bool} {bits : Nat}
    (hb : t.intBits? = some (signed, bits)) (tok : List Char) :
    t.readToken? tok = (readInt? signed bits tok).map .int := by
  cases t <;> simp_all [readToken?, intBits?, floatFormat?]

theorem readToken?_of_floatFormat {t : ScalarType} {f : FloatFormat}
    (hf : t.floatFormat? = some f) (tok : List Char) :
    t.readToken? tok = (f.read? tok).map .float := by
  cases t <;> simp_all [readToken?, floatFormat?]

theorem textChars_startsValue {t : ScalarType} {v : Value} (h : t.admits v = true) :
    StartsValue (t.textChars v) := by
  cases v with
  | int n => exact startsValue_of_token (intToken n).1 (intToken n).2
  | float bits =>
    exact startsValue_of_token (FloatFormat.display_token _ bits).1
      (FloatFormat.display_token _ bits).2
  | bool b =>
    cases b
    · exact ⟨'f', "alse".toList, by simp [textChars], by decide⟩
    · exact ⟨'t', "rue".toList, by simp [textChars], by decide⟩
  | str s =>
    exact ⟨'"', escapeChars s.toList ++ ['"'], by simp [textChars, quoteChars],
      by decide⟩
  | record _ | items _ => simp [admits] at h

/-- A scalar of the type reads back from its text, as its canonical value, and the reader
stops at the space after it. -/
theorem readText_textChars {t : ScalarType} {v : Value} (h : t.admits v = true)
    (hfloat : t.DisplayReadsBack v) (pos : Nat) (rest : List Char) :
    t.readText ⟨pos, t.textChars v ++ ' ' :: rest⟩ =
      ⟨.ok (t.canonical v), ⟨pos + utf8Length (t.textChars v), ' ' :: rest⟩⟩ := by
  have hspace : TextReader.endsToken ' ' = true := by decide
  cases v with
  | int n =>
    simp only [admits, Bool.and_eq_true, Option.isSome_iff_exists] at h
    obtain ⟨⟨⟨signed, bits⟩, hb⟩, hrange⟩ := h
    have ht : t ≠ .string := by rintro rfl; simp [intBits?] at hb
    have hread : t.readToken? (toString n).toList = some (.int n) := by
      rw [readToken?_of_intBits hb, readInt?_toString hb hrange]
      rfl
    rw [readText_of_ne_string ht]
    exact TextReader.parseToken_append (intToken n).2 (intToken n).1 hspace hread
  | float bits =>
    simp only [admits] at h
    split at h
    · next f hf =>
      have ht : t ≠ .string := by rintro rfl; simp [floatFormat?] at hf
      have htext : t.textChars (.float bits) = (f.display bits).toList := by
        simp [textChars, hf]
      -- a NaN reads back as the canonical one; any other float by the assumption
      have hread : t.readToken? (f.display bits).toList = some (t.canonical (.float bits)) := by
        rw [readToken?_of_floatFormat hf]
        by_cases hnan : f.decode bits = .nan
        · simp [FloatFormat.read?_display_nan hnan, canonical, hf, hnan]
        · simp [hfloat f bits rfl hf hnan, canonical, hf, hnan]
      rw [readText_of_ne_string ht, htext]
      exact TextReader.parseToken_append (FloatFormat.display_token f bits).2
        (FloatFormat.display_token f bits).1 hspace hread
    · simp at h
  | bool b =>
    have ht : t = .bool := by simpa [admits] using h
    subst ht
    rw [readText_of_ne_string (by decide)]
    have hword : textChars .bool (.bool b) ≠ [] ∧
        ∀ c ∈ textChars .bool (.bool b), TextReader.endsToken c = false := by
      cases b <;> exact word_token (by simp)
    refine TextReader.parseToken_append hword.2 hword.1 hspace ?_
    cases b <;> simp [textChars, readToken?, readBool?, canonical]
  | str s =>
    have ht : t = .string := by simpa [admits] using h
    subst ht
    simp only [readText, textChars, TextReader.readQuoted_quoteChars, String.ofList_toList]
    rfl
  | record _ | items _ => simp [admits] at h

end ScalarType

end RecordWire
