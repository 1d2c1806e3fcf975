import RecordWire.Proofs.TextTokens
import RecordWire.Accessor
import RecordWire.Catalog
/-!
# The text form as a grammar

The text form of a value, read off its shape as a list of tokens (`Schema.tokens`): a record is
an opening bracket, its members' tokens in declaration order and a closing bracket; a
collection is an opening brace, its elements' tokens in iteration order and a closing brace; a
scalar is one token. A string is written quoted, a boolean as its word, an integer as its
decimal numeral, an entry as the numeral of its byte and a float as its display text
(`TextToken.chars`). The text is every token followed by one space (`TextToken.render`).

The writer that runs checks every value against the type it is held as, and can fail anywhere
inside a value; on a value of its shape every check passes and it writes the text form
(`writeValueText_of_typed`), so writing a well-typed record never fails and gives exactly the
tokens' text (`to_text_follows_grammar`). Every token is written as a nonempty text with no blank at
either end and no line break (`BareText`), so the one space after it is the only blank between
it and the next token, and a record starts with `[ ` and ends with `] ` on a single line.
-/

namespace RecordWire

/-- A token of the text form: the brackets of a record, the braces of a collection, or a scalar
of a type. -/
inductive TextToken where
  | openRecord
  | closeRecord
  | openCollection
  | closeCollection
  | scalar (t : ScalarType) (v : Value)
  deriving DecidableEq, Repr

/-- A written token: nonempty, with no blank at either end and no line break anywhere. -/
structure BareText (cs : List Char) : Prop where
  ne_nil : cs ≠ []
  head : ∀ c ∈ cs.head?, isBlank c = false
  last : ∀ c ∈ cs.getLast?, isBlank c = false
  no_line_feed : '\n' ∉ cs
  no_return : '\r' ∉ cs

namespace TextToken

/-- How a token is written. A string is quoted, a boolean is its word, an integer its decimal
numeral and an entry the numeral of its byte, and a float its display text in its format. -/
def chars : TextToken → List Char
  | openRecord => ['[']
  | closeRecord => [']']
  | openCollection => ['{']
  | closeCollection => ['}']
  | scalar .string (.str s) => (quote s).toList
  | scalar .bool (.bool b) => if b then "true".toList else "false".toList
  | scalar .f32 (.float bits) => (FloatFormat.single.display bits).toList
  | scalar .f64 (.float bits) => (FloatFormat.double.display bits).toList
  | scalar .entry (.int n) => (toString n.toNat).toList
  | scalar _ (.int n) => (toString n).toList
  | scalar _ _ => []

/-- Tokens written one after another, each followed by one space. -/
def render (ts : List TextToken) : List Char := ts.flatMap fun t => t.chars ++ [' ']

@[simp] theorem render_nil : render [] = [] := rfl

@[simp] theorem render_cons (t : TextToken) (ts : List TextToken) :
    render (t :: ts) = t.chars ++ ' ' :: render ts := by
  simp [render]

@[simp] theorem render_append (ts us : List TextToken) :
    render (ts ++ us) = render ts ++ render us := by
  simp [render]

theorem render_flatMap {α : Type} (l : List α) (f : α → List TextToken) :
    render (l.flatMap f) = l.flatMap fun a => render (f a) := by
  simp only [render, List.flatMap_assoc]

end TextToken

/-! ## Written tokens -/

theorem isBlank_of_endsToken {c : Char} (h : TextReader.endsToken c = false) :
    isBlank c = false := by
  simp only [TextReader.endsToken, Bool.or_eq_false_iff] at h
  exact h.1.1

/-- A bare token of the reader is written so: it holds no blank at all. -/
theorem bareText_of_token {cs : List Char} (hne : cs ≠ [])
    (h : ∀ c ∈ cs, TextReader.endsToken c = false) : BareText cs where
  ne_nil := hne
  head c hc := isBlank_of_endsToken (h c (List.mem_of_mem_head? hc))
  last c hc := isBlank_of_endsToken (h c (List.mem_of_mem_getLast? hc))
  no_line_feed hn := absurd (h _ hn) (by decide)
  no_return hr := absurd (h _ hr) (by decide)

theorem bareText_single {c : Char} (hc : isBlank c = false) : BareText [c] where
  ne_nil := List.cons_ne_nil _ _
  head := by simpa using hc
  last := by simpa using hc
  no_line_feed hn := by
    rw [List.mem_singleton] at hn
    subst hn
    exact absurd hc (by decide)
  no_return hr := by
    rw [List.mem_singleton] at hr
    subst hr
    exact absurd hc (by decide)

/-- The escaped body of a quoted string holds no line break: each is written as a backslash and
a letter. -/
theorem line_breaks_not_mem_escapeChars (cs : List Char) :
    '\n' ∉ escapeChars cs ∧ '\r' ∉ escapeChars cs := by
  induction cs with
  | nil => simp [escapeChars]
  | cons c cs ih =>
    unfold escapeChars
    split_ifs with hq hn hr
    · rcases hq with rfl | rfl <;> simp [ih]
    · simp [ih]
    · simp [ih]
    · simp only [List.mem_cons, not_or]
      exact ⟨⟨Ne.symm hn, ih.1⟩, ⟨Ne.symm hr, ih.2⟩⟩

theorem bareText_quoteChars (cs : List Char) : BareText (quoteChars cs) where
  ne_nil := by simp [quoteChars]
  head c hc := by
    rw [quoteChars, List.cons_append, List.head?_cons, Option.mem_def, Option.some.injEq] at hc
    subst hc
    decide
  last c hc := by
    rw [quoteChars, List.getLast?_concat, Option.mem_def, Option.some.injEq] at hc
    subst hc
    decide
  no_line_feed := by simp [quoteChars, (line_breaks_not_mem_escapeChars cs).1]
  no_return := by simp [quoteChars, (line_breaks_not_mem_escapeChars cs).2]

/-! ## Quoted strings -/

/-- The escaped body of a quoted string, and the characters it stands for. A character stands
for itself, unless it is a double quote or a backslash, which an escaping backslash precedes, or
a line feed or a carriage return, which are written as a backslash and `n` or `r`. -/
inductive EscapedBody : List Char → List Char → Prop
  | nil : EscapedBody [] []
  | plain {c : Char} {body s : List Char} (hq : c ≠ '"') (hb : c ≠ '\\') (hn : c ≠ '\n')
      (hr : c ≠ '\r') : EscapedBody body s → EscapedBody (c :: body) (c :: s)
  | escaped {c : Char} {body s : List Char} (h : c = '"' ∨ c = '\\') :
      EscapedBody body s → EscapedBody ('\\' :: c :: body) (c :: s)
  | lineFeed {body s : List Char} :
      EscapedBody body s → EscapedBody ('\\' :: 'n' :: body) ('\n' :: s)
  | carriageReturn {body s : List Char} :
      EscapedBody body s → EscapedBody ('\\' :: 'r' :: body) ('\r' :: s)

theorem escapedBody_escapeChars (cs : List Char) : EscapedBody (escapeChars cs) cs := by
  induction cs with
  | nil => exact .nil
  | cons c cs ih =>
    -- the special characters in the order the escaper tests them
    unfold escapeChars
    split_ifs with hq hn hr
    · exact .escaped hq ih
    · subst hn
      exact .lineFeed ih
    · subst hr
      exact .carriageReturn ih
    · exact .plain (fun h => hq (.inl h)) (fun h => hq (.inr h)) hn hr ih

theorem toList_quote (s : String) : (quote s).toList = '"' :: escapeChars s.toList ++ ['"'] := by
  simp [quote, quoteChars]

/-- A quoted string is a double quote, an escaped body that stands for the string, and a
double quote, with no line break anywhere. Read from the front of any text, it gives the string
back and moves the reader past it, by its length in bytes. -/
theorem quote_reads_back (s t : String) (pos : Nat) :
    (∃ body, (quote s).toList = '"' :: body ++ ['"'] ∧ EscapedBody body s.toList) ∧
    '\n' ∉ (quote s).toList ∧ '\r' ∉ (quote s).toList ∧
    TextReader.readQuoted ⟨pos, (quote s ++ t).toList⟩ =
      ⟨.ok s, ⟨pos + (quote s).utf8ByteSize, t.toList⟩⟩ := by
  have hlines := line_breaks_not_mem_escapeChars s.toList
  refine ⟨⟨_, toList_quote s, escapedBody_escapeChars _⟩, ?_, ?_, ?_⟩
  · simp [toList_quote, hlines.1]
  · simp [toList_quote, hlines.2]
  · rw [String.toList_append, quote, String.toList_ofList, utf8ByteSize_ofList,
      TextReader.readQuoted_quoteChars, String.ofList_toList]

theorem toString_toNat {n : Int} (h : 0 ≤ n) : toString n.toNat = toString n := by
  obtain ⟨m, rfl⟩ := Int.eq_ofNat_of_zero_le h
  rfl

namespace TextToken

theorem chars_scalar {t : ScalarType} {v : Value} (h : t.admits v = true) :
    (scalar t v).chars = t.textChars v := by
  cases v with
  | int n =>
    cases t
    case entry =>
      -- an entry is a byte, so its numeral is the integer's
      have h0 : 0 ≤ n := by
        simp only [ScalarType.admits, ScalarType.inRange, ScalarType.intBits?, Option.isSome_some,
          Bool.true_and, Bool.and_eq_true, decide_eq_true_eq] at h
        exact h.1
      simp [chars, ScalarType.textChars, toString_toNat h0]
    -- every other type writes the integer's own numeral
    all_goals rfl
  | float bits =>
    cases t
    all_goals first | rfl | simp [ScalarType.admits, ScalarType.floatFormat?] at h
  | bool b =>
    have ht : t = .bool := by simpa [ScalarType.admits] using h
    subst ht
    rfl
  | str s =>
    have ht : t = .string := by simpa [ScalarType.admits] using h
    subst ht
    simp [chars, quote, ScalarType.textChars]
  | record _ | items _ => simp [ScalarType.admits] at h

/-- A scalar of its type is written as a bare text on one line. -/
theorem bareText_scalar {t : ScalarType} {v : Value} (h : t.admits v = true) :
    BareText (scalar t v).chars := by
  rw [chars_scalar h]
  cases v with
  | int n => exact bareText_of_token (intToken n).1 (intToken n).2
  | float bits =>
    exact bareText_of_token (FloatFormat.display_token _ bits).1
      (FloatFormat.display_token _ bits).2
  | bool b =>
    cases b
    · show BareText "false".toList
      exact bareText_of_token (word_token (by simp)).1 (word_token (by simp)).2
    · show BareText "true".toList
      exact bareText_of_token (word_token (by simp)).1 (word_token (by simp)).2
  | str s => exact bareText_quoteChars s.toList
  | record _ | items _ => simp [ScalarType.admits] at h

end TextToken

/-! ## The tokens of a value -/

namespace Schema

variable {ι : Type} (S : Schema ι)

mutual
/-- The tokens of the text form of a value of shape `s`. -/
def tokens : Shape ι → Value → List TextToken
  | .scalar t, v => [.scalar t v]
  | .record r, .record vs =>
    .openRecord :: tokensMembers (S.descriptor r).members vs ++ [.closeRecord]
  | .collection _ e, .items xs => .openCollection :: tokensItems e xs ++ [.closeCollection]
  | _, _ => []
/-- The tokens of a record's members, one after another. -/
def tokensMembers : List (Member ι) → List Value → List TextToken
  | m :: ms, v :: vs => tokens m.shape v ++ tokensMembers ms vs
  | _, _ => []
/-- The tokens of a collection's elements, one after another. -/
def tokensItems (e : Shape ι) : List Value → List TextToken
  | v :: vs => tokens e v ++ tokensItems e vs
  | [] => []
end

/-- A record's tokens: a bracket, each member's tokens in declaration order, a bracket. -/
theorem tokens_record (r : ι) (vs : List Value) :
    S.tokens (.record r) (.record vs) =
      .openRecord :: ((S.descriptor r).members.zip vs).flatMap (fun p => S.tokens p.1.shape p.2) ++
        [.closeRecord] := by
  have members : ∀ (ms : List (Member ι)) (vs : List Value),
      S.tokensMembers ms vs = (ms.zip vs).flatMap fun p => S.tokens p.1.shape p.2 := by
    intro ms
    induction ms with
    | nil => simp [tokensMembers]
    | cons m ms ih => intro vs; cases vs <;> simp [tokensMembers, ih]
  simp [tokens, members]

theorem tokens_collection (k : CollectionKind) (e : Shape ι) (xs : List Value) :
    S.tokens (.collection k e) (.items xs) =
      .openCollection :: xs.flatMap (S.tokens e) ++ [.closeCollection] := by
  have items : ∀ xs : List Value, S.tokensItems e xs = xs.flatMap (S.tokens e) := by
    intro xs
    induction xs with
    | nil => simp [tokensItems]
    | cons x xs ih => simp [tokensItems, ih]
  simp [tokens, items]

theorem textOf_record (r : ι) (vs : List Value) :
    S.textOf (.record r) (.record vs) =
      '[' :: ' ' :: ((S.descriptor r).members.zip vs).flatMap (fun p => S.textOf p.1.shape p.2) ++
        [']', ' '] := by
  have members : ∀ (ms : List (Member ι)) (vs : List Value),
      S.textMembers ms vs = (ms.zip vs).flatMap fun p => S.textOf p.1.shape p.2 := by
    intro ms
    induction ms with
    | nil => simp [textMembers]
    | cons m ms ih => intro vs; cases vs <;> simp [textMembers, ih]
  simp [textOf, members]

theorem textOf_collection (k : CollectionKind) (e : Shape ι) (xs : List Value) :
    S.textOf (.collection k e) (.items xs) =
      '{' :: ' ' :: xs.flatMap (S.textOf e) ++ ['}', ' '] := by
  have items : ∀ xs : List Value, S.textItems e xs = xs.flatMap (S.textOf e) := by
    intro xs
    induction xs with
    | nil => simp [textItems]
    | cons x xs ih => simp [textItems, ih]
  simp [textOf, items]

variable {S}

/-- The text of a well-typed value is its tokens, each followed by one space. -/
theorem textOf_eq_render {s : Shape ι} {v : Value} (hv : S.Typed s v) :
    S.textOf s v = TextToken.render (S.tokens s v) := by
  induction hv with
  | @scalar t v h => simp [textOf, tokens, TextToken.chars_scalar h]
  | @record r vs _ _ ih =>
    rw [textOf_record, tokens_record, List.flatMap_congr ih]
    simp [TextToken.render_flatMap, TextToken.chars]
  | @collection k e xs _ _ ih =>
    rw [textOf_collection, tokens_collection, List.flatMap_congr ih]
    simp [TextToken.render_flatMap, TextToken.chars]

theorem bareText_framed {o c : TextToken} (ho : BareText o.chars) (hc : BareText c.chars)
    {α : Type} {l : List α} {f : α → List TextToken}
    (h : ∀ a ∈ l, ∀ tok ∈ f a, BareText tok.chars) :
    ∀ tok ∈ o :: l.flatMap f ++ [c], BareText tok.chars := by
  intro tok htok
  simp only [List.mem_cons, List.mem_append, List.mem_flatMap, List.not_mem_nil, or_false] at htok
  rcases htok with (rfl | ⟨a, ha, hmem⟩) | rfl
  · exact ho
  · exact h a ha tok hmem
  · exact hc

/-- Every token of a well-typed value is written as a bare text on one line. -/
theorem bareText_tokens {s : Shape ι} {v : Value} (hv : S.Typed s v) :
    ∀ tok ∈ S.tokens s v, BareText tok.chars := by
  induction hv with
  | @scalar t v h =>
    intro tok htok
    rw [tokens, List.mem_singleton] at htok
    subst htok
    exact TextToken.bareText_scalar h
  | @record r vs _ _ ih =>
    rw [tokens_record]
    refine bareText_framed ?_ ?_ ih <;> exact bareText_single (by decide)
  | @collection k e xs _ _ ih =>
    rw [tokens_collection]
    refine bareText_framed ?_ ?_ ih <;> exact bareText_single (by decide)

/-! ## The checked writer on values of their shapes -/

theorem thenText_ok (cs : List Char) (next : Unit → List Char × Option CodecError) :
    thenText (cs, none) next = (cs ++ (next ()).1, (next ()).2) := rfl

theorem writeMembersText_of_forall {ms : List (Member ι)} {ws : List Value}
    (h : ∀ p ∈ ms.zip ws, S.writeValueText p.1.shape p.2 = (S.textOf p.1.shape p.2, none)) :
    S.writeMembersText ms ws = (S.textMembers ms ws, none) := by
  induction ms generalizing ws with
  | nil => cases ws <;> simp [writeMembersText, textMembers]
  | cons m ms ih =>
    cases ws with
    | nil => simp [writeMembersText, textMembers]
    | cons w ws =>
      have hw : S.writeValueText m.shape w = (S.textOf m.shape w, none) := h (m, w) (by simp)
      have hrest := ih fun p hp => h p (List.mem_cons_of_mem _ hp)
      rw [writeMembersText, hw, thenText_ok, hrest, textMembers]

theorem writeItemsText_of_forall {e : Shape ι} {xs : List Value}
    (h : ∀ x ∈ xs, S.writeValueText e x = (S.textOf e x, none)) :
    S.writeItemsText e xs = (S.textItems e xs, none) := by
  induction xs with
  | nil => simp [writeItemsText, textItems]
  | cons x xs ih =>
    have hrest := ih fun y hy => h y (List.mem_cons_of_mem _ hy)
    rw [writeItemsText, h x List.mem_cons_self, thenText_ok, hrest, textItems]

/-- On a value of its shape every check passes, and the writer writes the text form. -/
theorem writeValueText_of_typed {s : Shape ι} {v : Value} (hv : S.Typed s v) :
    S.writeValueText s v = (S.textOf s v, none) := by
  induction hv with
  | @scalar t v h => simp [writeValueText, textOf, h]
  | @record r vs hlen _ ih =>
    rw [writeValueText, if_pos (Or.inr hlen), thenText_ok, writeMembersText_of_forall ih]
    simp [thenText, textOf]
  | @collection k e xs _ _ ih =>
    rw [writeValueText, thenText_ok, writeItemsText_of_forall ih]
    simp [thenText, textOf]

theorem renderText_of_typed [DecidableEq ι] {s : Shape ι} {v : Value} (hv : S.Typed s v) :
    S.renderText s v = .ok (S.toText s v) := by
  simp [renderText, Accessor.writeText, Accessor.get, Accessor.ownerShape, Accessor.shape,
    writeValueText_of_typed hv, toText]

theorem renderRecords_of_typed [DecidableEq ι] {s : Shape ι} {vs : List Value}
    (hvs : ∀ v ∈ vs, S.Typed s v) : S.renderRecords s vs = .ok (S.writeRecords s vs) := by
  induction vs with
  | nil => rfl
  | cons v vs ih =>
    rw [renderRecords, renderText_of_typed (hvs v List.mem_cons_self),
      ih fun w hw => hvs w (List.mem_cons_of_mem _ hw)]
    simp [writeRecords, String.append_assoc, bind, Except.bind, pure, Except.pure]

/-- The text form agrees with the grammar, and writing a well-typed record never fails. The
record's whole-value accessor checks every value inside it against its type and writes, with no
failure, the record's tokens each followed by one space: the text opens with `[ ` and closes with
`] `, and each token is a nonempty text with no blank at either end and no line break. Writing a
list of such records gives each one's text followed by a line feed, with no failure. -/
theorem to_text_follows_grammar [DecidableEq ι] {r : ι} {v : Value} (hv : S.Typed (.record r) v) :
    S.renderText (.record r) v = .ok (S.toText (.record r) v) ∧
      (S.toText (.record r) v).toList = TextToken.render (S.tokens (.record r) v) ∧
      (∃ body, (S.toText (.record r) v).toList = '[' :: ' ' :: body ++ [']', ' ']) ∧
      (∀ tok ∈ S.tokens (.record r) v, BareText tok.chars) ∧
      ∀ vs : List Value, (∀ w ∈ vs, S.Typed (.record r) w) →
        S.renderRecords (.record r) vs = .ok (S.writeRecords (.record r) vs) ∧
        (S.writeRecords (.record r) vs).toList =
          vs.flatMap fun w => TextToken.render (S.tokens (.record r) w) ++ ['\n'] := by
  have htext : (S.toText (.record r) v).toList = TextToken.render (S.tokens (.record r) v) := by
    rw [toText, String.toList_ofList, textOf_eq_render hv]
  refine ⟨renderText_of_typed hv, htext, ?_, bareText_tokens hv,
    fun ws hws => ⟨renderRecords_of_typed hws, ?_⟩⟩
  · -- the record's tokens open and close with its brackets
    obtain ⟨vs, rfl⟩ : ∃ vs, v = .record vs := by cases hv; exact ⟨_, rfl⟩
    refine ⟨TextToken.render (((S.descriptor r).members.zip vs).flatMap fun p =>
      S.tokens p.1.shape p.2), ?_⟩
    rw [htext, tokens_record]
    simp [TextToken.chars]
  · -- each record's text is its tokens, and the line feed follows it
    simp only [writeRecords, String.toList_join, List.flatMap_map, String.toList_append]
    refine List.flatMap_congr fun w hw => ?_
    rw [toText, String.toList_ofList, textOf_eq_render (hws w hw)]
    rfl

end Schema

/-- The login of version 1 for "Jon Watte" is written with no failure, as its text form. -/
theorem login_text_follows_grammar :
    let v : Value := .record [.int 1, .str "Jon Watte", .str "super secret"]
    catalog.Typed (.record .loginPacket) v ∧
      catalog.renderText (.record .loginPacket) v = .ok (catalog.toText (.record .loginPacket) v) := by
  intro v
  have hv : catalog.Typed (.record .loginPacket) v := by decide
  exact ⟨hv, (Schema.to_text_follows_grammar hv).1⟩

-- a version held as a string is refused where the member's check finds it
example : catalog.renderText (.record .loginPacket) (.record [.str "1", .str "Jon", .str ""]) =
    .error (.typeMismatch "i32") := by
  rfl

end RecordWire
