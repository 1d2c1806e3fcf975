import RecordWire.Proofs.TextTokens
import RecordWire.Proofs.WireForm
import RecordWire.Codec.Text
/-!
# Reading back the text form

Reading the text form of a well-typed value gives the value back, and stops right after its
last token: the closing `]` of a record, the closing `}` of a collection, a scalar's last
character. The space the writer puts after it is left unread, and so is whatever follows, so a
record may be followed by anything; reading a whole text then accepts exactly blanks after it
and refuses anything else where it starts.

The value read back is `canonical`: each NaN becomes its format's canonical NaN, the display
text of every NaN being `NaN`, and a set holds its elements' canonical values as a set. Floats
that are not NaNs come back bit for bit exactly when the format's reader takes their display
text back (`FloatsReadBack`); that is the one fact about decimal floats assumed here.

Each level of the text is its body and one space (`textBody`): members and elements follow
each other with that space between them, which the reader skips before each, and which ends
every bare token.
-/

namespace RecordWire

namespace Schema

variable {ι : Type} (S : Schema ι)

/-! ## Canonical values and text bodies -/

mutual
/-- The value that reading the text of `v` gives back: each NaN float becomes its format's
canonical NaN, and a set holds the canonical values of its elements, as a set. -/
def canonical : Shape ι → Value → Value
  | .scalar t, v => t.canonical v
  | .record r, .record vs => .record (canonicalMembers (S.descriptor r).members vs)
  | .collection k e, .items xs => .items (k.ofList (canonicalItems e xs))
  | _, v => v
/-- The canonical values of a record's members. -/
def canonicalMembers : List (Member ι) → List Value → List Value
  | m :: ms, v :: vs => canonical m.shape v :: canonicalMembers ms vs
  | _, _ => []
/-- The canonical values of a collection's elements. -/
def canonicalItems (e : Shape ι) : List Value → List Value
  | v :: vs => canonical e v :: canonicalItems e vs
  | [] => []
end

/-- The text of a value without the space that ends it. -/
def textBody : Shape ι → Value → List Char
  | .scalar t, v => t.textChars v
  | .record r, .record vs => '[' :: ' ' :: S.textMembers (S.descriptor r).members vs ++ [']']
  | .collection _ e, .items xs => '{' :: ' ' :: S.textItems e xs ++ ['}']
  | _, _ => []

/-- The floats of `v` that are not NaNs read back from their display text. -/
def FloatsReadBack (s : Shape ι) (v : Value) : Prop :=
  ∀ t x, Piece.leaf t x ∈ S.pieces s v → t.DisplayReadsBack x

/-- `v` reads back from its text: into any value of its shape, and whatever follows the space
after it, reading gives the canonical value and stops at that space. -/
def ReadsBackText (s : Shape ι) (v : Value) : Prop :=
  ∀ old, S.Typed s old → ∀ pos tail,
    S.readText s old ⟨pos, S.textBody s v ++ ' ' :: tail⟩ =
      ⟨S.canonical s v, ⟨pos + utf8Length (S.textBody s v), ' ' :: tail⟩, none⟩

variable {S}

theorem textOf_eq {s : Shape ι} {v : Value} (hv : S.Typed s v) :
    S.textOf s v = S.textBody s v ++ [' '] := by
  cases hv <;> simp [textOf, textBody]

theorem textBody_startsValue {s : Shape ι} {v : Value} (hv : S.Typed s v) :
    StartsValue (S.textBody s v) := by
  cases hv with
  | scalar h => exact ScalarType.textChars_startsValue h
  | record => exact ⟨'[', _, rfl, by decide⟩
  | collection => exact ⟨'{', _, rfl, by decide⟩

theorem textMembers_cons {m : Member ι} {ms : List (Member ι)} {v : Value} {vs : List Value}
    (hv : S.Typed m.shape v) :
    S.textMembers (m :: ms) (v :: vs) = S.textBody m.shape v ++ ' ' :: S.textMembers ms vs := by
  simp [textMembers, textOf_eq hv]

theorem textItems_cons {e : Shape ι} {x : Value} {xs : List Value} (hx : S.Typed e x) :
    S.textItems e (x :: xs) = S.textBody e x ++ ' ' :: S.textItems e xs := by
  simp [textItems, textOf_eq hx]

/-! ## Reading one level -/

/-- Members that each read back read back one after another, each after one space, into old
values of their shapes. -/
theorem readMembers_textMembers {ms : List (Member ι)} {vs : List Value}
    (hread : List.Forall₂ (fun m v => S.Typed m.shape v ∧ S.ReadsBackText m.shape v) ms vs) :
    ∀ {olds : List Value}, List.Forall₂ (fun m o => S.Typed m.shape o) ms olds →
      ∀ pos tail, S.readMembers ms olds ⟨pos, ' ' :: (S.textMembers ms vs ++ tail)⟩ =
        ⟨S.canonicalMembers ms vs, ⟨pos + utf8Length (S.textMembers ms vs), ' ' :: tail⟩, none⟩ := by
  induction hread with
  | nil =>
    intro olds holds pos tail
    cases holds
    simp [readMembers, textMembers, canonicalMembers]
  | @cons m v ms vs hmv _ ih =>
    intro olds holds pos tail
    cases holds with
    | cons hmo holds =>
      rename_i o olds
      obtain ⟨hv, hback⟩ := hmv
      -- the space before the member is skipped, the member is read, and the rest follows
      have hskip := TextReader.skipBlanks_space pos
        ((textBody_startsValue hv).append (' ' :: (S.textMembers ms vs ++ tail)))
      have hmember := hback o hmo (pos + 1) (S.textMembers ms vs ++ tail)
      have hnotEnd : TextReader.atEnd
          ⟨pos + 1, S.textBody m.shape v ++ ' ' :: (S.textMembers ms vs ++ tail)⟩ = false := by
        obtain ⟨c, cs, hbody, -⟩ := textBody_startsValue hv
        simp [TextReader.atEnd, hbody]
      rw [readMembers.eq_def, textMembers_cons hv]
      simp only [List.append_assoc, List.cons_append, hskip, List.headD_cons, List.tail_cons,
        hnotEnd, hmember, Bool.false_eq_true, if_false]
      rw [dif_pos (by simp only [List.length_cons, List.length_append]; omega), ih holds]
      simp only [canonicalMembers, utf8Length_append, utf8Length_cons, utf8Size_frame]
      congr 2
      omega

/-- Elements that each read back read back one after another, each after one space, up to the
closing brace; each is inserted by the collection's rule. -/
theorem readItems_textItems (k : CollectionKind) {e : Shape ι} {xs : List Value}
    (hread : ∀ x ∈ xs, S.Typed e x ∧ S.ReadsBackText e x) (acc : List Value) (pos : Nat)
    (tail : List Char) :
    S.readItems k e acc ⟨pos, ' ' :: (S.textItems e xs ++ '}' :: tail)⟩ =
      ⟨(S.canonicalItems e xs).foldl k.insert acc,
        ⟨pos + utf8Length (S.textItems e xs) + 2, tail⟩, none⟩ := by
  induction xs generalizing acc pos with
  | nil =>
    have hskip := TextReader.skipBlanks_space_cons pos tail
      (by decide : isBlank '}' = false)
    rw [readItems.eq_def]
    simp [textItems, canonicalItems, hskip, TextReader.atEnd, TextReader.eat_cons]
    rfl
  | cons x xs ih =>
    obtain ⟨hx, hback⟩ := hread x List.mem_cons_self
    -- the element is no closing brace, so it is read, inserted, and the rest follows
    obtain ⟨c, cs, hbody, hc⟩ := textBody_startsValue hx
    have hskip := TextReader.skipBlanks_space pos
      ((textBody_startsValue hx).append (' ' :: (S.textItems e xs ++ '}' :: tail)))
    have hnotEnd : TextReader.atEnd
        ⟨pos + 1, S.textBody e x ++ ' ' :: (S.textItems e xs ++ '}' :: tail)⟩ = false := by
      simp [TextReader.atEnd, hbody]
    have heat : TextReader.eat ⟨pos + 1, S.textBody e x ++ ' ' :: (S.textItems e xs ++ '}' :: tail)⟩ '}' =
        (false, ⟨pos + 1, S.textBody e x ++ ' ' :: (S.textItems e xs ++ '}' :: tail)⟩) := by
      have hne : c ≠ '}' := by
        rintro rfl
        simp [TextReader.endsToken] at hc
      rw [hbody]
      exact TextReader.eat_of_ne hne
    have helem := hback (S.default e) (S.typed_default e) (pos + 1) (S.textItems e xs ++ '}' :: tail)
    rw [readItems.eq_def, textItems_cons hx]
    simp only [List.append_assoc, List.cons_append, hskip, hnotEnd, heat, helem,
      Bool.false_eq_true, if_false]
    rw [dif_pos (by simp only [List.length_cons, List.length_append]; omega),
      ih (fun y hy => hread y (List.mem_cons_of_mem x hy))]
    simp only [canonicalItems, List.foldl_cons, utf8Length_append, utf8Length_cons, utf8Size_frame]
    congr 2
    omega

/-! ## Reading a whole value -/

/-- Reading undoes writing: a well-typed value whose floats read back reads back from its
text. -/
theorem readsBackText_of_typed {s : Shape ι} {v : Value} (hv : S.Typed s v)
    (hf : S.FloatsReadBack s v) : S.ReadsBackText s v := by
  induction hv with
  | @scalar t v h =>
    intro old _ pos tail
    have hread := ScalarType.readText_textChars h (hf t v (by simp [pieces])) pos tail
    have hskip := TextReader.skipBlanks_of_startsValue pos
      ((ScalarType.textChars_startsValue h).append (' ' :: tail))
    rw [readText.eq_1]
    simp only [textBody, hskip, hread, canonical]
  | @record r vs hlen hall ih =>
    intro old hold pos tail
    obtain ⟨ws, rfl⟩ : ∃ ws, old = .record ws := by cases hold; exact ⟨_, rfl⟩
    -- each member reads back, and the old record has a value of each member's shape
    have hread : List.Forall₂ (fun m v => S.Typed m.shape v ∧ S.ReadsBackText m.shape v)
        (S.descriptor r).members vs :=
      List.forall₂_iff_zip.mpr ⟨hlen.symm, fun hp =>
        ⟨hall _ hp, ih _ hp fun t x hx => hf t x (pieces_subset_of_mem_zip hp hx)⟩⟩
    have hmembers := readMembers_textMembers hread hold.forall₂_members (pos + 1)
      (']' :: ' ' :: tail)
    -- an opening bracket, the members after a space each, a space and the closing bracket
    have hbody : S.textBody (.record r) (.record vs) ++ ' ' :: tail =
        '[' :: ' ' :: (S.textMembers (S.descriptor r).members vs ++ ']' :: ' ' :: tail) := by
      simp [textBody]
    have hopen := TextReader.skipBlanks_of_startsValue pos
      (⟨'[', _, rfl, by decide⟩ :
        StartsValue ('[' :: ' ' :: (S.textMembers (S.descriptor r).members vs ++ ']' :: ' ' :: tail)))
    have hclose := TextReader.skipBlanks_space_cons
      (pos + 1 + utf8Length (S.textMembers (S.descriptor r).members vs)) (' ' :: tail)
      (by decide : isBlank ']' = false)
    rw [readText.eq_def]
    simp only [hbody, hopen, TextReader.expect_cons, Value.fields, utf8Size_frame]
    split
    · next e h => simp [hbody, hopen, TextReader.expect_cons] at h
    · simp only [hmembers, hclose, TextReader.eat_cons, canonical, textBody, utf8Length_cons,
        utf8Length_append, utf8Size_frame, utf8Length_nil]
      congr 2
      omega
  | @collection k e xs hall hsorted ih =>
    intro old _ pos tail
    have hread : ∀ x ∈ xs, S.Typed e x ∧ S.ReadsBackText e x := fun x hx =>
      ⟨hall x hx, ih x hx fun t y hy =>
        hf t y (List.mem_cons_of_mem _ (pieces_subset_of_mem_items hx hy))⟩
    have hitems := readItems_textItems k hread [] (pos + 1) (' ' :: tail)
    -- an opening brace, the elements after a space each, a space and the closing brace
    have hbody : S.textBody (.collection k e) (.items xs) ++ ' ' :: tail =
        '{' :: ' ' :: (S.textItems e xs ++ '}' :: ' ' :: tail) := by
      simp [textBody]
    have hopen := TextReader.skipBlanks_of_startsValue pos
      (⟨'{', _, rfl, by decide⟩ :
        StartsValue ('{' :: ' ' :: (S.textItems e xs ++ '}' :: ' ' :: tail)))
    rw [readText.eq_def]
    simp only [hbody, hopen, TextReader.expect_cons, utf8Size_frame]
    split
    · next e h => simp [hbody, hopen, TextReader.expect_cons] at h
    · simp only [hitems, canonical, textBody, CollectionKind.ofList, utf8Length_cons,
        utf8Length_append, utf8Size_frame, utf8Length_nil]
      congr 2
      omega

/-! ## Values with no NaN -/

theorem canonicalMembers_eq_self {ms : List (Member ι)} {vs : List Value}
    (h : List.Forall₂ (fun m v => S.canonical m.shape v = v) ms vs) :
    S.canonicalMembers ms vs = vs := by
  induction h with
  | nil => rfl
  | cons hmv _ ih => rw [canonicalMembers, hmv, ih]

theorem canonicalItems_eq_self {e : Shape ι} {xs : List Value}
    (h : ∀ x ∈ xs, S.canonical e x = x) : S.canonicalItems e xs = xs := by
  induction xs with
  | nil => rfl
  | cons x xs ih =>
    rw [canonicalItems, h x List.mem_cons_self, ih fun y hy => h y (List.mem_cons_of_mem x hy)]

theorem canonical_eq_self {s : Shape ι} {v : Value} (hv : S.Typed s v)
    (hnan : ∀ t bits, Piece.leaf t (.float bits) ∈ S.pieces s v →
      ∀ f, t.floatFormat? = some f → f.decode bits ≠ .nan) :
    S.canonical s v = v := by
  induction hv with
  | @scalar t v _ =>
    cases v with
    | float bits =>
      simp only [canonical, ScalarType.canonical]
      split
      · next f hf => simp [hnan t bits (by simp [pieces]) f hf]
      · rfl
    | _ => rfl
  | @record r vs hlen _ ih =>
    have heach : List.Forall₂ (fun m v => S.canonical m.shape v = v) (S.descriptor r).members vs :=
      List.forall₂_iff_zip.mpr ⟨hlen.symm, fun hp =>
        ih _ hp fun t bits hx => hnan t bits (pieces_subset_of_mem_zip hp hx)⟩
    rw [canonical, canonicalMembers_eq_self heach]
  | @collection k e xs _ hsorted ih =>
    have heach : ∀ x ∈ xs, S.canonical e x = x := fun x hx =>
      ih x hx fun t bits hy => hnan t bits (List.mem_cons_of_mem _ (pieces_subset_of_mem_items hx hy))
    rw [canonical, canonicalItems_eq_self heach, CollectionKind.ofList_of_sorted hsorted]

/-! ## Reading a whole text -/

theorem utf8ByteSize_toText {s : Shape ι} {v : Value} (hv : S.Typed s v) :
    (S.toText s v).utf8ByteSize = utf8Length (S.textBody s v) + 1 := by
  rw [toText, utf8ByteSize_ofList, textOf_eq hv, utf8Length_append]
  rfl

/-- Reading the text of a value, followed by anything, into the default value: the canonical
value, with all of the text read but its final space. -/
theorem readText_toText {s : Shape ι} {v : Value} (hv : S.Typed s v) (hf : S.FloatsReadBack s v)
    (rest : String) :
    S.readText s (S.default s) (TextReader.ofString (S.toText s v ++ rest)) =
      ⟨S.canonical s v, ⟨(S.toText s v).utf8ByteSize - 1, ' ' :: rest.toList⟩, none⟩ := by
  have hread := readsBackText_of_typed hv hf (S.default s) (S.typed_default s) 0 rest.toList
  have htext : (S.toText s v ++ rest).toList = S.textBody s v ++ ' ' :: rest.toList := by
    simp [toText, textOf_eq hv]
  have hsize : (S.toText s v).utf8ByteSize - 1 = utf8Length (S.textBody s v) := by
    rw [utf8ByteSize_toText hv, Nat.add_sub_cancel]
  rw [TextReader.ofString, htext, hsize]
  simpa using hread

/-- Reading a whole text that starts with a value's text: the canonical value when only blanks
follow it, and otherwise an invalid token at the first character after them. -/
theorem fromText_toText {s : Shape ι} {v : Value} (hv : S.Typed s v) (hf : S.FloatsReadBack s v)
    (rest : String) :
    S.fromText s (S.toText s v ++ rest) =
      if allBlank rest.toList then .ok (S.canonical s v)
      else .error (.atByte .invalidToken
        ((S.toText s v).utf8ByteSize + utf8Length (rest.toList.takeWhile isBlank))) := by
  have hsize := utf8ByteSize_toText hv
  have hblanks : allBlank rest.toList = true ↔ rest.toList.dropWhile isBlank = [] := by
    simp [allBlank, List.dropWhile_eq_nil_iff]
  simp only [fromText, readText_toText hv hf rest, TextReader.skipBlanks_eq, TextReader.atEnd]
  have hspace : isBlank ' ' = true := by decide
  simp only [List.takeWhile_cons, List.dropWhile_cons, hspace, if_true, utf8Length_cons]
  by_cases hall : allBlank rest.toList = true
  · simp [hall, hblanks.mp hall]
  · have hsome : (rest.toList.dropWhile isBlank).isEmpty = false := by
      simpa [List.isEmpty_iff] using mt hblanks.mpr hall
    simp only [hsome, hall, Bool.false_eq_true, if_false]
    congr 2
    have hone := utf8Size_frame.1
    omega

/-- The text round trip. Reading the text of a well-typed value whose floats read back, into
the default value and followed by any text, gives its canonical value and reads all of the text
but the final space; reading it as a whole text gives the canonical value when only blanks
follow, and an invalid token at the first other character otherwise. The canonical value is
the value itself when it holds no NaN. -/
theorem text_round_trip {s : Shape ι} {v : Value} (hv : S.Typed s v) (hf : S.FloatsReadBack s v) :
    (∀ rest : String,
      S.readText s (S.default s) (TextReader.ofString (S.toText s v ++ rest)) =
        ⟨S.canonical s v, ⟨(S.toText s v).utf8ByteSize - 1, ' ' :: rest.toList⟩, none⟩) ∧
    (∀ w : String, allBlank w.toList = true →
      S.fromText s (S.toText s v ++ w) = .ok (S.canonical s v)) ∧
    (∀ rest : String, allBlank rest.toList = false →
      S.fromText s (S.toText s v ++ rest) = .error (.atByte .invalidToken
        ((S.toText s v).utf8ByteSize + utf8Length (rest.toList.takeWhile isBlank)))) ∧
    ((∀ t bits, Piece.leaf t (.float bits) ∈ S.pieces s v →
      ∀ f, t.floatFormat? = some f → f.decode bits ≠ .nan) → S.canonical s v = v) := by
  refine ⟨readText_toText hv hf, fun w hw => ?_, fun rest hrest => ?_, canonical_eq_self hv⟩
  · rw [fromText_toText hv hf, if_pos hw]
  · rw [fromText_toText hv hf, if_neg (by simp [hrest])]

end Schema

/-- A `Reading` with a NaN among its samples and a note with a quote and a line break: its text
reads back with the NaN made canonical, and a second record after it is an invalid token. -/
theorem reading_text_round_trip :
    let v : Value := .record [.int 3, .items [.float 0x3fe0000000000000, .float 0x7ff0000000000001],
      .str "say \"hi\"\n"]
    catalog.Typed (.record .reading) v ∧ catalog.FloatsReadBack (.record .reading) v ∧
      catalog.fromText (.record .reading) (catalog.toText (.record .reading) v ++ " \t") =
        .ok (.record [.int 3, .items [.float 0x3fe0000000000000, .float 0x7ff8000000000000],
          .str "say \"hi\"\n"]) := by
  intro v
  have hv : catalog.Typed (.record .reading) v := by decide
  have hf : catalog.FloatsReadBack (.record .reading) v := by
    intro t x hx f bits hbits hformat hnan
    have hpieces : catalog.pieces (.record .reading) v =
        [.leaf .u8 (.int 3), .count 2, .leaf .f64 (.float 0x3fe0000000000000),
          .leaf .f64 (.float 0x7ff0000000000001), .leaf .string (.str "say \"hi\"\n")] := by
      decide
    rw [hpieces, hbits] at hx
    simp only [List.mem_cons, Piece.leaf.injEq, Value.float.injEq, reduceCtorEq, List.mem_nil_iff,
      and_false, or_false, false_or] at hx
    -- the sample 0.5 reads back from its display text; the other sample is a NaN
    rcases hx with ⟨rfl, rfl⟩ | ⟨rfl, rfl⟩
    · simp only [ScalarType.floatFormat?, Option.some.injEq] at hformat
      subst hformat
      decide
    · simp only [ScalarType.floatFormat?, Option.some.injEq] at hformat
      subst hformat
      exact absurd (by decide) hnan
  refine ⟨hv, hf, ?_⟩
  rw [(Schema.text_round_trip hv hf).2.1 " \t" (by decide)]
  rfl

end RecordWire
