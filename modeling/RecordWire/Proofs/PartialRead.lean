import RecordWire.Proofs.ReadingSteps
/-!
# What a failed read leaves

Both decoders read into an existing value and stop at the first failure, leaving the value
partly read. What they leave is fixed by a walk down the value along the path to the failure
(`LeftBy` for the binary form, `LeftByText` for text):

* a scalar that fails keeps its old value: it is assigned only once its bytes or its token are
  read and checked, so a string whose block is not UTF-8 is unchanged;
* a record whose member fails holds, for each member before it, the value read for it, for the
  failing member what that member's own failure left, and for each member after it its old
  value; in text, input that ends before a member leaves that member and those after it as they
  were, and a missing closing bracket leaves every member read;
* a collection whose count (binary) or opening brace (text) cannot be read keeps its old
  elements; once it is read, the collection holds exactly the elements read whole before the
  failure, each inserted by its container's rule, and none of the old ones.

Each decoder fails leaving `d'` exactly when the walk leads to `d'` (`failed_read_leaves`): the
walk is a description of the failures, and the decoders meet it in both directions.
-/

namespace RecordWire

namespace Schema

variable {ι : Type} (S : Schema ι)

/-! ## The binary form -/

/-- `ms` read one after another from `input`, each into its old value in `olds`, all succeed:
they give `vs` and leave `rest`. -/
inductive ReadsMembers : List (Member ι) → List Value → List UInt8 → List Value → List UInt8 →
    Prop
  | nil (olds : List Value) (input : List UInt8) : ReadsMembers [] olds input [] input
  | cons {m : Member ι} {ms : List (Member ι)} {olds : List Value} {input mid rest : List UInt8}
      {v : Value} {vs : List Value} :
      S.decode m.shape (olds.headD (S.default m.shape)) input = ⟨v, mid, none⟩ →
      ReadsMembers ms olds.tail mid vs rest → ReadsMembers (m :: ms) olds input (v :: vs) rest

/-- Elements of shape `e` read one after another from `input`, each into a default, all succeed:
they give `xs` and leave `rest`. -/
inductive ReadsItems (e : Shape ι) : List Value → List UInt8 → List UInt8 → Prop
  | nil (input : List UInt8) : ReadsItems e [] input input
  | cons {x : Value} {xs : List Value} {input mid rest : List UInt8} :
      S.decode e (S.default e) input = ⟨x, mid, none⟩ → ReadsItems e xs mid rest →
      ReadsItems e (x :: xs) input rest

/-- A binary read of shape `s` into `d` from `input` fails leaving `d'`. -/
inductive LeftBy : Shape ι → Value → List UInt8 → Value → Prop
  /-- A scalar that fails keeps its old value. -/
  | scalar {t : ScalarType} {d : Value} {input rest : List UInt8} {err : CodecError} :
      t.decodeBinary input = .error (err, rest) → LeftBy (.scalar t) d input d
  /-- The members before the failing one are read, it is left as its own failure leaves it,
  and those after it keep their old values. -/
  | record {r : ι} {d : Value} {input mid : List UInt8} {pre post : List (Member ι)}
      {m : Member ι} {vs : List Value} {w : Value} :
      (S.descriptor r).members = pre ++ m :: post →
      S.ReadsMembers pre d.fields input vs mid →
      LeftBy m.shape (d.fields.getD pre.length (S.default m.shape)) mid w →
      LeftBy (.record r) d input (.record (vs ++ w :: d.fields.drop (pre.length + 1)))
  /-- A collection whose count cannot be read keeps its old elements. -/
  | count {k : CollectionKind} {e : Shape ι} {d : Value} {input : List UInt8} :
      readCount input = none → LeftBy (.collection k e) d input d
  /-- A collection whose count is read holds the elements read whole before the failing one. -/
  | element {k : CollectionKind} {e : Shape ι} {d : Value} {input body mid : List UInt8}
      {n : Nat} {xs : List Value} {f : CodecError} :
      readCount input = some (n, body) → S.ReadsItems e xs body mid → xs.length < n →
      (S.decode e (S.default e) mid).fault = some f →
      LeftBy (.collection k e) d input (.items (xs.foldl k.insert []))

variable {S}

theorem headD_drop {α : Type} (l : List α) (n : Nat) (a : α) : (l.drop n).headD a = l.getD n a := by
  rw [List.headD_eq_head?_getD, List.head?_drop, List.getD_eq_getElem?_getD]

theorem ReadsMembers.decodeMembers {r : ι} {pre : List {m // m ∈ (S.descriptor r).members}}
    {olds : List Value} {input mid : List UInt8} {vs : List Value}
    (h : S.ReadsMembers (pre.map Subtype.val) olds input vs mid)
    (ms : List {m // m ∈ (S.descriptor r).members}) :
    S.decodeMembers r (pre ++ ms) olds input =
      ⟨vs ++ (S.decodeMembers r ms (olds.drop pre.length) mid).values,
        (S.decodeMembers r ms (olds.drop pre.length) mid).rest,
        (S.decodeMembers r ms (olds.drop pre.length) mid).fault⟩ := by
  induction pre generalizing olds input vs with
  | nil => cases h; rfl
  | cons m pre ih =>
    obtain ⟨m, hm⟩ := m
    cases h with
    | cons hdec hrest =>
      rw [List.cons_append, decodeMembers_cons_ok hdec rfl]
      simp [ih hrest, List.drop_tail]

theorem ReadsItems.decodeItems {k : CollectionKind} {e : Shape ι} {xs : List Value}
    {input mid : List UInt8} (h : S.ReadsItems e xs input mid) (n : Nat) (acc : List Value) :
    S.decodeItems k e (xs.length + n) acc input =
      S.decodeItems k e n (xs.foldl k.insert acc) mid := by
  induction h generalizing acc with
  | nil => simp
  | cons hdec _ ih =>
    rw [List.length_cons, Nat.add_right_comm, decodeItems_succ_ok hdec rfl]
    exact ih _

/-- Reading elements fails only at an element, after reading those before it whole; what it
leaves is those elements, inserted. -/
theorem exists_reads_of_decodeItems_fault {k : CollectionKind} {e : Shape ι} {n : Nat}
    {acc : List Value} {input : List UInt8} (hf : (S.decodeItems k e n acc input).fault ≠ none) :
    ∃ (xs : List Value) (mid : List UInt8) (f : CodecError), S.ReadsItems e xs input mid ∧
      xs.length < n ∧ (S.decode e (S.default e) mid).fault = some f ∧
      (S.decodeItems k e n acc input).values = xs.foldl k.insert acc := by
  induction n generalizing acc input with
  | zero => simp [decodeItems.eq_1] at hf
  | succ n ih =>
    rcases ho : S.decode e (S.default e) input with ⟨x, mid, fault⟩
    cases fault with
    | some f =>
      -- the first element fails
      rw [decodeItems_succ_fault ho rfl]
      exact ⟨[], input, f, .nil input, Nat.succ_pos n, by rw [ho], rfl⟩
    | none =>
      -- the first element reads, and the failure is further on
      rw [decodeItems_succ_ok ho rfl] at hf ⊢
      obtain ⟨xs, mid', f, hreads, hlt, hfail, hvals⟩ := ih hf
      exact ⟨x :: xs, mid', f, .cons ho hreads, by simpa using hlt, hfail, hvals⟩

variable (S)

mutual

/-- A binary read that fails leaves what the walk to its failure describes. -/
theorem leftBy_of_decode (s : Shape ι) (d : Value) (input : List UInt8)
    (hf : (S.decode s d input).fault ≠ none) : S.LeftBy s d input (S.decode s d input).value := by
  match s with
  | .scalar t =>
    rw [decode.eq_1] at hf ⊢
    split
    · next v rest h => rw [h] at hf; exact absurd rfl hf
    · next err rest h => exact .scalar h
  | .record r =>
    have : S.rank r < S.weight (.record r) := Nat.lt_succ_self _
    rw [decode.eq_2] at hf ⊢
    obtain ⟨pre, post, m, vs, mid, w, hsplit, hreads, hleft, hvals⟩ :=
      leftBy_of_decodeMembers r _ d.fields input hf
    rw [List.attach_map_subtype_val] at hsplit
    rw [hvals]
    exact .record hsplit hreads hleft
  | .collection k e =>
    cases h : readCount input with
    | none =>
      rw [decode_collection_none h]
      exact .count h
    | some p =>
      obtain ⟨n, body⟩ := p
      rw [decode_collection_some h] at hf ⊢
      obtain ⟨xs, mid, f, hreads, hlt, hfail, hvals⟩ := exists_reads_of_decodeItems_fault hf
      rw [hvals]
      exact .element h hreads hlt hfail
termination_by (input.length, S.weight s, 0)
decreasing_by
  simp +zetaDelta only [Prod.lex_def, true_and] at *
  omega

/-- Reading members that fails reads those before the failing one whole, and leaves it as its
own failure leaves it and those after it as they were. -/
theorem leftBy_of_decodeMembers (r : ι) (ms : List {m // m ∈ (S.descriptor r).members})
    (olds : List Value) (input : List UInt8) (hf : (S.decodeMembers r ms olds input).fault ≠ none) :
    ∃ (pre post : List (Member ι)) (m : Member ι) (vs : List Value) (mid : List UInt8) (w : Value),
      ms.map Subtype.val = pre ++ m :: post ∧ S.ReadsMembers pre olds input vs mid ∧
      S.LeftBy m.shape (olds.getD pre.length (S.default m.shape)) mid w ∧
      (S.decodeMembers r ms olds input).values = vs ++ w :: olds.drop (pre.length + 1) := by
  match ms with
  | [] => simp [decodeMembers.eq_1] at hf
  | ⟨m, hm⟩ :: ms =>
    have := S.weight_le_rank hm
    rcases ho : S.decode m.shape (olds.headD (S.default m.shape)) input with ⟨v, mid, fault⟩
    cases fault with
    | some f =>
      -- the first member fails
      have hleft := leftBy_of_decode m.shape (olds.headD (S.default m.shape)) input
        (by rw [ho]; simp)
      rw [ho] at hleft
      rw [decodeMembers_cons_fault ho rfl]
      refine ⟨[], ms.map Subtype.val, m, [], input, v, rfl, .nil olds input, ?_, ?_⟩
      · rwa [List.length_nil, ← headD_drop, List.drop_zero]
      · simp [List.drop_one]
    | none =>
      -- the first member reads, and the failure is further on
      have hle : mid.length ≤ input.length := by
        have h := (S.decode_rest_suffix m.shape (olds.headD (S.default m.shape)) input).length_le
        rwa [ho] at h
      rw [decodeMembers_cons_ok ho rfl] at hf ⊢
      obtain ⟨pre, post, m', vs, mid', w, hsplit, hreads, hleft, hvals⟩ :=
        leftBy_of_decodeMembers r ms olds.tail mid hf
      refine ⟨m :: pre, post, m', v :: vs, mid', w, by simp [hsplit], .cons ho hreads, ?_, ?_⟩
      · rwa [← headD_drop, List.drop_tail, headD_drop] at hleft
      · simp [hvals, List.drop_tail]
termination_by (input.length, S.rank r, ms.length)
decreasing_by
  all_goals
    simp +zetaDelta only [Prod.lex_def, true_and, List.length_cons] at *
    omega

end

variable {S}

theorem LeftBy.decode {s : Shape ι} {d d' : Value} {input : List UInt8}
    (h : S.LeftBy s d input d') :
    (S.decode s d input).fault ≠ none ∧ (S.decode s d input).value = d' := by
  induction h with
  | scalar hdec =>
    rw [decode.eq_1, hdec]
    simp
  | @record r d input mid pre post m vs w hsplit hreads _ ih =>
    -- split the attached members where the plain ones split
    have hmap : (S.descriptor r).members.attach.map Subtype.val = pre ++ m :: post := by
      rw [List.attach_map_subtype_val, hsplit]
    obtain ⟨apre, arest, hatt, hpre, hrest⟩ := List.map_eq_append_iff.mp hmap
    obtain ⟨⟨m', hm⟩, apost, rfl, hm', -⟩ := List.map_eq_cons_iff.mp hrest
    obtain rfl : m = m' := hm'.symm
    have hlen : apre.length = pre.length := by rw [← hpre, List.length_map]
    obtain ⟨f, hf⟩ := Option.ne_none_iff_exists'.mp ih.1
    rw [decode.eq_2, hatt, ReadsMembers.decodeMembers (hpre ▸ hreads),
      decodeMembers_cons_fault (by rw [hlen, headD_drop]) hf, ih.2]
    simp [hlen, List.tail_drop]
  | count h =>
    rw [decode_collection_none h]
    simp
  | element hcount hreads hlt hfail =>
    obtain ⟨j, rfl⟩ := Nat.exists_eq_add_of_lt hlt
    rw [decode_collection_some hcount, Nat.add_assoc, ReadsItems.decodeItems hreads,
      decodeItems_succ_fault rfl hfail]
    simp

/-- A binary read fails leaving `d'` exactly when the walk to its failure leads to `d'`. -/
theorem decode_fails_iff (s : Shape ι) (d : Value) (input : List UInt8) (d' : Value) :
    ((S.decode s d input).fault ≠ none ∧ (S.decode s d input).value = d') ↔
      S.LeftBy s d input d' :=
  ⟨fun ⟨hf, hv⟩ => hv ▸ S.leftBy_of_decode s d input hf, LeftBy.decode⟩

/-! ## The text form -/

variable (S)

/-- `ms` read one after another at `r`, each after blanks and into its old value in `olds`, all
succeed: the text does not end before any of them, and they give `vs` and leave `r'`. -/
inductive ReadsMembersText : List (Member ι) → List Value → TextReader → List Value →
    TextReader → Prop
  | nil (olds : List Value) (r : TextReader) : ReadsMembersText [] olds r [] r
  | cons {m : Member ι} {ms : List (Member ι)} {olds : List Value} {r mid r' : TextReader}
      {v : Value} {vs : List Value} :
      r.skipBlanks.atEnd = false →
      S.readText m.shape (olds.headD (S.default m.shape)) r.skipBlanks = ⟨v, mid, none⟩ →
      ReadsMembersText ms olds.tail mid vs r' → ReadsMembersText (m :: ms) olds r (v :: vs) r'

/-- Elements of shape `e` read one after another at `r`, each after blanks and into a default,
all succeed: no closing brace or end of text comes before any of them, and they give `xs` and
leave `r'`. -/
inductive ReadsItemsText (e : Shape ι) : List Value → TextReader → TextReader → Prop
  | nil (r : TextReader) : ReadsItemsText e [] r r
  | cons {x : Value} {xs : List Value} {r mid r' : TextReader} :
      r.skipBlanks.atEnd = false → (r.skipBlanks.eat '}').1 = false →
      S.readText e (S.default e) r.skipBlanks = ⟨x, mid, none⟩ → ReadsItemsText e xs mid r' →
      ReadsItemsText e (x :: xs) r r'

/-- A text read of shape `s` into `d` at `r` fails leaving `d'`. -/
inductive LeftByText : Shape ι → Value → TextReader → Value → Prop
  /-- A scalar whose token does not read keeps its old value. -/
  | scalar {t : ScalarType} {d : Value} {r : TextReader} {pe : ParseError} :
      (t.readText r.skipBlanks).result = .error pe → LeftByText (.scalar t) d r d
  /-- A record without its opening bracket keeps its old value. -/
  | recordOpen {rid : ι} {d : Value} {r : TextReader} {pe : ParseError} :
      (r.skipBlanks.expect '[' .missingOpenToken).result = .error pe →
      LeftByText (.record rid) d r d
  /-- Text that ends before a member leaves the members before it read, and it and those after
  it as they were. -/
  | recordEnd {rid : ι} {d : Value} {r r1 : TextReader} {pre post : List (Member ι)}
      {m : Member ι} {vs : List Value} :
      (r.skipBlanks.expect '[' .missingOpenToken).result = .ok () →
      (S.descriptor rid).members = pre ++ m :: post →
      S.ReadsMembersText pre d.fields (r.skipBlanks.expect '[' .missingOpenToken).reader vs r1 →
      r1.skipBlanks.atEnd = true →
      LeftByText (.record rid) d r (.record (vs ++ d.fields.drop pre.length))
  /-- The members before the failing one are read, it is left as its own failure leaves it,
  and those after it keep their old values. -/
  | recordMember {rid : ι} {d : Value} {r r1 : TextReader} {pre post : List (Member ι)}
      {m : Member ι} {vs : List Value} {w : Value} :
      (r.skipBlanks.expect '[' .missingOpenToken).result = .ok () →
      (S.descriptor rid).members = pre ++ m :: post →
      S.ReadsMembersText pre d.fields (r.skipBlanks.expect '[' .missingOpenToken).reader vs r1 →
      r1.skipBlanks.atEnd = false →
      LeftByText m.shape (d.fields.getD pre.length (S.default m.shape)) r1.skipBlanks w →
      LeftByText (.record rid) d r (.record (vs ++ w :: d.fields.drop (pre.length + 1)))
  /-- A record without its closing bracket holds every member read (and, past its members, the
  old fields a well-typed value does not have). -/
  | recordClose {rid : ι} {d : Value} {r r1 : TextReader} {vs : List Value} :
      (r.skipBlanks.expect '[' .missingOpenToken).result = .ok () →
      S.ReadsMembersText (S.descriptor rid).members d.fields
        (r.skipBlanks.expect '[' .missingOpenToken).reader vs r1 →
      (r1.skipBlanks.eat ']').1 = false →
      LeftByText (.record rid) d r (.record (vs ++ d.fields.drop (S.descriptor rid).members.length))
  /-- A collection without its opening brace keeps its old elements. -/
  | collectionOpen {k : CollectionKind} {e : Shape ι} {d : Value} {r : TextReader}
      {pe : ParseError} :
      (r.skipBlanks.expect '{' .missingOpenToken).result = .error pe →
      LeftByText (.collection k e) d r d
  /-- Text that ends inside a collection leaves the elements read before the end. -/
  | collectionEnd {k : CollectionKind} {e : Shape ι} {d : Value} {r r1 : TextReader}
      {xs : List Value} :
      (r.skipBlanks.expect '{' .missingOpenToken).result = .ok () →
      S.ReadsItemsText e xs (r.skipBlanks.expect '{' .missingOpenToken).reader r1 →
      r1.skipBlanks.atEnd = true →
      LeftByText (.collection k e) d r (.items (xs.foldl k.insert []))
  /-- A collection whose element fails holds the elements read whole before it. -/
  | element {k : CollectionKind} {e : Shape ι} {d : Value} {r r1 : TextReader} {xs : List Value}
      {f : CodecError} :
      (r.skipBlanks.expect '{' .missingOpenToken).result = .ok () →
      S.ReadsItemsText e xs (r.skipBlanks.expect '{' .missingOpenToken).reader r1 →
      r1.skipBlanks.atEnd = false → (r1.skipBlanks.eat '}').1 = false →
      (S.readText e (S.default e) r1.skipBlanks).fault = some f →
      LeftByText (.collection k e) d r (.items (xs.foldl k.insert []))

variable {S}

theorem ReadsMembersText.readMembers {pre : List (Member ι)} {olds : List Value}
    {r r1 : TextReader} {vs : List Value} (h : S.ReadsMembersText pre olds r vs r1)
    (ms : List (Member ι)) :
    S.readMembers (pre ++ ms) olds r =
      ⟨vs ++ (S.readMembers ms (olds.drop pre.length) r1).values,
        (S.readMembers ms (olds.drop pre.length) r1).reader,
        (S.readMembers ms (olds.drop pre.length) r1).fault⟩ := by
  induction h with
  | nil => rfl
  | cons hend hdec _ ih =>
    rw [List.cons_append, readMembers_cons_ok hend hdec rfl]
    simp [ih, List.drop_tail]

theorem ReadsItemsText.readItems {k : CollectionKind} {e : Shape ι} {xs : List Value}
    {r r1 : TextReader} (h : S.ReadsItemsText e xs r r1) (acc : List Value) :
    S.readItems k e acc r = S.readItems k e (xs.foldl k.insert acc) r1 := by
  induction h generalizing acc with
  | nil => rfl
  | cons hend hclose hdec _ ih =>
    rw [readItems_ok hend hclose hdec rfl]
    exact ih _

theorem readsMembersText_of_readMembers (ms : List (Member ι)) (olds : List Value)
    (r : TextReader) (hok : (S.readMembers ms olds r).fault = none) :
    ∃ vs, S.ReadsMembersText ms olds r vs (S.readMembers ms olds r).reader ∧
      (S.readMembers ms olds r).values = vs ++ olds.drop ms.length := by
  induction ms generalizing olds r with
  | nil =>
    rw [readMembers.eq_1]
    exact ⟨[], .nil olds r, rfl⟩
  | cons m ms ih =>
    cases hend : r.skipBlanks.atEnd with
    | true => simp [readMembers_cons_atEnd hend] at hok
    | false =>
      rcases ho : S.readText m.shape (olds.headD (S.default m.shape)) r.skipBlanks with
        ⟨v, mid, fault⟩
      cases fault with
      | some f => simp [readMembers_cons_fault hend ho rfl] at hok
      | none =>
        rw [readMembers_cons_ok hend ho rfl] at hok ⊢
        obtain ⟨vs, hreads, hvals⟩ := ih olds.tail mid hok
        exact ⟨v :: vs, .cons hend ho hreads, by simp [hvals, List.drop_tail]⟩

/-- Reading elements fails only at the end of the text or at an element, after reading those
before it whole; what it leaves is those elements, inserted. -/
theorem exists_reads_of_readItems_fault (k : CollectionKind) (e : Shape ι) (acc : List Value)
    (r : TextReader) (hf : (S.readItems k e acc r).fault ≠ none) :
    ∃ (xs : List Value) (r1 : TextReader), S.ReadsItemsText e xs r r1 ∧
      (r1.skipBlanks.atEnd = true ∨
        r1.skipBlanks.atEnd = false ∧ (r1.skipBlanks.eat '}').1 = false ∧
          ∃ f, (S.readText e (S.default e) r1.skipBlanks).fault = some f) ∧
      (S.readItems k e acc r).values = xs.foldl k.insert acc := by
  cases hend : r.skipBlanks.atEnd with
  | true =>
    rw [readItems_atEnd hend]
    exact ⟨[], r, .nil r, .inl hend, rfl⟩
  | false =>
    rcases hclose : r.skipBlanks.eat '}' with ⟨b, r2⟩
    cases b with
    | true => simp [readItems_close hend hclose] at hf
    | false =>
      have hclose' : (r.skipBlanks.eat '}').1 = false := by rw [hclose]
      rcases ho : S.readText e (S.default e) r.skipBlanks with ⟨x, mid, fault⟩
      cases fault with
      | some f =>
        -- the first element fails
        rw [readItems_fault hend hclose' ho rfl]
        exact ⟨[], r, .nil r, .inr ⟨hend, hclose', f, by rw [ho]⟩, rfl⟩
      | none =>
        -- the first element reads, and the failure is further on
        have hlt : mid.rest.length < r.rest.length := by
          have h := S.readText_lt e (S.default e) r.skipBlanks (by rw [ho])
          rw [ho] at h
          exact Nat.lt_of_lt_of_le h r.length_skipBlanks_le
        rw [readItems_ok hend hclose' ho rfl] at hf ⊢
        obtain ⟨xs, r1, hreads, hstop, hvals⟩ :=
          exists_reads_of_readItems_fault k e (k.insert acc x) mid hf
        exact ⟨x :: xs, r1, .cons hend hclose' ho hreads, hstop, hvals⟩
termination_by r.rest.length

variable (S)

mutual

/-- A text read that fails leaves what the walk to its failure describes. -/
theorem leftByText_of_readText (s : Shape ι) (d : Value) (r : TextReader)
    (hf : (S.readText s d r).fault ≠ none) : S.LeftByText s d r (S.readText s d r).value := by
  match s with
  | .scalar t =>
    rw [readText.eq_1] at hf ⊢
    split
    · next v hv => rw [hv] at hf; exact absurd rfl hf
    · next pe hpe => exact .scalar hpe
  | .record rid =>
    cases hopen : (r.skipBlanks.expect '[' .missingOpenToken).result with
    | error pe =>
      rw [readText_record_open_fail hopen]
      exact .recordOpen hopen
    | ok u =>
      have := TextReader.length_expect_lt hopen
      have := r.length_skipBlanks_le
      cases hmf : (S.readMembers (S.descriptor rid).members d.fields
          (r.skipBlanks.expect '[' .missingOpenToken).reader).fault with
      | some f =>
        -- a member fails, or the text ends before one
        rw [readText_record_members_fault hopen rfl hmf]
        obtain ⟨pre, post, m, vs, r1, hsplit, hreads, hstop⟩ :=
          leftByText_of_readMembers (S.descriptor rid).members d.fields _ (by rw [hmf]; simp)
        rcases hstop with ⟨hend, hvals⟩ | ⟨hend, w, hleft, hvals⟩
        · rw [hvals]
          exact .recordEnd hopen hsplit hreads hend
        · rw [hvals]
          exact .recordMember hopen hsplit hreads hend hleft
      | none =>
        -- the members all read, and the closing bracket is missing
        obtain ⟨vs, hreads, hvals⟩ := readsMembersText_of_readMembers (S := S)
          (S.descriptor rid).members d.fields _ hmf
        rcases hc : (S.readMembers (S.descriptor rid).members d.fields
          (r.skipBlanks.expect '[' .missingOpenToken).reader).reader.skipBlanks.eat ']' with ⟨b, r3⟩
        cases b with
        | true => simp [readText_record_close hopen rfl hmf hc] at hf
        | false =>
          rw [readText_record_unclosed hopen rfl hmf (by rw [hc]), hvals]
          exact .recordClose hopen hreads (by rw [hc])
  | .collection k e =>
    cases hopen : (r.skipBlanks.expect '{' .missingOpenToken).result with
    | error pe =>
      rw [readText_collection_open_fail hopen]
      exact .collectionOpen hopen
    | ok u =>
      rw [readText_collection_open hopen] at hf ⊢
      obtain ⟨xs, r1, hreads, hstop, hvals⟩ := exists_reads_of_readItems_fault k e [] _ hf
      rw [hvals]
      rcases hstop with hend | ⟨hend, hclose, f, hfail⟩
      · exact .collectionEnd hopen hreads hend
      · exact .element hopen hreads hend hclose hfail
termination_by (r.rest.length, 0)
decreasing_by
  simp +zetaDelta only [Prod.lex_def] at *
  omega

/-- Reading members that fails reads those before the failing one whole, and either the text
ends before the failing one, which keeps its old value, or it is left as its own failure leaves
it; those after it keep their old values. -/
theorem leftByText_of_readMembers (ms : List (Member ι)) (olds : List Value) (r : TextReader)
    (hf : (S.readMembers ms olds r).fault ≠ none) :
    ∃ (pre post : List (Member ι)) (m : Member ι) (vs : List Value) (r1 : TextReader),
      ms = pre ++ m :: post ∧ S.ReadsMembersText pre olds r vs r1 ∧
      ((r1.skipBlanks.atEnd = true ∧
          (S.readMembers ms olds r).values = vs ++ olds.drop pre.length) ∨
        (r1.skipBlanks.atEnd = false ∧ ∃ w,
          S.LeftByText m.shape (olds.getD pre.length (S.default m.shape)) r1.skipBlanks w ∧
          (S.readMembers ms olds r).values = vs ++ w :: olds.drop (pre.length + 1))) := by
  match ms with
  | [] => simp [readMembers.eq_1] at hf
  | m :: ms =>
    have := r.length_skipBlanks_le
    cases hend : r.skipBlanks.atEnd with
    | true =>
      -- the text ends before the first member
      rw [readMembers_cons_atEnd hend]
      exact ⟨[], ms, m, [], r, rfl, .nil olds r, .inl ⟨hend, rfl⟩⟩
    | false =>
      rcases ho : S.readText m.shape (olds.headD (S.default m.shape)) r.skipBlanks with
        ⟨v, mid, fault⟩
      cases fault with
      | some f =>
        -- the first member fails
        have hleft := leftByText_of_readText m.shape (olds.headD (S.default m.shape))
          r.skipBlanks (by rw [ho]; simp)
        rw [ho] at hleft
        rw [readMembers_cons_fault hend ho rfl]
        refine ⟨[], ms, m, [], r, rfl, .nil olds r, .inr ⟨hend, v, ?_, ?_⟩⟩
        · rwa [List.length_nil, ← headD_drop, List.drop_zero]
        · simp [List.drop_one]
      | none =>
        -- the first member reads, and the failure is further on
        have hle : mid.rest.length ≤ r.rest.length := by
          have h := ((S.readText_suffix m.shape (olds.headD (S.default m.shape))
            r.skipBlanks).trans r.skipBlanks_suffix).length_le
          rwa [ho] at h
        rw [readMembers_cons_ok hend ho rfl] at hf ⊢
        obtain ⟨pre, post, m', vs, r1, hsplit, hreads, hstop⟩ :=
          leftByText_of_readMembers ms olds.tail mid hf
        refine ⟨m :: pre, post, m', v :: vs, r1, by simp [hsplit], .cons hend ho hreads, ?_⟩
        rcases hstop with ⟨hend1, hvals⟩ | ⟨hend1, w, hleft, hvals⟩
        · exact .inl ⟨hend1, by simp [hvals, List.drop_tail]⟩
        · refine .inr ⟨hend1, w, ?_, by simp [hvals, List.drop_tail]⟩
          rwa [← headD_drop, List.drop_tail, headD_drop] at hleft
termination_by (r.rest.length, ms.length + 1)
decreasing_by
  all_goals
    simp +zetaDelta only [Prod.lex_def, List.length_cons] at *
    omega

end

variable {S}

theorem LeftByText.readText {s : Shape ι} {d d' : Value} {r : TextReader}
    (h : S.LeftByText s d r d') :
    (S.readText s d r).fault ≠ none ∧ (S.readText s d r).value = d' := by
  induction h with
  | scalar hpe =>
    rw [readText.eq_1]
    simp [hpe]
  | recordOpen hopen =>
    rw [readText_record_open_fail hopen]
    simp
  | @recordEnd rid d r r1 pre post m vs hopen hsplit hreads hend =>
    have hmem : S.readMembers (S.descriptor rid).members d.fields
        (r.skipBlanks.expect '[' .missingOpenToken).reader =
        ⟨vs ++ d.fields.drop pre.length, r1.skipBlanks,
          some (.atByte .unexpectedEnd r1.skipBlanks.pos)⟩ := by
      rw [hsplit, ReadsMembersText.readMembers hreads, readMembers_cons_atEnd hend]
    rw [readText_record_members_fault hopen hmem rfl]
    simp
  | @recordMember rid d r r1 pre post m vs w hopen hsplit hreads hend _ ih =>
    obtain ⟨f, hf⟩ := Option.ne_none_iff_exists'.mp ih.1
    have hmem : S.readMembers (S.descriptor rid).members d.fields
        (r.skipBlanks.expect '[' .missingOpenToken).reader =
        ⟨vs ++ w :: d.fields.drop (pre.length + 1),
          (S.readText m.shape (d.fields.getD pre.length (S.default m.shape)) r1.skipBlanks).reader,
          some f⟩ := by
      rw [hsplit, ReadsMembersText.readMembers hreads,
        readMembers_cons_fault hend (by rw [headD_drop]) hf, ih.2]
      simp [List.tail_drop]
    rw [readText_record_members_fault hopen hmem rfl]
    simp
  | @recordClose rid d r r1 vs hopen hreads hc =>
    have hmem : S.readMembers (S.descriptor rid).members d.fields
        (r.skipBlanks.expect '[' .missingOpenToken).reader =
        ⟨vs ++ d.fields.drop (S.descriptor rid).members.length, r1, none⟩ := by
      have h := ReadsMembersText.readMembers hreads []
      rw [List.append_nil, readMembers.eq_1] at h
      exact h
    rw [readText_record_unclosed hopen hmem rfl hc]
    simp
  | collectionOpen hopen =>
    rw [readText_collection_open_fail hopen]
    simp
  | collectionEnd hopen hreads hend =>
    rw [readText_collection_open hopen, ReadsItemsText.readItems hreads, readItems_atEnd hend]
    simp
  | element hopen hreads hend hclose hfail =>
    rw [readText_collection_open hopen, ReadsItemsText.readItems hreads,
      readItems_fault hend hclose rfl hfail]
    simp

/-- A text read fails leaving `d'` exactly when the walk to its failure leads to `d'`. -/
theorem readText_fails_iff (s : Shape ι) (d : Value) (r : TextReader) (d' : Value) :
    ((S.readText s d r).fault ≠ none ∧ (S.readText s d r).value = d') ↔ S.LeftByText s d r d' :=
  ⟨fun ⟨hf, hv⟩ => hv ▸ S.leftByText_of_readText s d r hf, LeftByText.readText⟩

/-- What a failed read leaves, in both codecs. A binary read, or a text read, of any shape into
any value fails leaving `d'` exactly when the walk to its failure leads to `d'`: members before
the failing one hold what was read for them, it holds what its own failure left, and those
after it their old values; a scalar that fails keeps its old value; a collection whose count or
opening brace is not read keeps its old elements, and one whose count or brace is read holds the
elements read whole before the failure, inserted by its rule, and none of its old ones; in text,
a record whose closing bracket is missing holds all of its members read. -/
theorem failed_read_leaves (s : Shape ι) (d : Value) :
    (∀ (input : List UInt8) (d' : Value),
      ((S.decode s d input).fault ≠ none ∧ (S.decode s d input).value = d') ↔
        S.LeftBy s d input d') ∧
    (∀ (r : TextReader) (d' : Value),
      ((S.readText s d r).fault ≠ none ∧ (S.readText s d r).value = d') ↔
        S.LeftByText s d r d') :=
  ⟨decode_fails_iff s d, readText_fails_iff s d⟩

end Schema

end RecordWire
