import RecordWire.Proofs.PartialRead
/-!
# Sets keep their order

The order of values is a strict total order: comparing is reflexive, antisymmetric and
transitive (`Value.isLE_trans`), values of different kinds comparing by the rank of their kind
and values of one kind by the order of that kind, lexicographically for records and
collections. So inserting into a strictly ascending list keeps it strictly ascending, and a set
built by inserting any elements, in any order and with any repeats, holds each distinct element
once and in ascending order.

Both decoders build a set that way, one element read after another; a read that succeeds is
exactly a count (or an opening brace) followed by elements that each read, and gives their set
(`sets_hold_distinct_sorted`). Writing it gives the number of distinct elements as its count.
-/

namespace RecordWire

/-! ## The order of values -/

namespace Value

/-- Values of different kinds compare by the ranks of their kinds. -/
theorem compare_of_kindRank_ne {a b : Value} (h : a.kindRank ≠ b.kindRank) :
    compare a b = Ord.compare a.kindRank b.kindRank := by
  cases a <;> cases b <;> first | rfl | simp [kindRank] at h

theorem kindRank_le_of_isLE {a b : Value} (h : (compare a b).isLE) : a.kindRank ≤ b.kindRank := by
  by_cases hk : a.kindRank = b.kindRank
  · exact hk.le
  · rwa [compare_of_kindRank_ne hk, Nat.isLE_compare] at h

theorem compare_of_kindRank_lt {a b : Value} (h : a.kindRank < b.kindRank) :
    compare a b = .lt := by
  rw [compare_of_kindRank_ne h.ne, Nat.compare_eq_lt]
  exact h

mutual
theorem compare_self (a : Value) : compare a a = .eq := by
  cases a with
  | record as => rw [compare]; exact compareList_self as
  | items as => rw [compare]; exact compareList_self as
  | int _ | float _ | bool _ | str _ => simp only [compare]; exact Std.ReflCmp.compare_self
termination_by structural a
theorem compareList_self (as : List Value) : compareList as as = .eq := by
  cases as with
  | nil => rfl
  | cons a as => rw [compareList, compare_self a, compareList_self as]; rfl
termination_by structural as
end

mutual
theorem eq_of_compare {a b : Value} (h : compare a b = .eq) : a = b := by
  cases a <;> cases b
  case record.record as bs => rw [compare] at h; rw [eq_of_compareList h]
  case items.items as bs => rw [compare] at h; rw [eq_of_compareList h]
  -- one scalar kind compares by a lawful order; two kinds never compare equal
  all_goals first
    | (simp only [compare] at h; rw [Std.LawfulEqCmp.eq_of_compare h])
    | (simp [compare, kindRank] at h)
termination_by structural a
theorem eq_of_compareList {as bs : List Value} (h : compareList as bs = .eq) : as = bs := by
  cases as with
  | nil =>
    cases bs with
    | nil => rfl
    | cons => simp [compareList] at h
  | cons a as =>
    cases bs with
    | nil => simp [compareList] at h
    | cons b bs =>
      rw [compareList, Ordering.then_eq_eq] at h
      rw [eq_of_compare h.1, eq_of_compareList h.2]
termination_by structural as
end

mutual
theorem isLE_trans {a b c : Value} (hab : (compare a b).isLE) (hbc : (compare b c).isLE) :
    (compare a c).isLE := by
  have hrab := kindRank_le_of_isLE hab
  have hrbc := kindRank_le_of_isLE hbc
  by_cases hrac : a.kindRank < c.kindRank
  · rw [compare_of_kindRank_lt hrac]
    rfl
  -- otherwise all three are of one kind, and compare as that kind does
  cases a <;> cases b <;> cases c <;> simp only [kindRank] at hrab hrbc hrac <;> (try omega)
  case record.record.record as bs cs =>
    simp only [compare] at hab hbc ⊢
    exact compareList_isLE_trans hab hbc
  case items.items.items as bs cs =>
    simp only [compare] at hab hbc ⊢
    exact compareList_isLE_trans hab hbc
  all_goals
    simp only [compare] at hab hbc ⊢
    exact Std.TransCmp.isLE_trans hab hbc
termination_by structural a
theorem compareList_isLE_trans {as bs cs : List Value} (hab : (compareList as bs).isLE)
    (hbc : (compareList bs cs).isLE) : (compareList as cs).isLE := by
  cases as with
  | nil => cases cs <;> rfl
  | cons a as =>
    cases bs with
    | nil => simp [compareList] at hab
    | cons b bs =>
      cases cs with
      | nil => simp [compareList] at hbc
      | cons c cs =>
        simp only [compareList, Ordering.isLE_then_iff_or] at hab hbc ⊢
        rcases hab with hab | ⟨hab, habs⟩
        · rcases hbc with hbc | ⟨hbc, -⟩
          · -- below twice is below: were the ends equal, `b` would lie both above and below `a`
            left
            have hac := isLE_trans (a := a) (by rw [hab]; rfl) (by rw [hbc]; rfl)
            cases hc : compare a c
            · rfl
            · obtain rfl := eq_of_compare hc
              have hswap := compare_swap b a
              rw [hbc] at hswap
              rw [← hswap] at hab
              cases hab
            · rw [hc] at hac
              cases hac
          · obtain rfl := eq_of_compare hbc
            exact .inl hab
        · obtain rfl := eq_of_compare hab
          rcases hbc with hbc | ⟨hbc, hbcs⟩
          · exact .inl hbc
          · exact .inr ⟨hbc, compareList_isLE_trans habs hbcs⟩
termination_by structural as
end

instance : Std.TransCmp compare where
  eq_swap {a b} := (compare_swap b a).symm
  isLE_trans := isLE_trans

instance : Std.LawfulEqCmp compare where
  compare_self {a} := compare_self a
  eq_of_compare := eq_of_compare

end Value

/-! ## Sets built by insertion -/

theorem nodup_of_ascending {xs : List Value} (h : xs.Pairwise fun a b => Value.compare a b = .lt) :
    xs.Nodup :=
  h.imp fun hab heq => by
    subst heq
    rw [Value.compare_self] at hab
    cases hab

theorem mem_insertSorted {v y : Value} {xs : List Value} :
    y ∈ insertSorted v xs ↔ y = v ∨ y ∈ xs := by
  induction xs with
  | nil => simp [insertSorted]
  | cons x xs ih =>
    cases hc : Value.compare v x with
    | lt => simp [insertSorted, hc]
    | eq =>
      obtain rfl := Value.eq_of_compare hc
      simp [insertSorted, hc]
    | gt =>
      simp only [insertSorted, hc, List.mem_cons, ih]
      tauto

theorem ascending_insertSorted {v : Value} {xs : List Value}
    (h : xs.Pairwise fun a b => Value.compare a b = .lt) :
    (insertSorted v xs).Pairwise fun a b => Value.compare a b = .lt := by
  induction xs with
  | nil => simp [insertSorted]
  | cons x xs ih =>
    rw [List.pairwise_cons] at h
    cases hc : Value.compare v x with
    | lt =>
      -- `v` goes first, below `x` and so below all after it
      rw [insertSorted, hc]
      refine List.Pairwise.cons (fun y hy => ?_) (List.Pairwise.cons h.1 h.2)
      rcases List.mem_cons.mp hy with rfl | hy
      · exact hc
      · exact Std.TransCmp.lt_trans hc (h.1 y hy)
    | eq => simpa [insertSorted, hc] using And.intro h.1 h.2
    | gt =>
      -- `x` stays first, below `v` and below the rest
      rw [insertSorted, hc]
      refine List.Pairwise.cons (fun y hy => ?_) (ih h.2)
      rcases mem_insertSorted.mp hy with rfl | hy
      · rw [← Value.compare_swap, hc]
        rfl
      · exact h.1 y hy

namespace CollectionKind

theorem mem_foldl_insert (k : CollectionKind) (xs : List Value) {acc : List Value} {y : Value} :
    y ∈ xs.foldl k.insert acc ↔ y ∈ acc ∨ y ∈ xs := by
  induction xs generalizing acc with
  | nil => simp
  | cons x xs ih =>
    have hstep : y ∈ k.insert acc x ↔ y ∈ acc ∨ y = x := by
      unfold insert
      split
      · rw [mem_insertSorted]
        tauto
      · simp
    rw [List.foldl_cons, ih, hstep, List.mem_cons]
    tauto

theorem ascending_foldl_insert {k : CollectionKind} (hk : k.isSet = true) (xs : List Value)
    {acc : List Value} (h : acc.Pairwise fun a b => Value.compare a b = .lt) :
    (xs.foldl k.insert acc).Pairwise fun a b => Value.compare a b = .lt := by
  induction xs generalizing acc with
  | nil => exact h
  | cons x xs ih =>
    rw [List.foldl_cons]
    apply ih
    simp only [insert, hk, if_true]
    exact ascending_insertSorted h

/-- A set built by inserting `xs` holds each distinct element of `xs` once, in strictly
ascending order. -/
theorem ofList_set {k : CollectionKind} (hk : k.isSet = true) (xs : List Value) :
    (k.ofList xs).Perm xs.dedup ∧ (k.ofList xs).Pairwise fun a b => Value.compare a b = .lt := by
  have hasc := ascending_foldl_insert hk xs List.Pairwise.nil
  refine ⟨(List.perm_ext_iff_of_nodup (nodup_of_ascending hasc) (List.nodup_dedup xs)).mpr
    fun y => ?_, hasc⟩
  simp only [mem_foldl_insert, List.mem_dedup, List.not_mem_nil, false_or]

/-- A strictly ascending list with the elements of `xs` is the set built from them. -/
theorem eq_ofList {k : CollectionKind} (hk : k.isSet = true) {xs ys : List Value}
    (hperm : ys.Perm xs.dedup) (hasc : ys.Pairwise fun a b => Value.compare a b = .lt) :
    ys = k.ofList xs := by
  obtain ⟨hperm', hasc'⟩ := ofList_set hk xs
  refine List.Perm.eq_of_pairwise (fun a b _ _ hab hba => ?_) hasc hasc' (hperm.trans hperm'.symm)
  rw [← Value.compare_swap, hab] at hba
  cases hba

/-- Building a set gives its list back exactly when the list is strictly ascending. -/
theorem ofList_eq_self_iff {k : CollectionKind} (hk : k.isSet = true) {xs : List Value} :
    k.ofList xs = xs ↔ xs.Pairwise fun a b => Value.compare a b = .lt := by
  constructor
  · intro h
    rw [← h]
    exact (ofList_set hk xs).2
  · intro h
    exact ofList_of_sorted fun _ => h

end CollectionKind

/-- `ys` is the set of the elements `xs`: it holds each distinct element of `xs` once, in
strictly ascending order. -/
def IsSetOf (ys xs : List Value) : Prop :=
  ys.Perm xs.dedup ∧ ys.Pairwise fun a b => Value.compare a b = .lt

/-! ## Reading sets -/

namespace Schema

variable {ι : Type} {S : Schema ι} {k : CollectionKind} {e : Shape ι}

theorem readsItems_of_decodeItems {n : Nat} {acc : List Value} {input : List UInt8}
    (hok : (S.decodeItems k e n acc input).fault = none) :
    ∃ xs, S.ReadsItems e xs input (S.decodeItems k e n acc input).rest ∧ xs.length = n ∧
      (S.decodeItems k e n acc input).values = xs.foldl k.insert acc := by
  induction n generalizing acc input with
  | zero =>
    rw [decodeItems.eq_1] at hok ⊢
    exact ⟨[], .nil input, rfl, rfl⟩
  | succ n ih =>
    rcases ho : S.decode e (S.default e) input with ⟨x, mid, fault⟩
    cases fault with
    | some f =>
      rw [decodeItems_succ_fault ho rfl] at hok
      cases hok
    | none =>
      rw [decodeItems_succ_ok ho rfl] at hok ⊢
      obtain ⟨xs, hreads, hlen, hvals⟩ := ih hok
      exact ⟨x :: xs, .cons ho hreads, by simp [hlen], hvals⟩

/-- A binary collection reads exactly when its count is followed by that many elements that
read; it holds them inserted one after another. -/
theorem decode_collection_ok_iff {old v : Value} {input rest : List UInt8} :
    S.decode (.collection k e) old input = ⟨v, rest, none⟩ ↔
      ∃ xs body, readCount input = some (xs.length, body) ∧ S.ReadsItems e xs body rest ∧
        v = .items (k.ofList xs) := by
  constructor
  · intro h
    cases hc : readCount input with
    | none =>
      rw [decode_collection_none hc] at h
      cases h
    | some p =>
      obtain ⟨n, body⟩ := p
      rw [decode_collection_some hc, Decoded.mk.injEq] at h
      obtain ⟨hv, hrest, hf⟩ := h
      obtain ⟨xs, hreads, hlen, hvals⟩ := readsItems_of_decodeItems hf
      refine ⟨xs, body, by rw [hlen], hrest ▸ hreads, ?_⟩
      rw [← hv, hvals]
      rfl
  · rintro ⟨xs, body, hc, hreads, rfl⟩
    have hitems := hreads.decodeItems (k := k) 0 []
    rw [Nat.add_zero] at hitems
    rw [decode_collection_some hc, hitems, decodeItems.eq_1]
    rfl

theorem readsItemsText_of_readItems (acc : List Value) (r : TextReader)
    (hok : (S.readItems k e acc r).fault = none) :
    ∃ xs r1, S.ReadsItemsText e xs r r1 ∧ r1.skipBlanks.atEnd = false ∧
      r1.skipBlanks.eat '}' = (true, (S.readItems k e acc r).reader) ∧
      (S.readItems k e acc r).values = xs.foldl k.insert acc := by
  cases hend : r.skipBlanks.atEnd with
  | true =>
    rw [readItems_atEnd hend] at hok
    cases hok
  | false =>
    rcases hclose : r.skipBlanks.eat '}' with ⟨b, r2⟩
    cases b with
    | true =>
      rw [readItems_close hend hclose]
      exact ⟨[], r, .nil r, hend, hclose, rfl⟩
    | false =>
      have hclose' : (r.skipBlanks.eat '}').1 = false := by rw [hclose]
      rcases ho : S.readText e (S.default e) r.skipBlanks with ⟨x, mid, fault⟩
      cases fault with
      | some f =>
        rw [readItems_fault hend hclose' ho rfl] at hok
        cases hok
      | none =>
        have hlt : mid.rest.length < r.rest.length := by
          have h := S.readText_lt e (S.default e) r.skipBlanks (by rw [ho])
          rw [ho] at h
          exact Nat.lt_of_lt_of_le h r.length_skipBlanks_le
        rw [readItems_ok hend hclose' ho rfl] at hok ⊢
        obtain ⟨xs, r1, hreads, hend1, hclose1, hvals⟩ :=
          readsItemsText_of_readItems (k.insert acc x) mid hok
        exact ⟨x :: xs, r1, .cons hend hclose' ho hreads, hend1, hclose1, hvals⟩
termination_by r.rest.length

/-- A text collection reads exactly when its opening brace is followed by elements that read
and a closing brace; it holds them inserted one after another. -/
theorem readText_collection_ok_iff {old v : Value} {r r' : TextReader} :
    S.readText (.collection k e) old r = ⟨v, r', none⟩ ↔
      ∃ xs r1, (r.skipBlanks.expect '{' .missingOpenToken).result = .ok () ∧
        S.ReadsItemsText e xs (r.skipBlanks.expect '{' .missingOpenToken).reader r1 ∧
        r1.skipBlanks.atEnd = false ∧ r1.skipBlanks.eat '}' = (true, r') ∧
        v = .items (k.ofList xs) := by
  constructor
  · intro h
    cases hopen : (r.skipBlanks.expect '{' .missingOpenToken).result with
    | error pe =>
      rw [readText_collection_open_fail hopen] at h
      cases h
    | ok u =>
      rw [readText_collection_open hopen, TextRead.mk.injEq] at h
      obtain ⟨hv, hr, hf⟩ := h
      obtain ⟨xs, r1, hreads, hend, hclose, hvals⟩ := readsItemsText_of_readItems [] _ hf
      refine ⟨xs, r1, rfl, hreads, hend, hr ▸ hclose, ?_⟩
      rw [← hv, hvals]
      rfl
  · rintro ⟨xs, r1, hopen, hreads, hend, hclose, rfl⟩
    rw [readText_collection_open hopen, hreads.readItems [], readItems_close hend hclose]
    rfl

/-- The set of `xs` is the one strictly ascending list with their distinct elements. -/
theorem isSetOf_iff (hk : k.isSet = true) {xs ys : List Value} : IsSetOf ys xs ↔ ys = k.ofList xs :=
  ⟨fun h => CollectionKind.eq_ofList hk h.1 h.2, fun h => h ▸ CollectionKind.ofList_set hk xs⟩

variable (S) in
/-- Reading a set keeps it a set. A set reads from its binary form exactly when the form is a
count followed by that many elements that read, and from its text exactly when the text is an
opening brace, elements that read and a closing brace; whatever elements those are, in
whatever order and with whatever repeats, the set read holds each distinct one once, in strictly
ascending order. Writing it then gives the number of distinct elements as its count, followed
by those elements in that order. -/
theorem sets_hold_distinct_sorted (hk : k.isSet = true) (old : Value) :
    (∀ input rest v, S.decode (.collection k e) old input = ⟨v, rest, none⟩ ↔
      ∃ xs body ys, readCount input = some (xs.length, body) ∧ S.ReadsItems e xs body rest ∧
        v = .items ys ∧ IsSetOf ys xs) ∧
    (∀ r r' v, S.readText (.collection k e) old r = ⟨v, r', none⟩ ↔
      ∃ xs r1 ys, (r.skipBlanks.expect '{' .missingOpenToken).result = .ok () ∧
        S.ReadsItemsText e xs (r.skipBlanks.expect '{' .missingOpenToken).reader r1 ∧
        r1.skipBlanks.atEnd = false ∧ r1.skipBlanks.eat '}' = (true, r') ∧
        v = .items ys ∧ IsSetOf ys xs) ∧
    (∀ xs ys, IsSetOf ys xs → xs.dedup.length < 2 ^ 32 →
      S.encode (.collection k e) (.items ys) =
        (Emitted.mk (leBytes 4 xs.dedup.length) none).andThen fun _ => S.encodeItems e ys) := by
  refine ⟨fun input rest v => ?_, fun r r' v => ?_, fun xs ys hset hlen => ?_⟩
  · rw [decode_collection_ok_iff]
    simp only [isSetOf_iff hk]
    constructor
    · rintro ⟨xs, body, hc, hreads, rfl⟩
      exact ⟨xs, body, _, hc, hreads, rfl, rfl⟩
    · rintro ⟨xs, body, ys, hc, hreads, rfl, rfl⟩
      exact ⟨xs, body, hc, hreads, rfl⟩
  · rw [readText_collection_ok_iff]
    simp only [isSetOf_iff hk]
    constructor
    · rintro ⟨xs, r1, hopen, hreads, hend, hclose, rfl⟩
      exact ⟨xs, r1, _, hopen, hreads, hend, hclose, rfl, rfl⟩
    · rintro ⟨xs, r1, ys, hopen, hreads, hend, hclose, rfl, rfl⟩
      exact ⟨xs, r1, hopen, hreads, hend, hclose, rfl⟩
  · -- the count written is the number of elements the set holds
    have hcount : ys.length = xs.dedup.length := hset.1.length_eq
    rw [encode, hcount, if_pos (show xs.dedup.length < Nat.pow 2 32 from hlen)]

end Schema

/-- The ids 3, 1, 3 under a count of three read as the set of 1 and 3. -/
theorem repeated_ids_read_once :
    let input : List UInt8 := [3, 0, 0, 0, 3, 0, 0, 0, 1, 0, 0, 0, 3, 0, 0, 0]
    CollectionKind.orderedSet.isSet = true ∧
      IsSetOf [.int 1, .int 3] [.int 3, .int 1, .int 3] ∧
      catalog.decode (.collection .orderedSet (.scalar .u32)) (.items []) input =
        ⟨.items [.int 1, .int 3], [], none⟩ := by
  intro input
  have hset : IsSetOf [.int 1, .int 3] [.int 3, .int 1, .int 3] := by
    unfold IsSetOf
    decide
  have hreads : catalog.ReadsItems (.scalar .u32) [.int 3, .int 1, .int 3] (input.drop 4) [] :=
    .cons (by rw [Schema.decode.eq_1]; rfl) (.cons (by rw [Schema.decode.eq_1]; rfl)
      (.cons (by rw [Schema.decode.eq_1]; rfl) (.nil [])))
  refine ⟨rfl, hset, ?_⟩
  exact ((Schema.sets_hold_distinct_sorted catalog rfl (.items [])).1 input [] _).mpr
    ⟨_, _, _, rfl, hreads, rfl, hset⟩

end RecordWire
