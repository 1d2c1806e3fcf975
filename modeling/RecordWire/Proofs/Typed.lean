import Mathlib
import RecordWire.Codec.Scalar
/-!
# Well-typed values

A `Value` carries no type of its own; the shape of a member says what it may hold. A value of a
shape is an integer in the range of its integer type, a float pattern of its format's width, a
boolean or a string for those types, a record holding one value of each member's shape, in
declaration order, or a collection of values of the element shape. A set holds its elements in
strictly ascending order, which is how inserting one element after another leaves it.

Every default is a value of its shape, and inserting the elements of a well-typed collection one
after another into an empty one gives the collection back. The second fact rests on the order of
values being antisymmetric: `Value.compare_swap`.
-/

namespace RecordWire

/-! ## The order of values -/

namespace Value

mutual
/-- Comparing the other way round swaps the answer. -/
theorem compare_swap (a b : Value) : (compare a b).swap = compare b a := by
  -- values of different kinds compare by the rank of their kind, a `Nat`; those of one scalar
  -- kind by an order of the standard library, which is lawful too
  cases a with
  | record as =>
    cases b <;> simp only [compare]
    case record bs => exact compareList_swap as bs
    all_goals exact Std.OrientedOrd.eq_swap.symm
  | items as =>
    cases b <;> simp only [compare]
    case items bs => exact compareList_swap as bs
    all_goals exact Std.OrientedOrd.eq_swap.symm
  | int _ | float _ | bool _ | str _ =>
    cases b <;> simp only [compare] <;> exact Std.OrientedOrd.eq_swap.symm
termination_by structural a
theorem compareList_swap (as bs : List Value) : (compareList as bs).swap = compareList bs as := by
  cases as with
  | nil => cases bs <;> rfl
  | cons a as =>
    cases bs with
    | nil => rfl
    | cons b bs =>
      simp only [compareList, Ordering.swap_then, compare_swap a b, compareList_swap as bs]
termination_by structural as
end

theorem compare_eq_gt_of_lt {a b : Value} (h : compare a b = .lt) : compare b a = .gt := by
  rw [← compare_swap, h]
  rfl

end Value

/-- Inserting an element above every element of a list puts it at the end. -/
theorem insertSorted_of_lt {v : Value} {acc : List Value}
    (h : ∀ a ∈ acc, Value.compare a v = .lt) : insertSorted v acc = acc ++ [v] := by
  induction acc with
  | nil => rfl
  | cons a acc ih =>
    have hgt : Value.compare v a = .gt := Value.compare_eq_gt_of_lt (h a List.mem_cons_self)
    simp only [insertSorted, hgt, List.cons_append]
    rw [ih fun b hb => h b (List.mem_cons_of_mem a hb)]

namespace CollectionKind

/-- Inserting the elements of `xs` one after another appends them to `acc`, as long as a set
receives them in strictly ascending order, each above all of `acc`. -/
theorem foldl_insert {k : CollectionKind} (xs : List Value) {acc : List Value}
    (h : k.isSet = true → (acc ++ xs).Pairwise fun a b => Value.compare a b = .lt) :
    xs.foldl k.insert acc = acc ++ xs := by
  induction xs generalizing acc with
  | nil => simp
  | cons x xs ih =>
    have hstep : k.insert acc x = acc ++ [x] := by
      unfold insert
      split
      · next hset =>
        apply insertSorted_of_lt
        intro a ha
        exact (List.pairwise_append.mp (h hset)).2.2 a ha x List.mem_cons_self
      · rfl
    rw [List.foldl_cons, hstep, ih (by simpa using h)]
    simp

/-- A collection of distinct elements in ascending order, inserted one after another into an
empty one, comes back as it was; a sequence comes back in any case. -/
theorem ofList_of_sorted {k : CollectionKind} {xs : List Value}
    (h : k.isSet = true → xs.Pairwise fun a b => Value.compare a b = .lt) : k.ofList xs = xs :=
  foldl_insert xs (by simpa using h)

end CollectionKind

/-! ## Values of a shape -/

namespace ScalarType

theorem admits_default (t : ScalarType) : t.admits t.default = true := by
  cases t <;> decide

end ScalarType

namespace Schema

variable {ι : Type} (S : Schema ι)

/-- The values of a shape. A record holds one value per member, each of the member's shape; a
set holds its elements once each and in ascending order. -/
inductive Typed : Shape ι → Value → Prop
  | scalar {t : ScalarType} {v : Value} : t.admits v = true → Typed (.scalar t) v
  | record {r : ι} {vs : List Value} :
      vs.length = (S.descriptor r).members.length →
      (∀ p ∈ (S.descriptor r).members.zip vs, Typed p.1.shape p.2) →
      Typed (.record r) (.record vs)
  | collection {k : CollectionKind} {e : Shape ι} {xs : List Value} :
      (∀ x ∈ xs, Typed e x) →
      (k.isSet = true → xs.Pairwise fun a b => Value.compare a b = .lt) →
      Typed (.collection k e) (.items xs)

variable {S}

theorem Typed.forall₂_members {r : ι} {vs : List Value} (h : S.Typed (.record r) (.record vs)) :
    List.Forall₂ (fun m v => S.Typed m.shape v) (S.descriptor r).members vs := by
  cases h with
  | record hlen hall =>
    exact List.forall₂_iff_zip.mpr ⟨hlen.symm, fun hp => hall _ hp⟩

/-- A relation between two lists holds between the first one's attached elements and the
second. -/
theorem forall₂_attach {α β : Type} {R : α → β → Prop} {l : List α} {u : List β}
    (h : List.Forall₂ R l u) : List.Forall₂ (fun a b => R a.1 b) l.attach u := by
  have h' : List.Forall₂ R (l.attach.map Subtype.val) u := by rwa [List.attach_map_subtype_val]
  exact List.forall₂_map_left_iff.mp h'

variable (S)

/-- Every default is a value of its shape. -/
theorem typed_default (s : Shape ι) : S.Typed s (S.default s) := by
  fun_induction S.default s with
  | case1 t => exact .scalar t.admits_default
  | case2 r ih =>
    refine .record (by simp) fun p hp => ?_
    -- the default record pairs each member with its own default
    simp only [List.map_attach_eq_pmap, List.pmap_eq_map] at hp
    rw [List.zip_map_right, List.zip_eq_zipWith, List.zipWith_self, List.map_map,
      List.mem_map] at hp
    obtain ⟨m, hm, rfl⟩ := hp
    exact ih m hm
  | case3 k e => exact .collection (by simp) (fun _ => List.Pairwise.nil)

/-! ## Deciding whether a value is of a shape -/

mutual
/-- Whether `v` is a value of shape `s`, computed. -/
def typed : Shape ι → Value → Bool
  | .scalar t, v => t.admits v
  | .record r, .record vs => typedMembers (S.descriptor r).members vs
  | .collection k e, .items xs =>
    typedItems e xs && (!k.isSet || decide (xs.Pairwise fun a b => Value.compare a b = .lt))
  | _, _ => false
/-- Whether `vs` holds one value of each member's shape. -/
def typedMembers : List (Member ι) → List Value → Bool
  | [], [] => true
  | m :: ms, v :: vs => typed m.shape v && typedMembers ms vs
  | _, _ => false
/-- Whether every element of `xs` is of shape `e`. -/
def typedItems (e : Shape ι) : List Value → Bool
  | [] => true
  | x :: xs => typed e x && typedItems e xs
end

mutual
theorem typed_iff (s : Shape ι) (v : Value) : S.typed s v = true ↔ S.Typed s v := by
  cases v <;> cases s
  case record.record vs r =>
    rw [typed, typedMembers_iff]
    exact ⟨fun ⟨hlen, hall⟩ => .record hlen hall, fun h => by cases h; exact ⟨‹_›, ‹_›⟩⟩
  case items.collection xs k e =>
    rw [typed, Bool.and_eq_true, typedItems_iff]
    constructor
    · rintro ⟨hall, hset⟩
      refine .collection hall fun hk => ?_
      simpa [hk] using hset
    · intro h
      cases h with
      | collection hall hset =>
        refine ⟨hall, ?_⟩
        cases hk : k.isSet <;> simp_all
  all_goals
    first
    | exact ⟨fun h => .scalar h, fun h => by cases h; assumption⟩
    | exact ⟨fun h => by simp [typed] at h, fun h => by cases h⟩
termination_by structural v
theorem typedMembers_iff (ms : List (Member ι)) (vs : List Value) :
    S.typedMembers ms vs = true ↔ vs.length = ms.length ∧ ∀ p ∈ ms.zip vs, S.Typed p.1.shape p.2 := by
  cases vs with
  | nil => cases ms <;> simp [typedMembers]
  | cons v vs =>
    cases ms with
    | nil => simp [typedMembers]
    | cons m ms =>
      rw [typedMembers, Bool.and_eq_true, typed_iff m.shape v, typedMembers_iff ms vs]
      simp only [List.length_cons, Nat.add_right_cancel_iff, List.zip_cons_cons, List.mem_cons,
        forall_eq_or_imp]
      tauto
termination_by structural vs
theorem typedItems_iff (e : Shape ι) (xs : List Value) :
    S.typedItems e xs = true ↔ ∀ x ∈ xs, S.Typed e x := by
  cases xs with
  | nil => simp [typedItems]
  | cons x xs =>
    rw [typedItems, Bool.and_eq_true, typed_iff e x, typedItems_iff e xs]
    simp
termination_by structural xs
end

instance (s : Shape ι) (v : Value) : Decidable (S.Typed s v) :=
  decidable_of_iff _ (S.typed_iff s v)

end Schema

end RecordWire
