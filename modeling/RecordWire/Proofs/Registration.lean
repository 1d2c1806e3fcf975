import Mathlib
import RecordWire.Protocol.Registry
/-!
# Registration runs

A protocol keeps two indexes of its types: by code, an ordered map, and by type. Registering a
type looks it up in the index by type and refuses it when it is there; otherwise it takes as code
one more than the largest key of the index by code, and enters the type under that code in both.
Nothing in a single call ties the two indexes together; what does is an invariant over every run
of calls from an empty protocol (`Registers`): the index by code numbers the distinct types
registered so far from one, in the order of registration, and the index by type gives each of
them that number and holds nothing else. One registration keeps it (`Registers.step`), since
the largest key is then the number of types so far and a refused call changes nothing; so every
protocol that registration builds keeps it (`Reachable.registers`). From it:

* the registered types are the distinct types of the calls, in the order of their first call; the
  call that first names a type answers its code, one more than the number of distinct types
  before it, and every later call for it answers `duplicatePdu` and changes neither index
  (`Registers.run`, `Registers.registerAll_answers`);
* the two indexes are inverse, of the same size (`Registers.lookup_byType_iff`), so `code` and
  `typeFor` are inverse, and the codes in use are exactly `1` to `n`;
* the listing by code gives `(1, first type)` to `(n, last type)`.

A builder registers its types until the first refusal and skips every registration after it: it
answers the first `duplicatePdu` of its chain, or the protocol of all its types when none repeats
(`build_of_nodup`, `build_of_first_dup`).

The distinct elements of a list, in the order of their first occurrence, are `List.eraseDups`.
-/

namespace List

variable {α : Type} [DecidableEq α]

theorem eraseDups_of_nodup {l : List α} (h : l.Nodup) : l.eraseDups = l := by
  induction l with
  | nil => rfl
  | cons a l ih =>
    obtain ⟨ha, hl⟩ := List.nodup_cons.mp h
    -- nothing after `a` equals it, so the filter keeps the whole tail
    have hkeep : l.filter (fun b => !b == a) = l :=
      List.filter_eq_self.mpr fun b hb => by simpa using fun hba : b = a => ha (hba ▸ hb)
    rw [List.eraseDups_cons, hkeep, ih hl]

theorem nodup_eraseDups : (l : List α) → l.eraseDups.Nodup
  | [] => List.nodup_nil
  | a :: l => by
    rw [List.eraseDups_cons]
    refine List.nodup_cons.mpr ⟨fun hmem => ?_, nodup_eraseDups _⟩
    simpa using (List.mem_filter.mp (List.mem_eraseDups.mp hmem)).2
-- the tail is filtered before the recursion
termination_by l => l.length
decreasing_by
  have := List.length_filter_le (fun b => !b == a) l
  simp only [List.length_cons]
  omega

theorem eraseDups_append_cons_of_mem {a : α} {l₁ l₂ : List α} (h : a ∈ l₁) :
    (l₁ ++ a :: l₂).eraseDups = (l₁ ++ l₂).eraseDups := by
  rw [List.eraseDups_append, List.eraseDups_append, List.cons_removeAll]
  simp [h]

end List

namespace RecordWire

/-! ### Ordered maps -/

theorem lookup_cons_eq {κ α : Type} [DecidableEq κ] (d k' : κ) (y : α) (l : List (κ × α)) :
    ((d, y) :: l).lookup k' = if k' = d then some y else l.lookup k' := by
  by_cases hk : k' = d
  · simp [List.lookup, hk]
  · have hne : (k' == d) = false := by simpa using hk
    simp [List.lookup, hne, hk]

section Ordered

variable {α : Type} {k : Nat} {x : α}

theorem lookup_insertByKey (l : List (Nat × α)) (k' : Nat) :
    (insertByKey k x l).lookup k' = if k' = k then some x else l.lookup k' := by
  induction l with
  | nil => simp [insertByKey, lookup_cons_eq]
  | cons e l ih =>
    obtain ⟨d, y⟩ := e
    simp only [insertByKey]
    -- the new entry goes before, over, or after the entry at `d`
    split_ifs <;> simp_all [lookup_cons_eq]

theorem mem_keys_insertByKey {l : List (Nat × α)} {k' : Nat}
    (hk : k' ∈ (insertByKey k x l).map (·.1)) : k' = k ∨ k' ∈ l.map (·.1) := by
  induction l with
  | nil => simpa [insertByKey] using hk
  | cons e l ih =>
    obtain ⟨d, y⟩ := e
    simp only [insertByKey] at hk
    simp only [List.map_cons, List.mem_cons]
    split_ifs at hk
    · -- the new key goes first, before `d` and the rest
      simpa only [List.map_cons, List.mem_cons] using hk
    · -- the new entry replaces the one at `d`
      simp only [List.map_cons, List.mem_cons] at hk
      exact hk.imp_right .inr
    · -- after `d`, the new key is among the rest or is `k`
      simp only [List.map_cons, List.mem_cons] at hk
      rcases hk with hk | hk
      · exact .inr (.inl hk)
      · exact (ih hk).imp_right .inr

theorem pairwise_insertByKey {l : List (Nat × α)} (hl : (l.map (·.1)).Pairwise (· < ·)) :
    ((insertByKey k x l).map (·.1)).Pairwise (· < ·) := by
  induction l with
  | nil => simp [insertByKey]
  | cons e l ih =>
    obtain ⟨d, y⟩ := e
    rw [List.map_cons, List.pairwise_cons] at hl
    simp only [insertByKey]
    split_ifs with hlt heq
    · -- the new key comes first, below `d` and so below every later key
      have hbelow : ∀ k' ∈ l.map (·.1), k < k' := fun k' hk' => Nat.lt_trans hlt (hl.1 k' hk')
      simp only [List.map_cons, List.pairwise_cons, List.mem_cons]
      refine ⟨?_, hl.1, hl.2⟩
      rintro k' (rfl | hk')
      · exact hlt
      · exact hbelow k' hk'
    · -- the new entry replaces the one at `d`
      subst heq
      rw [List.map_cons, List.pairwise_cons]
      exact hl
    · -- the new key comes after `d`
      rw [List.map_cons, List.pairwise_cons]
      refine ⟨fun k' hk' => ?_, ih hl.2⟩
      rcases mem_keys_insertByKey hk' with rfl | hk'
      · omega
      · exact hl.1 k' hk'

theorem insertByKey_of_lt {l : List (Nat × α)} (h : ∀ e ∈ l, e.1 < k) :
    insertByKey k x l = l ++ [(k, x)] := by
  induction l with
  | nil => rfl
  | cons e l ih =>
    obtain ⟨d, y⟩ := e
    have hd : d < k := h (d, y) List.mem_cons_self
    rw [insertByKey, if_neg (by omega), if_neg (by omega),
      ih fun e he => h e (List.mem_cons_of_mem _ he)]
    rfl

end Ordered

namespace Protocol

variable {ι : Type}

/-! ### Numbering the types -/

/-- Types numbered from one, in order: the index by code of a protocol that registered them. -/
def numbered (ts : List ι) : List (Nat × ι) := ts.zipIdx.map fun (r, k) => (k + 1, r)

section Numbered

variable {ts : List ι} {r : ι}

@[simp] theorem numbered_nil : numbered ([] : List ι) = [] := rfl

theorem numbered_append_singleton (ts : List ι) (r : ι) :
    numbered (ts ++ [r]) = numbered ts ++ [(ts.length + 1, r)] := by
  simp [numbered, List.zipIdx_append]

@[simp] theorem map_snd_numbered (ts : List ι) : (numbered ts).map (·.2) = ts := by
  simp [numbered, Function.comp_def]

@[simp] theorem length_numbered (ts : List ι) : (numbered ts).length = ts.length := by
  simp [numbered]

theorem map_fst_numbered (ts : List ι) : (numbered ts).map (·.1) = List.range' 1 ts.length := by
  -- positions count from zero, codes from one
  have hshift := List.map_add_range' (a := 1) 0 ts.length 1
  rw [← List.zipIdx_map_snd 0 ts, List.map_map] at hshift
  simpa [numbered, Function.comp_def, Nat.add_comm] using hshift

theorem fst_le_of_mem_numbered {e : Nat × ι} (he : e ∈ numbered ts) : e.1 ≤ ts.length := by
  have hk : e.1 ∈ (numbered ts).map (·.1) := List.mem_map_of_mem he
  rw [map_fst_numbered, List.mem_range'_1] at hk
  omega

/-- Code `k + 1` of a numbering names the type at position `k`, and code zero none. -/
theorem lookup_numbered (ts : List ι) (c : Nat) :
    (numbered ts).lookup c = if c = 0 then none else ts[c - 1]? := by
  -- numbering from an offset `n`, the codes run from `n + 1`
  suffices h : ∀ n, ((ts.zipIdx n).map fun (r, k) => (k + 1, r)).lookup c =
      if c ≤ n then none else ts[c - n - 1]? by
    simpa [numbered] using h 0
  induction ts with
  | nil => intro n; simp
  | cons a ts ih =>
    intro n
    rw [List.zipIdx_cons, List.map_cons, lookup_cons_eq, ih (n + 1)]
    by_cases hc : c = n + 1
    · simp [hc]
    · rcases Nat.lt_or_ge n c with hlt | hge
      · have hshift : c - n - 1 = (c - (n + 1) - 1) + 1 := by omega
        rw [if_neg hc, if_neg (by omega : ¬ c ≤ n), if_neg (by omega : ¬ c ≤ n + 1), hshift,
          List.getElem?_cons_succ]
      · simp [hc, show c ≤ n + 1 by omega, hge]

variable [DecidableEq ι]

/-- The code of a type within a numbering without repeats is its position, counted from one. -/
theorem lookup_numbered_iff (hts : ts.Nodup) {c : Nat} :
    (numbered ts).lookup c = some r ↔ r ∈ ts ∧ c = ts.idxOf r + 1 := by
  rw [lookup_numbered]
  constructor
  · intro h
    split_ifs at h with hc
    have hmem : r ∈ ts := List.mem_of_getElem? h
    obtain ⟨hlt, hget⟩ := List.getElem?_eq_some_iff.mp h
    refine ⟨hmem, ?_⟩
    rw [← hget, hts.idxOf_getElem _ hlt]
    omega
  · rintro ⟨hmem, rfl⟩
    simp [List.getElem?_idxOf hmem]

end Numbered

variable [DecidableEq ι]

/-! ### The invariant of the two indexes -/

/-- The two indexes of a protocol that registered the distinct types `ts`, in that order: the
index by code numbers them from one, and the index by type gives each its number and holds
nothing else, one entry per type. -/
structure Registers (p : Protocol ι) (ts : List ι) : Prop where
  nodup : ts.Nodup
  byCode_eq : p.byCode = numbered ts
  lookup_byType : ∀ r, p.byType.lookup r = if r ∈ ts then some (ts.idxOf r + 1) else none
  length_byType : p.byType.length = ts.length

theorem registers_empty (name : String) : Registers ({ name } : Protocol ι) [] :=
  ⟨List.nodup_nil, rfl, fun _ => rfl, rfl⟩

section Registers

variable (S : Schema ι) {p : Protocol ι} {ts : List ι} {r : ι} {c : Nat}

variable {S} in
theorem Registers.pdus_eq (h : Registers p ts) : p.pdus = ts := by
  rw [pdus, h.byCode_eq, map_snd_numbered]

variable {S} in
theorem Registers.size_eq (h : Registers p ts) : p.size = ts.length := by
  rw [size, h.byCode_eq, length_numbered]

variable {S} in
theorem Registers.nextCode_eq (h : Registers p ts) : p.nextCode = ts.length + 1 := by
  rw [nextCode, h.byCode_eq]
  -- the last entry of a numbering carries the number of its types
  induction ts using List.reverseRecOn with
  | nil => rfl
  | append_singleton ts t _ => simp [numbered_append_singleton]

variable {S} in
/-- Each index finds an entry exactly where the other finds its inverse. -/
theorem Registers.lookup_byType_iff (h : Registers p ts) :
    p.byType.lookup r = some c ↔ p.byCode.lookup c = some r := by
  rw [h.lookup_byType, h.byCode_eq, lookup_numbered_iff h.nodup]
  split_ifs with hr
  · simp only [Option.some.injEq, hr, true_and]
    exact eq_comm
  · simp [hr]

/-- A registered type is refused, and so its registration changes nothing. -/
theorem Registers.addPdu_of_mem (h : Registers p ts) (hr : r ∈ ts) :
    p.addPdu S r = .error (.duplicatePdu (S.descriptor r).name) := by
  simp [addPdu, h.lookup_byType, hr]

/-- A new type goes last in the index by code, under the next code, and into the index by type
under the same code. -/
theorem Registers.addPdu_of_not_mem (h : Registers p ts) (hr : r ∉ ts) :
    p.addPdu S r = .ok (ts.length + 1,
      { p with byCode := numbered ts ++ [(ts.length + 1, r)],
               byType := (r, ts.length + 1) :: p.byType }) := by
  have hlast : insertByKey (ts.length + 1) r (numbered ts) = numbered ts ++ [(ts.length + 1, r)] :=
    insertByKey_of_lt fun e he => Nat.lt_succ_of_le (fst_le_of_mem_numbered he)
  simp [addPdu, h.lookup_byType, hr, h.nextCode_eq, h.byCode_eq, hlast]

theorem Registers.snoc (h : Registers p ts) (hr : r ∉ ts) :
    Registers { p with byCode := numbered ts ++ [(ts.length + 1, r)],
                       byType := (r, ts.length + 1) :: p.byType } (ts ++ [r]) where
  nodup := List.nodup_append.mpr ⟨h.nodup, List.nodup_singleton r,
    fun a ha b hb hab => hr (by simp at hb; exact hb ▸ hab ▸ ha)⟩
  byCode_eq := (numbered_append_singleton ts r).symm
  lookup_byType x := by
    rw [lookup_cons_eq, h.lookup_byType]
    by_cases hx : x = r
    · subst hx
      simp [hr, List.idxOf_append_of_notMem hr]
    · simp only [hx, if_false, List.mem_append, List.mem_singleton, or_false]
      split_ifs with hmem
      · rw [List.idxOf_append_of_mem hmem]
      · rfl
  length_byType := by simp [h.length_byType]

end Registers

/-! ### Codes and types -/

section Codes

variable {S : Schema ι} {p : Protocol ι} {ts : List ι} {r : ι} {c : Nat}

theorem code_eq_ok_iff_lookup : p.code S r = .ok c ↔ p.byType.lookup r = some c := by
  rw [code]
  cases p.byType.lookup r <;> simp

omit [DecidableEq ι] in
theorem typeFor_eq_ok_iff_lookup : p.typeFor c = .ok r ↔ p.byCode.lookup c = some r := by
  rw [typeFor]
  cases p.byCode.lookup c <;> simp

omit [DecidableEq ι] in
theorem typeFor_eq_error {e : ProtocolError} (h : p.typeFor c = .error e) : e = .unknownCode c := by
  unfold typeFor at h
  split at h
  · cases h
  · cases h
    rfl

theorem Registers.code_of_mem (h : Registers p ts) (hr : r ∈ ts) :
    p.code S r = .ok (ts.idxOf r + 1) := by
  simp [code, h.lookup_byType, hr]

theorem Registers.code_of_not_mem (h : Registers p ts) (hr : r ∉ ts) :
    p.code S r = .error (.unregisteredType (S.descriptor r).typeName) := by
  simp [code, h.lookup_byType, hr]

theorem Registers.mem_of_code (h : Registers p ts) (hc : p.code S r = .ok c) : r ∈ ts := by
  by_contra hr
  rw [h.code_of_not_mem hr] at hc
  cases hc

/-- `code` and `typeFor` are inverse, as the two indexes are. -/
theorem Registers.code_eq_ok_iff (h : Registers p ts) : p.code S r = .ok c ↔ p.typeFor c = .ok r := by
  rw [code_eq_ok_iff_lookup, typeFor_eq_ok_iff_lookup, h.lookup_byType_iff]

theorem Registers.typeFor_code (h : Registers p ts) (hc : p.code S r = .ok c) :
    p.typeFor c = .ok r :=
  h.code_eq_ok_iff.mp hc

theorem Registers.code_typeFor (h : Registers p ts) (ht : p.typeFor c = .ok r) :
    p.code S r = .ok c :=
  h.code_eq_ok_iff.mpr ht

theorem Registers.typeFor_succ (h : Registers p ts) {k : Nat} (hk : k < ts.length) :
    p.typeFor (k + 1) = .ok ts[k] := by
  simp [typeFor, h.byCode_eq, lookup_numbered, hk]

/-- The codes in use are exactly `1` to the number of types. -/
theorem Registers.typeFor_isOk_iff (h : Registers p ts) :
    (∃ r, p.typeFor c = .ok r) ↔ 1 ≤ c ∧ c ≤ ts.length := by
  simp only [typeFor_eq_ok_iff_lookup, h.byCode_eq, lookup_numbered]
  constructor
  · rintro ⟨r, hr⟩
    split_ifs at hr with hc
    have hlt := (List.getElem?_eq_some_iff.mp hr).1
    omega
  · rintro ⟨hlo, hhi⟩
    exact ⟨ts[c - 1], by simp [show c ≠ 0 by omega, show c - 1 < ts.length by omega]⟩

theorem Registers.code_le_size (h : Registers p ts) (hc : p.code S r = .ok c) : c ≤ p.size := by
  have hr := h.mem_of_code hc
  rw [h.code_of_mem hr] at hc
  cases hc
  rw [h.size_eq]
  exact List.idxOf_lt_length_iff.mpr hr

theorem Registers.typeFor_of_not_code (h : Registers p ts) (hc : ∀ r, p.code S r ≠ .ok c) :
    p.typeFor c = .error (.unknownCode c) := by
  cases ht : p.typeFor c with
  | ok r => exact absurd (h.code_typeFor ht) (hc r)
  | error e => rw [typeFor_eq_error ht]

variable (S) in
/-- The listing by code numbers the types from one and names them in order. -/
theorem Registers.entries_eq (h : Registers p ts) :
    p.entries S = ts.zipIdx.map fun (r, k) => (k + 1, (S.descriptor r).name) := by
  simp [entries, h.byCode_eq, numbered, Function.comp_def]

end Codes

/-! ### Calls one after another -/

variable (S : Schema ι)

/-- One `addPdu` call as its caller sees it: the protocol afterwards, the same one when the call
is refused, and the call's answer. -/
def register (p : Protocol ι) (r : ι) : Protocol ι × Except ProtocolError Nat :=
  match p.addPdu S r with
  | .ok (c, q) => (q, .ok c)
  | .error e => (p, .error e)

/-- `addPdu` calls for the types `rs`, one after another: the protocol at the end, and the
answers in the order of the calls. -/
def registerAll (p : Protocol ι) : List ι → Protocol ι × List (Except ProtocolError Nat)
  | [] => (p, [])
  | r :: rs =>
    let step := register S p r
    (registerAll step.1 rs).map id (step.2 :: ·)

variable {S} {p : Protocol ι} {ts : List ι} {r : ι}

theorem Registers.register_of_mem (h : Registers p ts) (hr : r ∈ ts) :
    register S p r = (p, .error (.duplicatePdu (S.descriptor r).name)) := by
  simp [register, h.addPdu_of_mem S hr]

/-- One call keeps the invariant: the types are those before it, with the call's type last if
it is new; the call answers the next code, or refuses a type seen before. -/
theorem Registers.step (h : Registers p ts) (r : ι) :
    Registers (register S p r).1 (if r ∈ ts then ts else ts ++ [r]) ∧
      (register S p r).1.name = p.name ∧
      (register S p r).2 =
        if r ∈ ts then .error (.duplicatePdu (S.descriptor r).name) else .ok (ts.length + 1) := by
  by_cases hr : r ∈ ts
  · simp [h.register_of_mem hr, hr, h]
  · rw [Protocol.register, h.addPdu_of_not_mem S hr, if_neg hr, if_neg hr]
    exact ⟨h.snoc hr, rfl, rfl⟩

/-- After a call, the types followed by any further calls have the members... -/
theorem mem_register_append (l : List ι) (x : ι) :
    x ∈ (if r ∈ ts then ts else ts ++ [r]) ++ l ↔ x ∈ ts ++ r :: l := by
  split_ifs with hr
  · simp only [List.mem_append, List.mem_cons]
    constructor
    · rintro (hx | hx) <;> simp [hx]
    · rintro (hx | hx | hx)
      · exact .inl hx
      · exact .inl (hx ▸ hr)
      · exact .inr hx
  · simp

/-- ... and the distinct types of the types before it followed by its type and those calls. -/
theorem eraseDups_register_append (l : List ι) :
    ((if r ∈ ts then ts else ts ++ [r]) ++ l).eraseDups = (ts ++ r :: l).eraseDups := by
  split_ifs with hr
  · rw [List.eraseDups_append_cons_of_mem hr]
  · simp

/-- Calls register the distinct types of the calls that are not registered yet, in the order of
their first call, and keep the name. -/
theorem Registers.run (h : Registers p ts) (rs : List ι) :
    Registers (registerAll S p rs).1 (ts ++ rs).eraseDups ∧ (registerAll S p rs).1.name = p.name := by
  induction rs generalizing p ts with
  | nil => simpa [Protocol.registerAll, List.eraseDups_of_nodup h.nodup] using h
  | cons r rs ih =>
    obtain ⟨hstep, hname, -⟩ := h.step (S := S) r
    obtain ⟨hrun, hname'⟩ := ih hstep
    simp only [Protocol.registerAll, Prod.map_fst, id_eq]
    rw [eraseDups_register_append] at hrun
    exact ⟨hrun, hname'.trans hname⟩

/-- The answer of each call: a refusal when its type came before, in the protocol or in an
earlier call, and otherwise the next code, one more than the number of distinct types before
it. -/
theorem Registers.registerAll_answers (h : Registers p ts) (rs : List ι) :
    (registerAll S p rs).2 = rs.mapIdx fun k r =>
      if r ∈ ts ++ rs.take k then .error (.duplicatePdu (S.descriptor r).name)
      else .ok ((ts ++ rs.take k).eraseDups.length + 1) := by
  induction rs generalizing p ts with
  | nil => rfl
  | cons r rs ih =>
    obtain ⟨hstep, -, hanswer⟩ := h.step (S := S) r
    simp only [Protocol.registerAll, Prod.map_snd, List.mapIdx_cons, List.take_zero,
      List.append_nil, List.take_succ_cons, ih hstep, mem_register_append,
      eraseDups_register_append, hanswer, List.eraseDups_of_nodup h.nodup]
    rfl

theorem registerAll_append (xs ys : List ι) :
    registerAll S p (xs ++ ys) =
      (registerAll S (registerAll S p xs).1 ys).map id ((registerAll S p xs).2 ++ ·) := by
  induction xs generalizing p with
  | nil => simp [Protocol.registerAll, Prod.map]
  | cons r xs ih => simp [Protocol.registerAll, ih, Prod.map]

/-! ### Protocols that registration builds -/

variable (S) in
/-- The protocols registration builds: an empty one, and what a successful `addPdu` makes of
one. -/
inductive Reachable : Protocol ι → Prop
  | empty (name : String) : Reachable { name }
  | addPdu {p q : Protocol ι} {r : ι} {c : Nat} :
      Reachable p → p.addPdu S r = .ok (c, q) → Reachable q

/-- Every protocol that registration builds keeps the invariant over its own types. -/
theorem Reachable.registers (hp : p.Reachable S) : Registers p p.pdus := by
  induction hp with
  | empty name => exact registers_empty name
  | @addPdu p q r c _ hadd ih =>
    -- the call succeeded, so its type was new and went last
    have hr : r ∉ p.pdus := fun hr => by rw [ih.addPdu_of_mem S hr] at hadd; cases hadd
    rw [ih.addPdu_of_not_mem S hr] at hadd
    cases hadd
    have hq := ih.snoc hr
    rwa [hq.pdus_eq]

/-! ### The builder -/

section Builder

variable {b : ProtocolBuilder ι}

theorem foldl_addPdu_of_error {e : ProtocolError} (he : b.error = some e) (rs : List ι) :
    rs.foldl (·.addPdu S ·) b = b := by
  induction rs with
  | nil => rfl
  | cons r rs ih =>
    rw [List.foldl_cons, show b.addPdu S r = b by simp [ProtocolBuilder.addPdu, he], ih]

/-- Registrations of new types, one after another, all succeed: the builder holds what the
calls make. -/
theorem foldl_addPdu_of_nodup (he : b.error = none) (h : Registers b.protocol ts) {rs : List ι}
    (hn : (ts ++ rs).Nodup) :
    rs.foldl (·.addPdu S ·) b = { b with protocol := (registerAll S b.protocol rs).1 } := by
  induction rs generalizing b ts with
  | nil => rfl
  | cons r rs ih =>
    have hr : r ∉ ts := fun hr => (List.nodup_append.mp hn).2.2 r hr r List.mem_cons_self rfl
    have hstep : b.addPdu S r = { b with protocol := (register S b.protocol r).1 } := by
      simp [ProtocolBuilder.addPdu, he, Protocol.register, h.addPdu_of_not_mem S hr]
    obtain ⟨hreg, -, -⟩ := h.step (S := S) r
    rw [if_neg hr] at hreg
    rw [List.foldl_cons, hstep,
      ih (b := { b with protocol := (register S b.protocol r).1 }) he hreg (by simpa using hn)]
    rfl

theorem foldl_addPdu_reachable (hb : b.protocol.Reachable S) (rs : List ι) :
    (rs.foldl (·.addPdu S ·) b).protocol.Reachable S := by
  induction rs generalizing b with
  | nil => exact hb
  | cons r rs ih =>
    apply ih
    -- the registration is skipped, refused, or a step of registration
    show (b.addPdu S r).protocol.Reachable S
    unfold ProtocolBuilder.addPdu
    split
    · exact hb
    · split
      · next hadd => exact .addPdu hb hadd
      · exact hb

variable (S)

theorem chain_reachable (name : String) (rs : List ι) : (chain S name rs).protocol.Reachable S :=
  foldl_addPdu_reachable (.empty name) rs

/-- A chain whose types are all distinct builds the protocol of all of them. -/
theorem build_of_nodup (name : String) {rs : List ι} (h : rs.Nodup) :
    build S name rs = .ok (registerAll S { name } rs).1 := by
  rw [build, chain, foldl_addPdu_of_nodup rfl (registers_empty name) (by simpa using h)]
  rfl

/-- A chain fails with the first type that repeats; nothing after it is registered. -/
theorem build_of_first_dup (name : String) {pre post : List ι} (hpre : pre.Nodup) (hr : r ∈ pre) :
    build S name (pre ++ r :: post) = .error (.duplicatePdu (S.descriptor r).name) := by
  have hreg := ((registers_empty (ι := ι) name).run (S := S) pre).1
  rw [List.nil_append, List.eraseDups_of_nodup hpre] at hreg
  -- the registrations before `r` succeed, and `r` meets itself among them
  have hdup : ({ protocol := (registerAll S { name } pre).1 } : ProtocolBuilder ι).addPdu S r =
      { protocol := (registerAll S { name } pre).1, error := some (.duplicatePdu (S.descriptor r).name) } := by
    simp [ProtocolBuilder.addPdu, hreg.addPdu_of_mem S hr]
  rw [build, chain, List.foldl_append,
    foldl_addPdu_of_nodup (b := builder name) rfl (registers_empty name)
      (show ([] ++ pre).Nodup by simpa using hpre), List.foldl_cons]
  erw [hdup, foldl_addPdu_of_error rfl]
  rfl

end Builder

/-! ### Registration from an empty protocol -/

/-- Registration over every sequence of calls, successful or refused, from an empty protocol,
and over every builder chain. After the calls `rs`, with `ts` their distinct types in the order of
their first call: the index by code holds `ts` under the codes `1` to `n`, in order; the index by
type gives each of them its code and nothing else; the two indexes are inverse and both of size
`n`. Each call answers the next code, or the refusal of a type seen before, and a refused call
leaves both indexes as they were. So `code` and `typeFor` are inverse, the codes in use are
exactly `1` to `n`, and the listing by code gives `(1, first type)` to `(n, last type)`. The
builder over the same chain gives the protocol of all its types when none repeats, and the
refusal of the first repetition otherwise. -/
theorem registration_invariant (name : String) (rs : List ι) :
    let run := registerAll S { name } rs
    let ts := rs.eraseDups
    run.1.name = name ∧
    run.1.byCode = ts.zipIdx.map (fun (r, k) => (k + 1, r)) ∧
    (∀ r, run.1.byType.lookup r = if r ∈ rs then some (ts.idxOf r + 1) else none) ∧
    (∀ r c, run.1.byType.lookup r = some c ↔ run.1.byCode.lookup c = some r) ∧
    run.1.byCode.length = ts.length ∧ run.1.byType.length = ts.length ∧
    run.2 = rs.mapIdx (fun k r => if r ∈ rs.take k then .error (.duplicatePdu (S.descriptor r).name)
      else .ok ((rs.take k).eraseDups.length + 1)) ∧
    (∀ r ∈ rs, registerAll S { name } (rs ++ [r]) =
      (run.1, run.2 ++ [.error (.duplicatePdu (S.descriptor r).name)])) ∧
    (∀ r c, run.1.code S r = .ok c ↔ run.1.typeFor c = .ok r) ∧
    (∀ c, (∃ r, run.1.typeFor c = .ok r) ↔ 1 ≤ c ∧ c ≤ ts.length) ∧
    run.1.size = ts.length ∧
    run.1.entries S = ts.zipIdx.map (fun (r, k) => (k + 1, (S.descriptor r).name)) ∧
    (rs.Nodup → build S name rs = .ok run.1) ∧
    (∀ pre r post, rs = pre ++ r :: post → pre.Nodup → r ∈ pre →
      build S name rs = .error (.duplicatePdu (S.descriptor r).name)) := by
  intro run ts
  have hdef : run = registerAll S { name } rs := rfl
  clear_value run
  obtain ⟨hreg, hname⟩ := (registers_empty (ι := ι) name).run (S := S) rs
  simp only [List.nil_append] at hreg
  rw [← hdef] at hreg hname
  refine ⟨hname, hreg.byCode_eq, fun r => ?typed, fun r c => hreg.lookup_byType_iff,
    by rw [hreg.byCode_eq, length_numbered], hreg.length_byType, ?answers, ?refused,
    fun r c => hreg.code_eq_ok_iff, fun c => hreg.typeFor_isOk_iff, hreg.size_eq,
    hreg.entries_eq S, ?built, ?firstDup⟩
  case typed => simp only [hreg.lookup_byType, ts, List.mem_eraseDups]
  case answers => simpa [hdef] using (registers_empty name).registerAll_answers (S := S) rs
  case refused =>
    intro r hr
    rw [registerAll_append, ← hdef]
    simp [Protocol.registerAll, hreg.register_of_mem (List.mem_eraseDups.mpr hr), Prod.map]
  case built =>
    intro h
    rw [hdef, build_of_nodup S name h]
  case firstDup =>
    rintro pre r post rfl hpre hr
    exact build_of_first_dup S name hpre hr

end Protocol

end RecordWire
