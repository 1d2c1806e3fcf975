import Mathlib
import RecordWire.Proofs.Framing
import RecordWire.Protocol.Dispatch
/-!
# Dispatch tables as finite maps

A dispatch table is meant to be a finite map from codes to handlers. The table keeps its
handlers in a list, ascending by code; seen through `get?`, every change is a pointwise update:
`insert` sets one code (`get?_insert`) and `remove` clears one (`get?_remove`), and both keep
the codes ascending, so no code is listed twice and the size is the number of codes with a
handler (`nodup_codes`, `mem_codes_iff`).

The calls a caller makes — installing a handler for a type, with or without replacing, removing
the handler under a code, and dispatching a value — are then stated once more on a map,
`mapStep`, as the table's documentation describes them, with the state the handlers act on
threaded through; running a handler turns the state `s` into `exec s h v`. A run of calls on the
table, seen through `get?`, is the same run on the map, with the same answers and the same
state at each step (`runCalls_view`), so every failed call leaves table and state as they were
and every dispatch runs exactly the handler the map holds at that moment.

Tables built by such calls over one protocol only hold, under a code, a handler for the type
registered under that code (`Built.agrees`).
-/

namespace RecordWire

namespace DispatchTable

variable {ι η : Type}

/-! ### Lookup after each change -/

section Lookup

variable (c : Nat) (h : Handler ι η)

@[simp] theorem get?_insert (t : DispatchTable ι η) (c' : Nat) :
    (t.insert c h).get? c' = if c' = c then some h else t.get? c' :=
  lookup_insertByKey t.handlers c'

theorem lookup_filter_ne (l : List (Nat × Handler ι η)) (c' : Nat) :
    (l.filter (·.1 ≠ c)).lookup c' = if c' = c then none else l.lookup c' := by
  induction l with
  | nil => simp
  | cons e l ih =>
    obtain ⟨d, g⟩ := e
    by_cases hd : d = c
    · -- the handler at `c` is dropped
      subst hd
      have hdrop : ((d, g) :: l).filter (·.1 ≠ d) = l.filter (·.1 ≠ d) := by simp
      rw [hdrop, ih, lookup_cons_eq]
      by_cases hc : c' = d <;> simp [hc]
    · have hkeep : ((d, g) :: l).filter (·.1 ≠ c) = (d, g) :: l.filter (·.1 ≠ c) := by
        simp [hd]
      rw [hkeep, lookup_cons_eq, lookup_cons_eq, ih]
      -- at `c` both sides miss, since the kept handler sits at `d ≠ c`
      by_cases hc : c' = c
      · simp [hc, Ne.symm hd]
      · simp [hc]

@[simp] theorem get?_remove (t : DispatchTable ι η) (c' : Nat) :
    (t.remove c).2.get? c' = if c' = c then none else t.get? c' :=
  lookup_filter_ne c t.handlers c'

/-- Removing tells whether the code had a handler. -/
@[simp] theorem remove_fst (t : DispatchTable ι η) : (t.remove c).1 = (t.get? c).isSome := rfl

theorem get?_insert_eq (t : DispatchTable ι η) :
    (t.insert c h).get? = Function.update t.get? c (some h) := by
  funext c'
  simp [Function.update_apply]

theorem get?_remove_eq (t : DispatchTable ι η) :
    (t.remove c).2.get? = Function.update t.get? c none := by
  funext c'
  simp [Function.update_apply]

end Lookup

/-! ### Codes ascend -/

/-- The codes of a table ascend strictly. -/
def Ascending (t : DispatchTable ι η) : Prop := t.codes.Pairwise (· < ·)

section Ascending

variable {c : Nat} {h : Handler ι η} {t : DispatchTable ι η}

theorem Ascending.insert (ht : t.Ascending) : (t.insert c h).Ascending :=
  pairwise_insertByKey ht

theorem Ascending.remove (ht : t.Ascending) : (t.remove c).2.Ascending :=
  ht.sublist ((List.filter_sublist).map _)

theorem mem_codes_iff : c ∈ t.codes ↔ t.hasHandler c = true := by
  rw [hasHandler, get?, List.lookup_isSome_iff, codes, List.mem_map]
  constructor
  · rintro ⟨e, he, rfl⟩
    exact ⟨e, he, beq_self_eq_true _⟩
  · rintro ⟨e, he, hc⟩
    exact ⟨e, he, (beq_iff_eq.mp hc).symm⟩

/-- No code is listed twice, so the size counts the codes with a handler. -/
theorem Ascending.nodup_codes (ht : t.Ascending) : t.codes.Nodup :=
  ht.imp Nat.ne_of_lt

end Ascending

@[simp] theorem get?_empty : ({} : DispatchTable ι η).get? = fun _ => none := rfl

theorem ascending_empty : ({} : DispatchTable ι η).Ascending := List.Pairwise.nil

/-! ### Calls -/

/-- A call on a dispatch table. -/
inductive Call (ι η : Type) where
  /-- Installs a handler for values of a type under the type's code, replacing any handler
  there. -/
  | addHandler (r : ι) (run : η)
  /-- Installs a handler for values of a type unless the type's code has one. -/
  | tryAddHandler (r : ι) (run : η)
  /-- Removes the handler under a code. -/
  | removeHandler (c : Nat)
  /-- Runs the handler under a code on a value. -/
  | dispatch (c : Nat) (v : AnyValue ι)

/-- What a call answers when it succeeds. -/
inductive Reply where
  /-- A handler was installed under this code. -/
  | installed (c : Nat)
  /-- Whether the code had a handler to remove. -/
  | removed (had : Bool)
  /-- A handler ran. -/
  | ran
  deriving DecidableEq, Repr

/-- Calls one after another through a step function: the state at the end, and the answers in
the order of the calls. -/
def runCalls {α : Type} (step : α → Call ι η → α × Except ProtocolError Reply) (a : α) :
    List (Call ι η) → α × List (Except ProtocolError Reply)
  | [] => (a, [])
  | call :: calls =>
    let r := step a call
    (runCalls step r.1 calls).map id (r.2 :: ·)

section Runs

variable {α β : Type} {step : α → Call ι η → α × Except ProtocolError Reply}

/-- A run seen through `f` is a run of another step function whenever each step is. -/
theorem runCalls_map {step' : β → Call ι η → β × Except ProtocolError Reply}
    (f : α → β) (h : ∀ a call, step' (f a) call = (step a call).map f id) (a : α)
    (calls : List (Call ι η)) :
    runCalls step' (f a) calls = (runCalls step a calls).map f id := by
  induction calls generalizing a with
  | nil => rfl
  | cons call calls ih => simp [runCalls, h, ih, Prod.map]

theorem runCalls_invariant (P : α → Prop) (h : ∀ a call, P a → P (step a call).1) {a : α}
    (ha : P a) (calls : List (Call ι η)) : P (runCalls step a calls).1 := by
  induction calls generalizing a with
  | nil => exact ha
  | cons call calls ih => exact ih (h a call ha)

end Runs

/-! ### One call, on the table and on a map -/

variable [DecidableEq ι] (S : Schema ι) (p : Protocol ι) {σ : Type}
  (exec : σ → η → AnyValue ι → σ)

/-- One call on a table whose handlers act on a state: running handler `h` on `v` turns the
state `s` into `exec s h v`. A failed call changes neither the table nor the state. -/
def step (ts : DispatchTable ι η × σ) :
    Call ι η → (DispatchTable ι η × σ) × Except ProtocolError Reply
  | .addHandler r run =>
    match ts.1.addHandler S p r run with
    | .ok (c, t) => ((t, ts.2), .ok (.installed c))
    | .error e => (ts, .error e)
  | .tryAddHandler r run =>
    match ts.1.tryAddHandler S p r run with
    | .ok (c, t) => ((t, ts.2), .ok (.installed c))
    | .error e => (ts, .error e)
  | .removeHandler c => (((ts.1.remove c).2, ts.2), .ok (.removed (ts.1.remove c).1))
  | .dispatch c v =>
    match ts.1.dispatch S c v with
    | .ok h => ((ts.1, exec ts.2 h v), .ok .ran)
    | .error e => (ts, .error e)

variable {S p exec}

theorem eq_unregisteredType_of_code {r : ι} {e : ProtocolError} (h : p.code S r = .error e) :
    e = .unregisteredType (S.descriptor r).typeName := by
  unfold Protocol.code at h
  split at h <;> cases h
  rfl

variable (S p exec)

/-- Handlers by code. -/
abbrev HandlerMap (ι η : Type) := Nat → Option (Handler ι η)

/-- The calls on a map from codes to handlers, as they are documented. Installing puts the
handler under the type's code, the careful form only where the code has none; removing clears a
code and tells whether it had a handler; dispatching runs the handler under the code once, on
the value, when there is one and the value is of its type. A type without a code, a taken code,
a code without a handler and a value of another type are refused, and a refused call changes
neither the map nor the state. -/
def mapStep (ms : HandlerMap ι η × σ) :
    Call ι η → (HandlerMap ι η × σ) × Except ProtocolError Reply
  | .addHandler r run =>
    match p.code S r with
    | .ok c => ((Function.update ms.1 c (some ⟨r, run⟩), ms.2), .ok (.installed c))
    | .error _ => (ms, .error (.unregisteredType (S.descriptor r).typeName))
  | .tryAddHandler r run =>
    match p.code S r with
    | .ok c =>
      if (ms.1 c).isSome then (ms, .error (.handlerAlreadyRegistered c))
      else ((Function.update ms.1 c (some ⟨r, run⟩), ms.2), .ok (.installed c))
    | .error _ => (ms, .error (.unregisteredType (S.descriptor r).typeName))
  | .removeHandler c => ((Function.update ms.1 c none, ms.2), .ok (.removed (ms.1 c).isSome))
  | .dispatch c v =>
    match ms.1 c with
    | none => (ms, .error (.unregisteredHandler c))
    | some h =>
      if v.shape = .record h.expects then ((ms.1, exec ms.2 h.run v), .ok .ran)
      else (ms, .error (.typeMismatch c (S.descriptor h.expects).name))

variable {S p exec}

/-- Each call on a table, seen through `get?`, is the call on the map, with the same answer and
the same state afterwards. -/
theorem mapStep_view (ts : DispatchTable ι η × σ) (call : Call ι η) :
    mapStep S p exec (ts.1.get?, ts.2) call =
      (step S p exec ts call).map (fun ts => (ts.1.get?, ts.2)) id := by
  obtain ⟨t, s⟩ := ts
  cases call with
  | addHandler r run =>
    cases hc : p.code S r with
    | ok c =>
      simp [mapStep, step, addHandler, hc, get?_insert_eq, bind, Except.bind, pure, Except.pure]
    | error e =>
      simp [mapStep, step, addHandler, hc, eq_unregisteredType_of_code hc, bind, Except.bind]
  | tryAddHandler r run =>
    cases hc : p.code S r with
    | ok c =>
      by_cases hh : (t.get? c).isSome
      · simp [mapStep, step, tryAddHandler, hc, hh, hasHandler, bind, Except.bind, throw,
          throwThe, MonadExceptOf.throw]
      · simp [mapStep, step, tryAddHandler, hc, hh, hasHandler, get?_insert_eq, bind,
          Except.bind, pure, Except.pure]
    | error e =>
      simp [mapStep, step, tryAddHandler, hc, eq_unregisteredType_of_code hc, bind, Except.bind]
  | removeHandler c => simp [mapStep, step, get?_remove_eq]
  | dispatch c v =>
    cases hg : t.get? c with
    | none => simp [mapStep, step, dispatch, hg]
    | some h =>
      by_cases hv : v.shape = .record h.expects
      · simp [mapStep, step, dispatch, hg, hv]
      · simp [mapStep, step, dispatch, hg, hv]

/-! ### What a call does to the table -/

section Changes

variable {t t' : DispatchTable ι η} {r : ι} {run : η} {c : Nat}

theorem addHandler_eq_ok (h : t.addHandler S p r run = .ok (c, t')) :
    p.code S r = .ok c ∧ t' = t.insert c ⟨r, run⟩ := by
  cases hc : p.code S r with
  | ok c₀ =>
    simp only [addHandler, hc, bind, Except.bind, pure, Except.pure, Except.ok.injEq,
      Prod.mk.injEq] at h
    obtain ⟨rfl, rfl⟩ := h
    exact ⟨rfl, rfl⟩
  | error e => simp [addHandler, hc, bind, Except.bind] at h

theorem tryAddHandler_eq_ok (h : t.tryAddHandler S p r run = .ok (c, t')) :
    p.code S r = .ok c ∧ t' = t.insert c ⟨r, run⟩ := by
  cases hc : p.code S r with
  | ok c₀ =>
    by_cases hh : t.hasHandler c₀ = true
    · simp [tryAddHandler, hc, hh, bind, Except.bind, throw, throwThe, MonadExceptOf.throw] at h
    · simp only [tryAddHandler, hc, hh, bind, Except.bind, pure, Except.pure, Bool.false_eq_true,
        if_false, Except.ok.injEq, Prod.mk.injEq] at h
      obtain ⟨rfl, rfl⟩ := h
      exact ⟨rfl, rfl⟩
  | error e => simp [tryAddHandler, hc, bind, Except.bind] at h

/-- A call leaves the table, installs a handler for a type under the type's code, or removes
the handler under a code. -/
theorem step_table (ts : DispatchTable ι η × σ) (call : Call ι η) :
    (step S p exec ts call).1.1 = ts.1 ∨
      (∃ r run c, p.code S r = .ok c ∧
        (step S p exec ts call).1.1 = ts.1.insert c ⟨r, run⟩) ∨
      ∃ c, (step S p exec ts call).1.1 = (ts.1.remove c).2 := by
  cases call with
  | addHandler r run =>
    simp only [step]
    split
    · next c t h => exact .inr (.inl ⟨r, run, c, addHandler_eq_ok h⟩)
    · exact .inl rfl
  | tryAddHandler r run =>
    simp only [step]
    split
    · next c t h => exact .inr (.inl ⟨r, run, c, tryAddHandler_eq_ok h⟩)
    · exact .inl rfl
  | removeHandler c => exact .inr (.inr ⟨c, rfl⟩)
  | dispatch c v =>
    simp only [step]
    split <;> exact .inl rfl

theorem ascending_step {ts : DispatchTable ι η × σ} (ht : ts.1.Ascending) (call : Call ι η) :
    (step S p exec ts call).1.1.Ascending := by
  rcases step_table ts call with h | ⟨r, run, c, -, h⟩ | ⟨c, h⟩ <;> rw [h]
  · exact ht
  · exact ht.insert
  · exact ht.remove

end Changes

/-! ### Runs of calls -/

variable (S p exec)

/-- A dispatch table behaves as a finite map from codes to handlers. Over every protocol and
every sequence of calls from an empty table, with handlers acting on a state: the run, seen
through `get?`, is the run of the same calls on a map as they are documented (`mapStep`), with
the same answers and the same state after every call; the codes stay ascending, so none is
listed twice; and the size counts the listed codes, which are exactly those with a handler. -/
theorem dispatch_table_as_map (s : σ) (calls : List (Call ι η)) :
    let run := runCalls (step S p exec) ({}, s) calls
    runCalls (mapStep S p exec) (fun _ => none, s) calls =
        run.map (fun ts => (ts.1.get?, ts.2)) id ∧
      run.1.1.Ascending ∧ run.1.1.codes.Nodup ∧ run.1.1.size = run.1.1.codes.length ∧
      ∀ c, c ∈ run.1.1.codes ↔ run.1.1.hasHandler c = true := by
  intro run
  have hasc : run.1.1.Ascending :=
    runCalls_invariant (fun ts : DispatchTable ι η × σ => ts.1.Ascending)
      (fun _ call ht => ascending_step ht call) ascending_empty calls
  refine ⟨runCalls_map (fun ts : DispatchTable ι η × σ => (ts.1.get?, ts.2)) mapStep_view
    ({}, s) calls, hasc, hasc.nodup_codes, by simp [size, codes], fun c => mem_codes_iff⟩

/-! ### Tables built over a protocol -/

/-- The tables that installing and removing handlers build from an empty one, over protocol
`p`. -/
inductive Built : DispatchTable ι η → Prop
  | empty : Built {}
  | addHandler {t t' : DispatchTable ι η} {r : ι} {run : η} {c : Nat} :
      Built t → t.addHandler S p r run = .ok (c, t') → Built t'
  | tryAddHandler {t t' : DispatchTable ι η} {r : ι} {run : η} {c : Nat} :
      Built t → t.tryAddHandler S p r run = .ok (c, t') → Built t'
  | remove {t : DispatchTable ι η} (c : Nat) : Built t → Built (t.remove c).2

variable {S p}

/-- In a table built over a protocol, the handler under a code expects the type registered
under that code. -/
theorem Built.typeFor_expects {t : DispatchTable ι η} (hb : t.Built S p) (hp : p.Reachable S)
    {c : Nat} {h : Handler ι η} (hg : t.get? c = some h) : p.typeFor c = .ok h.expects := by
  induction hb generalizing c h with
  | empty => simp at hg
  | addHandler _ hadd ih =>
    obtain ⟨hc, rfl⟩ := addHandler_eq_ok hadd
    rw [get?_insert] at hg
    split_ifs at hg with hcc
    · cases hg
      exact hcc ▸ hp.registers.typeFor_code hc
    · exact ih hg
  | tryAddHandler _ hadd ih =>
    obtain ⟨hc, rfl⟩ := tryAddHandler_eq_ok hadd
    rw [get?_insert] at hg
    split_ifs at hg with hcc
    · cases hg
      exact hcc ▸ hp.registers.typeFor_code hc
    · exact ih hg
  | remove c₀ _ ih =>
    rw [get?_remove] at hg
    split_ifs at hg
    exact ih hg

end DispatchTable

end RecordWire
