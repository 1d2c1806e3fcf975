import RecordWire.Protocol.Registry
/-!
# Dispatch tables

A dispatch table maps codes to handlers, each handler expecting values of one record type.
Adding a handler replaces the one under its code; the careful form refuses when the code is
taken. Dispatching a value under a code picks the handler there, after checking that the
value is of the handler's type; what running the handler does is the caller's business, so
the table answers the handler to run.
-/

namespace RecordWire

/-- A handler with the record type it expects. -/
structure Handler (ι η : Type) where
  expects : ι
  run : η
  deriving Repr

/-- Handlers by code, ascending. -/
structure DispatchTable (ι η : Type) where
  handlers : List (Nat × Handler ι η) := []
  deriving Repr

namespace DispatchTable

variable {ι η : Type} [DecidableEq ι] (S : Schema ι)

/-- Puts `h` under code `c`, replacing what was there, keeping the codes ascending. -/
def insert (t : DispatchTable ι η) (c : Nat) (h : Handler ι η) : DispatchTable ι η :=
  ⟨insertByKey c h t.handlers⟩

/-- The handler under code `c`. -/
def get? (t : DispatchTable ι η) (c : Nat) : Option (Handler ι η) := t.handlers.lookup c

/-- Whether code `c` has a handler. -/
def hasHandler (t : DispatchTable ι η) (c : Nat) : Bool := (t.get? c).isSome

/-- The number of handlers. -/
def size (t : DispatchTable ι η) : Nat := t.handlers.length

/-- The codes with handlers, ascending. -/
def codes (t : DispatchTable ι η) : List Nat := t.handlers.map (·.1)

/-- Installs `run` for values of type `r`, under `r`'s code in `p`, replacing any handler
there. -/
def addHandler (t : DispatchTable ι η) (p : Protocol ι) (r : ι) (run : η) :
    Except ProtocolError (Nat × DispatchTable ι η) := do
  let c ← p.code S r
  return (c, t.insert c ⟨r, run⟩)

/-- Installs `run` only when `r`'s code has no handler yet. -/
def tryAddHandler (t : DispatchTable ι η) (p : Protocol ι) (r : ι) (run : η) :
    Except ProtocolError (Nat × DispatchTable ι η) := do
  let c ← p.code S r
  if t.hasHandler c then throw (.handlerAlreadyRegistered c)
  return (c, t.insert c ⟨r, run⟩)

/-- Removes the handler under `c`; answers whether there was one. -/
def remove (t : DispatchTable ι η) (c : Nat) : Bool × DispatchTable ι η :=
  (t.hasHandler c, ⟨t.handlers.filter (·.1 ≠ c)⟩)

/-- The handler to run for value `v` under code `c`. -/
def dispatch (t : DispatchTable ι η) (c : Nat) (v : AnyValue ι) : Except ProtocolError η :=
  match t.get? c with
  | none => .error (.unregisteredHandler c)
  | some h =>
    if v.shape = .record h.expects then .ok h.run
    else .error (.typeMismatch c (S.descriptor h.expects).name)

/-- The handler to run for a message. -/
def dispatchMessage (t : DispatchTable ι η) (m : Message ι) : Except ProtocolError η :=
  t.dispatch S m.code m.value

/-- The inspection text of a table. -/
def inspect (t : DispatchTable ι η) : String :=
  "DispatchTable \x7b codes: [" ++ ", ".intercalate (t.codes.map toString) ++ "] \x7d"

end DispatchTable

end RecordWire
