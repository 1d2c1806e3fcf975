import RecordWire.Protocol.Dispatch
/-!
# Pumping messages to handlers

A pump decodes framed messages from a byte string one after another until the bytes run out,
and hands each to the handler under its code. A message whose code has no handler is dropped;
any other failure stops the pump, after the handlers of the earlier messages ran. What running
a handler does is given as a function on the caller's state. Every message read consumes at
least its four code bytes, so the pump always ends.
-/

namespace RecordWire

namespace Protocol

variable {ι η σ : Type} [DecidableEq ι] (S : Schema ι)

/-- Decodes and dispatches every message of `wire`, allowing types of at most `maxSize`
bytes; answers the state after the handlers ran and the number of messages handled, or the
error that stopped the pump. -/
def pump (p : Protocol ι) (t : DispatchTable ι η) (run : σ → η → AnyValue ι → σ)
    (maxSize : Nat) (state : σ) (wire : List UInt8) : σ × Except ProtocolError Nat :=
  go state 0 wire
where
  /-- Pumps the rest `bytes`, `handled` messages handled so far. -/
  go (state : σ) (handled : Nat) (bytes : List UInt8) : σ × Except ProtocolError Nat :=
    if bytes.isEmpty then (state, .ok handled)
    else
      match p.decode S maxSize bytes with
      | (.error e, _) => (state, .error e)
      | (.ok m, rest) =>
        if _ : rest.length < bytes.length then
          match t.dispatchMessage S m with
          | .ok h => go (run state h m.value) (handled + 1) rest
          | .error (.unregisteredHandler _) => go state handled rest
          | .error e => (state, .error e)
        else (state, .ok handled)
  termination_by bytes.length

end Protocol

end RecordWire
