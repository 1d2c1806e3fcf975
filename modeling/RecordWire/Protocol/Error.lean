import RecordWire.Codec.Error
/-!
# Protocol errors

What goes wrong when messages are framed, unframed and dispatched, each with its sentence.
Codes are written `#n`. A `WireError` is any error of the three layers (stream, codec,
protocol), as one type for callers that mix them.
-/

namespace RecordWire

/-- A failure of a protocol operation. -/
inductive ProtocolError where
  /-- Encoding or decoding a payload failed. -/
  | codec (e : CodecError)
  /-- The type, named here, has no code in the protocol. -/
  | unregisteredType (typeName : String)
  /-- No type has this code. -/
  | unknownCode (code : Nat)
  /-- The type of a code needs more room than decoding may use. -/
  | bufferTooSmall (needed available : Nat)
  /-- No handler has this code. -/
  | unregisteredHandler (code : Nat)
  /-- The type, by its descriptor name, is registered already. -/
  | duplicatePdu (name : String)
  /-- A handler has this code already. -/
  | handlerAlreadyRegistered (code : Nat)
  /-- A value under a code is not of the type registered for it. -/
  | typeMismatch (code : Nat) (expected : String)
  deriving DecidableEq, Repr

namespace ProtocolError

/-- A stream failure, seen through the codec. -/
def ofStream (e : StreamError) : ProtocolError := .codec (.stream e)

/-- The sentence that reports the error; a wrapped codec error reports itself. -/
def message : ProtocolError → String
  | codec e => e.message
  | unregisteredType t => "type " ++ t ++ " is not registered with this protocol"
  | unknownCode n => s!"no PDU registered for code #{n}"
  | bufferTooSmall n a => s!"decoding needs {n} bytes but only {a} are allowed"
  | unregisteredHandler n => s!"no handler registered for code #{n}"
  | duplicatePdu name => "PDU " ++ name ++ " is already registered"
  | handlerAlreadyRegistered n => s!"a handler is already registered for code #{n}"
  | typeMismatch n t => s!"value for code #{n} is not a " ++ t

end ProtocolError

/-- An error of any layer. -/
inductive WireError where
  | stream (e : StreamError)
  | codec (e : CodecError)
  | protocol (e : ProtocolError)
  deriving DecidableEq, Repr

namespace WireError

/-- The name of the layer that failed. -/
def layer : WireError → String
  | stream _ => "Stream"
  | codec _ => "Codec"
  | protocol _ => "Protocol"

/-- The sentence that reports the error. -/
def message : WireError → String
  | stream e => e.message
  | codec e => e.message
  | protocol e => e.message

end WireError

end RecordWire
