import RecordWire.Protocol.Dispatch
import RecordWire.Codec.Text
import RecordWire.Stream.Slice
/-!
# Reading through all layers

The operations a program uses when it takes stream, codec and protocol together, each failing
with a `WireError` that names the layer at fault: a seek is the stream's, reading a bare value
is the codec's, and everything a protocol does (also a payload it fails to read) is the
protocol's.

Reading a value back checks the text form against it: the value is written as text, the text
read again, and the two compared exactly, floats by their bit patterns. So the quiet NaN that
the text form reads as comes back as itself, while a NaN with another sign or payload does not. Receiving a coded message frames it by
a one-type protocol, hands it to a handler of that type, and reports the handler's text.
-/

namespace RecordWire

namespace Schema

variable {ι : Type} [DecidableEq ι] (S : Schema ι)

/-- A value read from bytes, its text form, whether that text reads back as the same value,
and the number of bytes not read. -/
structure Readback where
  value : Value
  text : String
  readsBack : Bool
  left : Nat

/-- Reads a value of shape `s` from `bytes` at offset `start`; trailing bytes are left. -/
def readBack (s : Shape ι) (bytes : List UInt8) (start : Nat) : Except WireError Readback := do
  let st ← (ByteStream.seek (SliceStream.ofList bytes) start).mapError .stream
  let (o, st) := S.decodeFrom s (S.default s) st
  if let some e := o.fault then throw (.codec e)
  let text := S.toText s o.value
  let again ← (S.fromText s text).mapError .codec
  return ⟨o.value, text, again == o.value, ByteStream.left st⟩

/-- A coded message received and handled: the message, the texts its handler noted, and the
number of bytes not read. -/
structure Receipt (ι : Type) where
  message : Message ι
  handled : List String
  left : Nat

/-- Receives one message of type `r` from `bytes` at offset `start`, under a protocol that gives
`r` code 1, allowing `maxSize` bytes, and dispatches it to a handler of `r`. -/
def receive (r : ι) (bytes : List UInt8) (start maxSize : Nat) : Except WireError (Receipt ι) := do
  let st ← (ByteStream.seek (SliceStream.ofList bytes) start).mapError .stream
  let p ← (Protocol.build S "facade" [r]).mapError .protocol
  let (m, st) := p.decodeFrom S maxSize st
  let m ← m.mapError .protocol
  let (_, t) ← ((({} : DispatchTable ι Unit)).addHandler S p r ()).mapError .protocol
  let _ ← (t.dispatchMessage S m).mapError .protocol
  return ⟨m, [S.toText m.value.shape m.value.value], ByteStream.left st⟩

end Schema

end RecordWire
