import RecordWire.Protocol.Error
import RecordWire.Accessor
/-!
# Protocols

A protocol gives each registered record type a code and keeps two indexes of them: by code, an
ordered map, and by type. Registering a type refuses one the index by type has already; it
takes as code one more than the largest code in use (1 for the first) and enters the type in
both indexes. A builder chains registrations, skips every one after the first refusal, and
builds the protocol or answers that refusal.

A message on the wire is its type's code as a `u32` followed by the binary form of its value.
Decoding a message reads the code, refuses a code that no type has, refuses a type whose size
exceeds the room the caller allows (having read only the code), and then reads the value.
-/

namespace RecordWire

/-- A decoded message: its code, its type's descriptor name, and its value. -/
structure Message (ι : Type) where
  code : Nat
  pdu : String
  value : AnyValue ι
  deriving Repr

namespace Message

variable {ι : Type}

/-- The inspection text of a message. -/
def inspect (m : Message ι) : String :=
  "Message \x7b code: Code(" ++ toString m.code ++ "), pdu: " ++ inspectQuote m.pdu ++ ", .. \x7d"

end Message

/-- Puts `x` under key `k` in a list ascending by key, replacing what was there: the insert of
an ordered map. -/
def insertByKey {α : Type} (k : Nat) (x : α) : List (Nat × α) → List (Nat × α)
  | [] => [(k, x)]
  | (k', x') :: rest =>
    if k < k' then (k, x) :: (k', x') :: rest
    else if k = k' then (k, x) :: rest
    else (k', x') :: insertByKey k x rest

/-- A protocol: a name and its registered record types, indexed both ways. The index by code
is an ordered map, ascending; the index by type gives each registered type its code. -/
structure Protocol (ι : Type) where
  name : String
  /-- The registered types by code, ascending. -/
  byCode : List (Nat × ι) := []
  /-- The code of each registered type. -/
  byType : List (ι × Nat) := []
  deriving Repr

namespace Protocol

variable {ι : Type} [DecidableEq ι] (S : Schema ι)

/-- The registered types, in the order of their codes. -/
def pdus (p : Protocol ι) : List ι := p.byCode.map (·.2)

/-- The number of registered types. -/
def size (p : Protocol ι) : Nat := p.byCode.length

/-- One more than the largest code in use, or 1 when there is none. -/
def nextCode (p : Protocol ι) : Nat := (p.byCode.getLast?.map (·.1 + 1)).getD 1

/-- Registers `r` under the next code, in both indexes, or refuses a type that the index by
type has already. -/
def addPdu (p : Protocol ι) (r : ι) : Except ProtocolError (Nat × Protocol ι) :=
  if (p.byType.lookup r).isSome then .error (.duplicatePdu (S.descriptor r).name)
  else
    let c := p.nextCode
    .ok (c, { p with byCode := insertByKey c r p.byCode, byType := (r, c) :: p.byType })

/-- The code of `r`, from the index by type. -/
def code (p : Protocol ι) (r : ι) : Except ProtocolError Nat :=
  match p.byType.lookup r with
  | some c => .ok c
  | none => .error (.unregisteredType (S.descriptor r).typeName)

/-- The type registered under code `c`, from the index by code. -/
def typeFor (p : Protocol ι) (c : Nat) : Except ProtocolError ι :=
  match p.byCode.lookup c with
  | some r => .ok r
  | none => .error (.unknownCode c)

/-- The codes and descriptor names of the registered types, by code. -/
def entries (p : Protocol ι) : List (Nat × String) :=
  p.byCode.map fun (c, r) => (c, (S.descriptor r).name)

/-- The inspection text of a protocol. -/
def inspect (p : Protocol ι) : String :=
  "Protocol \x7b name: " ++ inspectQuote p.name ++ ", pdus: [" ++
    ", ".intercalate ((p.entries S).map fun (c, n) => "(" ++ toString c ++ ", " ++ inspectQuote n ++ ")") ++
    "] \x7d"

/-- The record type of a value, if it is a record. -/
def recordOf? : Shape ι → Option ι
  | .record r => some r
  | _ => none

/-- The framed form of a value: its code, then its binary form. A type without a code writes
nothing; a payload that fails keeps what it wrote before. -/
def encode (p : Protocol ι) (v : AnyValue ι) : List UInt8 × Option ProtocolError :=
  let typeName := S.typeName v.shape
  match (recordOf? v.shape).map (p.code S) with
  | some (.ok c) =>
    let out := S.encode v.shape v.value
    (leBytes 4 c ++ out.bytes, out.fault.map .codec)
  | some (.error e) => ([], some e)
  | none => ([], some (.unregisteredType typeName))

/-- Decodes one message from the front of `input`, allowing types of at most `maxSize` bytes;
answers the message or the error, and the bytes left. -/
def decode (p : Protocol ι) (maxSize : Nat) (input : List UInt8) :
    Except ProtocolError (Message ι) × List UInt8 :=
  match Schema.readCount input with
  | none => (.error (.ofStream (.underflow 4 input.length)), input)
  | some (c, rest) =>
    match p.typeFor c with
    | .error e => (.error e, rest)
    | .ok r =>
      let d := S.descriptor r
      if d.size > maxSize then (.error (.bufferTooSmall d.size maxSize), rest)
      else
        let s : Shape ι := .record r
        let o := S.decode s (S.default s) rest
        match o.fault with
        | some e => (.error (.codec e), o.rest)
        | none => (.ok ⟨c, d.name, ⟨s, o.value⟩⟩, o.rest)

/-- Decodes one message at a stream's cursor and moves the cursor past what was read, also
when decoding fails. -/
def decodeFrom {σ : Type} [ByteStream σ] (p : Protocol ι) (maxSize : Nat) (st : σ) :
    Except ProtocolError (Message ι) × σ :=
  let input := (ByteStream.unread st).data.toList
  let (r, rest) := p.decode S maxSize input
  (r, ByteStream.advance st (input.length - rest.length))

/-- Writes the framed form of a value at a stream's cursor, in one write; a failure leaves what
was written before it. -/
def encodeTo {σ : Type} [ByteStream σ] (p : Protocol ι) (v : AnyValue ι) (st : σ) :
    σ × Option ProtocolError :=
  let (bytes, fault) := p.encode S v
  if bytes.isEmpty then (st, fault)
  else match ByteStream.write st bytes.toByteArray with
    | .ok st => (st, fault)
    | .error e => (st, some (.ofStream e))

/-- Releases a message, which must hold a value of the type registered for its code. -/
def destroy (p : Protocol ι) (m : Message ι) : Except ProtocolError Unit := do
  let r ← p.typeFor m.code
  if m.value.shape = .record r then pure ()
  else throw (.typeMismatch m.code (S.descriptor r).name)

end Protocol

/-- A protocol under assembly by chained registrations, with the first refusal if there was
one. -/
structure ProtocolBuilder (ι : Type) where
  protocol : Protocol ι
  error : Option ProtocolError := none
  deriving Repr

namespace ProtocolBuilder

variable {ι : Type} [DecidableEq ι] (S : Schema ι)

/-- Registers `r`, unless an earlier registration was refused; a refusal is remembered and
leaves the protocol as it was. -/
def addPdu (b : ProtocolBuilder ι) (r : ι) : ProtocolBuilder ι :=
  match b.error with
  | some _ => b
  | none =>
    match b.protocol.addPdu S r with
    | .ok (_, p) => { b with protocol := p }
    | .error e => { b with error := some e }

/-- The assembled protocol, or the first refusal. -/
def build (b : ProtocolBuilder ι) : Except ProtocolError (Protocol ι) :=
  match b.error with
  | some e => .error e
  | none => .ok b.protocol

end ProtocolBuilder

namespace Protocol

variable {ι : Type} [DecidableEq ι] (S : Schema ι)

/-- Starts assembling a protocol with no types. -/
def builder (name : String) : ProtocolBuilder ι := { protocol := { name } }

/-- A builder chain that registers `rs` in order. -/
def chain (name : String) (rs : List ι) : ProtocolBuilder ι :=
  rs.foldl (·.addPdu S ·) (builder name)

/-- The protocol a builder chain over `rs` builds, or its first refusal. -/
def build (name : String) (rs : List ι) : Except ProtocolError (Protocol ι) :=
  (chain S name rs).build

end Protocol

end RecordWire
