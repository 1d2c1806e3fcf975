import RecordWire.Protocol.Dispatch
import RecordWire.Codec.Text
import RecordWire.Stream.Growable
/-!
# Protocol sessions

A session is a scripted conversation with the protocol layer: protocols by name, one dispatch
table whose handlers are tags, one growable stream called the wire, and the messages decoded so
far, each under the index it was given. Every decode takes the next index, also one that fails,
so indices count decode attempts. Running a handler notes `tag:PDU:text`, the text being the
value's text form; a step answers its reply or its fault together with these notes.

Steps that change nothing on failure leave the session as it was; a failed decode still moves
the wire past what it read and uses up its index, and destroying a message consumes it whether
or not the protocol accepts it.
-/

namespace RecordWire

/-- Why a session step failed. -/
inductive SessionFault where
  /-- A protocol operation failed. -/
  | protocol (e : ProtocolError)
  /-- The wire refused a seek. -/
  | stream (e : StreamError)
  /-- No message has this index (never decoded, or consumed). -/
  | noMessage (index : Nat)
  /-- No protocol has this name. -/
  | noProtocol (name : String)
  deriving DecidableEq, Repr

namespace SessionFault

/-- The sentence that reports the fault. -/
def message : SessionFault → String
  | protocol e => e.message
  | stream e => e.message
  | noMessage i => s!"no message {i}"
  | noProtocol n => "no protocol " ++ n

end SessionFault

/-- The state of a session. -/
structure Session (ι : Type) where
  protocols : List (String × Protocol ι) := []
  /-- Handlers, each a tag to note when it runs. -/
  table : DispatchTable ι String := {}
  wire : GrowableStream := {}
  /-- The decoded messages not yet consumed, by index. -/
  messages : List (Nat × Message ι) := []
  /-- How many indices were handed out. -/
  issued : Nat := 0

namespace Session

/-- A step of a session. -/
inductive Step (ι : Type) where
  /-- Creates an empty protocol under a name. -/
  | create (name : String)
  /-- Creates a protocol of the given types, unless one of them repeats. -/
  | build (name : String) (types : List ι)
  | addPdu (name : String) (r : ι)
  | code (name : String) (r : ι)
  | typeFor (name : String) (code : Nat)
  | info (name : String)
  /-- Writes a framed value at the wire's cursor. -/
  | encode (name : String) (v : AnyValue ι)
  /-- Decodes a message at the wire's cursor, and dispatches it when `dispatch` is set. -/
  | decode (name : String) (maxSize : Nat) (dispatch : Bool)
  /-- Looks at a message, and tells whether its value is of type `expect` when one is given. -/
  | message (index : Nat) (expect : Option ι)
  | inspectMessage (index : Nat)
  /-- Takes a message's value out if it is of type `r`. -/
  | intoInner (index : Nat) (r : ι)
  | destroy (name : String) (index : Nat)
  /-- Installs a handler; the careful form keeps a handler already there. -/
  | addHandler (name : String) (r : ι) (tag : String) (careful : Bool)
  | dispatchMessage (index : Nat)
  | dispatch (code : Nat) (v : AnyValue ι)
  | hasHandler (code : Nat)
  | removeHandler (code : Nat)
  | handlers
  | seek (pos : Nat)
  | write (bytes : ByteArray)
  | truncate
  | clear
  | bytes

/-- What a step answers when it succeeds. -/
inductive Reply (ι : Type) where
  | done
  | number (n : Nat)
  | flag (b : Bool)
  | text (s : String)
  /-- A protocol was built with this many types. -/
  | built (size : Nat)
  | info (p : Protocol ι)
  /-- A message under its index; whether its value has the asked type, and, after a dispatch,
  the dispatch's failure if any. -/
  | message (index : Nat) (m : Message ι) (isType : Option Bool)
      (dispatched : Option (Option ProtocolError))
  | inner (v : AnyValue ι)
  /-- The value was not of the asked type and stays in its message. -/
  | returned (code : Nat)
  | handlers (t : DispatchTable ι String)
  | bytes (bs : ByteArray)

/-- A step's reply or fault, and the notes of the handlers it ran. -/
structure Outcome (ι : Type) where
  reply : Except SessionFault (Reply ι)
  notes : List String := []

variable {ι : Type} [DecidableEq ι] (S : Schema ι)

/-- The protocol under `name`. -/
def protocol? (s : Session ι) (name : String) : Except SessionFault (Protocol ι) :=
  match s.protocols.lookup name with
  | some p => .ok p
  | none => .error (.noProtocol name)

/-- Puts `p` under `name`, replacing what was there. -/
def setProtocol (s : Session ι) (name : String) (p : Protocol ι) : Session ι :=
  { s with protocols := (name, p) :: s.protocols.filter (·.1 ≠ name) }

/-- The message under index `i`. -/
def message? (s : Session ι) (i : Nat) : Except SessionFault (Message ι) :=
  match s.messages.lookup i with
  | some m => .ok m
  | none => .error (.noMessage i)

/-- Consumes the message under index `i`. -/
def forget (s : Session ι) (i : Nat) : Session ι :=
  { s with messages := s.messages.filter (·.1 ≠ i) }

/-- The note a handler tagged `tag` makes of a value: tag, descriptor name and text form. -/
def note (tag : String) (v : AnyValue ι) : String :=
  let name := match v.shape with
    | .record r => (S.descriptor r).name
    | s => S.typeName s
  tag ++ ":" ++ name ++ ":" ++ S.toText v.shape v.value

/-- Dispatches a value under a code: the failure, or none and the note of the handler run. -/
def deliver (s : Session ι) (c : Nat) (v : AnyValue ι) : Option ProtocolError × List String :=
  match s.table.dispatch S c v with
  | .ok tag => (none, [note S tag v])
  | .error e => (some e, [])

/-- A step's outcome from a plain result, the session unchanged or the given one. -/
def answer (r : Except SessionFault (Reply ι)) (s : Session ι) : Outcome ι × Session ι :=
  ({ reply := r }, s)

/-- A step that needs the protocol under `name`. -/
def withProtocol (s : Session ι) (name : String)
    (k : Protocol ι → Outcome ι × Session ι) : Outcome ι × Session ι :=
  match s.protocol? name with
  | .ok p => k p
  | .error e => answer (.error e) s

/-- A step that needs the message under index `i`. -/
def withMessage (s : Session ι) (i : Nat)
    (k : Message ι → Outcome ι × Session ι) : Outcome ι × Session ι :=
  match s.message? i with
  | .ok m => k m
  | .error e => answer (.error e) s

/-- Runs one step. -/
def run (s : Session ι) : Step ι → Outcome ι × Session ι
  | .create name => answer (.ok .done) (s.setProtocol name { name })
  | .build name rs =>
    match Protocol.build S name rs with
    | .ok p => answer (.ok (.built p.size)) (s.setProtocol name p)
    | .error e => answer (.error (.protocol e)) s
  | .addPdu name r => withProtocol s name fun p =>
    match p.addPdu S r with
    | .ok (c, p) => answer (.ok (.number c)) (s.setProtocol name p)
    | .error e => answer (.error (.protocol e)) s
  | .code name r => withProtocol s name fun p =>
    answer ((p.code S r).map .number |>.mapError .protocol) s
  | .typeFor name c => withProtocol s name fun p =>
    answer ((p.typeFor c).map (fun r => .text (S.descriptor r).name) |>.mapError .protocol) s
  | .info name => withProtocol s name fun p => answer (.ok (.info p)) s
  | .encode name v => withProtocol s name fun p =>
    let (wire, fault) := p.encodeTo S v s.wire
    answer (match fault with | some e => .error (.protocol e) | none => .ok .done) { s with wire }
  | .decode name maxSize dispatch => withProtocol s name fun p =>
    let (r, wire) := p.decodeFrom S maxSize s.wire
    let i := s.issued
    let s := { s with wire, issued := i + 1 }
    match r with
    | .error e => answer (.error (.protocol e)) s
    | .ok m =>
      let s := { s with messages := s.messages ++ [(i, m)] }
      if dispatch then
        let (fault, notes) := s.deliver S m.code m.value
        ({ reply := .ok (.message i m none (some fault)), notes }, s)
      else answer (.ok (.message i m none none)) s
  | .message i expect => withMessage s i fun m =>
    answer (.ok (.message i m (expect.map fun r => decide (m.value.shape = .record r)) none)) s
  | .inspectMessage i => withMessage s i fun m => answer (.ok (.text m.inspect)) s
  | .intoInner i r => withMessage s i fun m =>
    if m.value.shape = .record r then answer (.ok (.inner m.value)) (s.forget i)
    else answer (.ok (.returned m.code)) s
  | .destroy name i => withProtocol s name fun p => withMessage s i fun m =>
    answer ((p.destroy S m).map (fun _ => .done) |>.mapError .protocol) (s.forget i)
  | .addHandler name r tag careful => withProtocol s name fun p =>
    let added := if careful then s.table.tryAddHandler S p r tag else s.table.addHandler S p r tag
    match added with
    | .ok (c, table) => answer (.ok (.number c)) { s with table }
    | .error e => answer (.error (.protocol e)) s
  | .dispatchMessage i => withMessage s i fun m =>
    let (fault, notes) := s.deliver S m.code m.value
    ({ reply := (match fault with | some e => .error (.protocol e) | none => .ok .done), notes }, s)
  | .dispatch c v =>
    let (fault, notes) := s.deliver S c v
    ({ reply := (match fault with | some e => .error (.protocol e) | none => .ok .done), notes }, s)
  | .hasHandler c => answer (.ok (.flag (s.table.hasHandler c))) s
  | .removeHandler c =>
    let (had, table) := s.table.remove c
    answer (.ok (.flag had)) { s with table }
  | .handlers => answer (.ok (.handlers s.table)) s
  | .seek pos =>
    match ByteStream.seek s.wire pos with
    | .ok wire => answer (.ok .done) { s with wire }
    | .error e => answer (.error (.stream e)) s
  | .write bytes => answer (.ok .done) { s with wire := s.wire.writeBytes bytes }
  | .truncate => answer (.ok .done) { s with wire := s.wire.truncate }
  | .clear => answer (.ok .done) { s with wire := s.wire.clear }
  | .bytes => answer (.ok (.bytes s.wire.bytes)) s

end Session

end RecordWire
