import RecordWire.Chat.Packet
import RecordWire.Protocol.Pump
/-!
# The chat server

A chat server keeps the names online, the user logged in on its connection, and a queue of
messages for its clients. A login with the server's protocol version answers with the names
online before it, puts the new name online, makes it the current user and announces it; a login
with another version is answered with a refusal and changes nothing else. Saying something
while logged in is passed on with the speaker's name; disconnecting takes the current user
offline (every entry of that name) and announces it.
-/

namespace RecordWire

namespace Chat

/-- The state of a chat server. -/
structure Server where
  current : Option String := none
  online : List String := []
  outbound : List Outbound := []
  deriving DecidableEq, Repr

namespace Server

/-- Handles a login request. -/
def login (s : Server) (p : LoginPacket) : Server :=
  if p.version ≠ protocolVersion then
    { s with outbound := s.outbound ++ [.connected ⟨1, protocolVersion, []⟩] }
  else
    { current := some p.name, online := s.online ++ [p.name],
      outbound := s.outbound ++ [.connected ⟨0, protocolVersion, s.online⟩, .joined p.name] }

/-- Passes on what the current user says; says nothing before a login. -/
def say (s : Server) (message : String) : Server :=
  match s.current with
  | some who => { s with outbound := s.outbound ++ [.said who message] }
  | none => s

/-- Takes the current user offline. -/
def disconnect (s : Server) : Server :=
  match s.current with
  | some who =>
    { current := none, online := s.online.filter (· ≠ who), outbound := s.outbound ++ [.left who] }
  | none => s

/-- The inspection text of a server. -/
def inspect (s : Server) : String :=
  let current := match s.current with
    | some w => "Some(" ++ inspectQuote w ++ ")"
    | none => "None"
  "ChatServer \x7b current: " ++ current ++ ", online: " ++ inspectStrings s.online ++
    ", outbound: [" ++ ", ".intercalate (s.outbound.map Outbound.inspect) ++ "] \x7d"

end Server

/-- The chat protocol: its seven message types registered in turn by a builder chain. -/
def protocol : Protocol RecordName :=
  (Protocol.chain catalog "chat" [.loginPacket, .userInfo, .connectedPacket, .saySomethingPacket,
      .someoneSaidSomethingPacket, .userJoinedPacket, .userLeftPacket]).protocol

/-- The most bytes a chat message's type may take when it is pumped. -/
def pumpLimit : Nat := 4096

/-- The framed bytes of a value of a chat message type. -/
def frame (r : RecordName) (v : Value) : List UInt8 × Option ProtocolError :=
  protocol.encode catalog ⟨.record r, v⟩

/-- What a server does with a message from a client. -/
inductive ServerHandler where
  | login
  | say
  deriving DecidableEq, Repr

/-- The server's handlers: logins and things said. -/
def serverTable : DispatchTable RecordName ServerHandler :=
  { handlers := [(1, ⟨.loginPacket, .login⟩), (4, ⟨.saySomethingPacket, .say⟩)] }

/-- Runs a server handler. -/
def runServer (s : Server) (h : ServerHandler) (v : AnyValue RecordName) : Server :=
  match h with
  | .login => s.login (LoginPacket.ofValue v.value)
  | .say => s.say (strAt v.value.fields 0)

/-- Feeds the bytes a client sent to the server. -/
def Server.uplink (s : Server) (wire : List UInt8) : Server × Except ProtocolError Nat :=
  protocol.pump catalog serverTable runServer pumpLimit s wire

/-- Frames and empties the server's queue. -/
def Server.drain (s : Server) : List UInt8 × Server :=
  (s.outbound.flatMap fun o => let (r, v) := o.record; (frame r v).1, { s with outbound := [] })

/-- What a client does with a message from the server: it notes it in its log. -/
inductive ClientHandler where
  | connected
  | joined
  | said
  | left
  deriving DecidableEq, Repr

/-- The client handler of each kind and the record type it expects. -/
def clientHandlers : List (String × RecordName × ClientHandler) :=
  [("connected", .connectedPacket, .connected), ("joined", .userJoinedPacket, .joined),
   ("said", .someoneSaidSomethingPacket, .said), ("left", .userLeftPacket, .left)]

/-- The log line of a message from the server. -/
def noteOf (h : ClientHandler) (v : Value) : String :=
  match h with
  | .connected =>
    let p := ConnectedPacket.ofValue v
    "connected " ++ toString p.result ++ " " ++ toString p.version ++ " " ++ inspectStrings p.users
  | .joined => "joined " ++ strAt v.fields 0
  | .said => strAt v.fields 0 ++ ": " ++ strAt v.fields 1
  | .left => "left " ++ strAt v.fields 0

/-- Feeds the bytes the server sent to a client with the handlers of the given kinds; answers
the client's log and the number of messages handled, or the error. -/
def clientPump (kinds : List String) (wire : List UInt8) : List String × Except ProtocolError Nat :=
  let table := (clientHandlers.filter (kinds.contains ·.1)).foldl
    (fun t (_, r, h) => match t.addHandler catalog protocol r h with
      | .ok (_, t) => t
      | .error _ => t) ({} : DispatchTable RecordName ClientHandler)
  protocol.pump catalog table (fun log h v => log ++ [noteOf h v.value]) pumpLimit [] wire

/-- The users the demonstration stores. -/
def demoUsers : List UserInfo :=
  [⟨"Jon Watte", "jwatte@example.com", "super secret", 44⟩, ⟨"Operator", "", "root", 40⟩]

/-- The text of the demonstration's user store: one record per user. -/
def usersFile : String :=
  catalog.writeRecords (.record .userInfo) (demoUsers.map UserInfo.toValue)

end Chat

end RecordWire
