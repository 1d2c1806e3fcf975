import RecordWire.Chat.Server
/-!
# The chat demonstration

One round of the chat protocol without a network: a client frames a login and one line of
talk, the server pumps them through its handlers and then sees the client disconnect, and the
server's queue, framed, is pumped through a client that logs every kind of message. The user
store the demonstration keeps is the text form of its users, one record per line.
-/

namespace RecordWire

namespace Chat

/-- The login the demonstration's client sends. -/
def demoLogin : LoginPacket := ⟨protocolVersion, "Jon Watte", "super secret"⟩

/-- The bytes the demonstration's client sends: its login, then one line of talk. -/
def demoUplink : List UInt8 :=
  (frame .loginPacket demoLogin.toValue).1 ++
    (frame .saySomethingPacket (.record [.str "hello, world"])).1

/-- What a run of the demonstration reports. -/
structure DemoRun where
  /-- Messages the server handled. -/
  served : Nat
  /-- Messages the client handled. -/
  received : Nat
  /-- The client's log. -/
  log : List String

/-- Runs the demonstration: uplink, disconnect, downlink. -/
def runDemo : Except ProtocolError DemoRun := do
  let (server, served) := ({ online := ["Operator"] } : Server).uplink demoUplink
  let served ← served
  let (downlink, _) := server.disconnect.drain
  let (log, received) := clientPump (clientHandlers.map (·.1)) downlink
  return ⟨served, ← received, log⟩

end Chat

end RecordWire
