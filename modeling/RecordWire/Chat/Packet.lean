import RecordWire.Catalog
import RecordWire.Text.Escape
/-!
# Chat packets

The messages of the chat protocol as Lean structures, with their record values in the catalog
and their inspection texts. The chat protocol registers, in this order, login, user info,
connected, say, someone said, user joined and user left.
-/

namespace RecordWire

namespace Chat

/-- The protocol version the server speaks. -/
def protocolVersion : Int := 1

/-- A client's request to log in. -/
structure LoginPacket where
  version : Int := 0
  name : String := ""
  password : String := ""
  deriving DecidableEq, Repr

/-- A stored user. -/
structure UserInfo where
  name : String := ""
  email : String := ""
  password : String := ""
  shoeSize : Int := 0
  deriving DecidableEq, Repr

/-- The server's answer to a login: 0 on success, its version, the users already online. -/
structure ConnectedPacket where
  result : Int := 0
  version : Int := 0
  users : List String := []
  deriving DecidableEq, Repr

/-- What the server tells its clients. -/
inductive Outbound where
  | connected (p : ConnectedPacket)
  | said (who what : String)
  | joined (who : String)
  | left (who : String)
  deriving DecidableEq, Repr

/-- Reads a string member. -/
def strAt (vs : List Value) (i : Nat) : String :=
  match vs[i]? with
  | some (.str s) => s
  | _ => ""

/-- Reads an integer member. -/
def intAt (vs : List Value) (i : Nat) : Int :=
  match vs[i]? with
  | some (.int n) => n
  | _ => 0

/-- A login request from its record value. -/
def LoginPacket.ofValue (v : Value) : LoginPacket :=
  ⟨intAt v.fields 0, strAt v.fields 1, strAt v.fields 2⟩

/-- The record value of a login request. -/
def LoginPacket.toValue (p : LoginPacket) : Value := .record [.int p.version, .str p.name, .str p.password]

/-- The record value of a stored user. -/
def UserInfo.toValue (u : UserInfo) : Value :=
  .record [.str u.name, .str u.email, .str u.password, .int u.shoeSize]

/-- The record value of a connected answer. -/
def ConnectedPacket.toValue (p : ConnectedPacket) : Value :=
  .record [.int p.result, .int p.version, .items (p.users.map .str)]

/-- A connected answer from its record value. -/
def ConnectedPacket.ofValue (v : Value) : ConnectedPacket :=
  ⟨intAt v.fields 0, intAt v.fields 1,
    (v.fields[2]?.map Value.elems).getD [] |>.map fun | .str s => s | _ => ""⟩

/-- The inspection text of a list of strings. -/
def inspectStrings (ss : List String) : String := "[" ++ ", ".intercalate (ss.map inspectQuote) ++ "]"

/-- The inspection text of a connected answer. -/
def ConnectedPacket.inspect (p : ConnectedPacket) : String :=
  "ConnectedPacket \x7b result: " ++ toString p.result ++ ", version: " ++ toString p.version ++
    ", users: " ++ inspectStrings p.users ++ " \x7d"

namespace Outbound

/-- The record type and value of an outbound message. -/
def record : Outbound → RecordName × Value
  | connected p => (.connectedPacket, p.toValue)
  | said who what => (.someoneSaidSomethingPacket, .record [.str who, .str what])
  | joined who => (.userJoinedPacket, .record [.str who])
  | left who => (.userLeftPacket, .record [.str who])

/-- The kind of an outbound message. -/
def kind : Outbound → String
  | connected _ => "Connected"
  | said .. => "Said"
  | joined _ => "Joined"
  | left _ => "Left"

/-- The inspection text of an outbound message. -/
def inspect : Outbound → String
  | connected p => "Connected(" ++ p.inspect ++ ")"
  | said who what => "Said(SomeoneSaidSomethingPacket \x7b who: " ++ inspectQuote who ++
      ", what: " ++ inspectQuote what ++ " \x7d)"
  | joined who => "Joined(UserJoinedPacket \x7b who: " ++ inspectQuote who ++ " \x7d)"
  | left who => "Left(UserLeftPacket \x7b who: " ++ inspectQuote who ++ " \x7d)"

end Outbound

end Chat

end RecordWire
