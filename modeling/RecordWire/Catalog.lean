import RecordWire.Value
/-!
# The record catalog

The record types this library describes out of the box: the messages of a small chat protocol,
and sample records that between them use every scalar, every collection, nested records,
nested collections, a record that holds a collection of itself, and an empty record. Their
descriptors report the names, sizes and offsets of their data layout.

A record holds another record directly only in `Outer` (an `Inner`) and `Holder` (an `Empty`
and a `LoginPacket`); those two rank above the rest. `Topic` holds topics only inside a
collection, so it needs no higher rank.
-/

namespace RecordWire

/-- The record types of the catalog. -/
inductive RecordName where
  | loginPacket | userInfo | connectedPacket | saySomethingPacket | someoneSaidSomethingPacket
  | userJoinedPacket | userLeftPacket | ping | chat | unlisted | scalars | inner | outer
  | topic | roster | tags | chain | grid | empty | holder | reading | account
  deriving DecidableEq, Repr, Inhabited

namespace RecordName

/-- Every record type of the catalog. -/
def all : List RecordName :=
  [loginPacket, userInfo, connectedPacket, saySomethingPacket, someoneSaidSomethingPacket,
   userJoinedPacket, userLeftPacket, ping, chat, unlisted, scalars, .inner, outer, topic, roster,
   tags, chain, grid, empty, holder, reading, account]

/-- The short name of a record type. -/
def name : RecordName → String
  | loginPacket => "LoginPacket" | userInfo => "UserInfo" | connectedPacket => "ConnectedPacket"
  | saySomethingPacket => "SaySomethingPacket"
  | someoneSaidSomethingPacket => "SomeoneSaidSomethingPacket"
  | userJoinedPacket => "UserJoinedPacket" | userLeftPacket => "UserLeftPacket"
  | ping => "Ping" | chat => "Chat" | unlisted => "Unlisted" | scalars => "Scalars"
  | .inner => "Inner" | outer => "Outer" | topic => "Topic" | roster => "Roster"
  | tags => "Tags" | chain => "Chain" | grid => "Grid" | empty => "Empty"
  | holder => "Holder" | reading => "Reading" | account => "Account"

/-- The module that defines a record type, which its full type name starts with: the chat
packets belong to the chat demonstration, `Ping`, `Chat` and `Unlisted` to the protocol layer's
tests, the others to the reflection layer's tests, and the samples that no test defines to a
module of their own. -/
def modulePath : RecordName → String
  | loginPacket | userInfo | connectedPacket | saySomethingPacket | someoneSaidSomethingPacket
  | userJoinedPacket | userLeftPacket => "chat_messages"
  | ping | chat | unlisted => "wirekit_protocol::testing"
  | .inner | outer => "wirekit_reflect::marshal::tests"
  | reading => "wirekit_reflect::codec::tests"
  | topic | roster => "records"
  | account => "cleanup"
  | scalars | tags | chain | grid | empty | holder => "samples"

/-- The record type with the given short name. -/
def ofName? (s : String) : Option RecordName := all.find? (·.name == s)

end RecordName

open RecordName

/-- Shorthands for member shapes. -/
private def str : Shape RecordName := .scalar .string
private def i32 : Shape RecordName := .scalar .i32

/-- A member with a plain documentation. -/
private def mem (name : String) (shape : Shape RecordName) (offset : Nat) (doc : String) :
    Member RecordName :=
  { name, doc := .text doc, shape, offset }

/-- A member documented with a range. -/
private def ranged (name : String) (shape : Shape RecordName) (offset : Nat) (doc : String)
    (low high : Int) : Member RecordName :=
  { name, doc := .range doc low high, shape, offset }

/-- The size and members of each record type. -/
private def layout : RecordName → Nat × List (Member RecordName)
  | loginPacket => (56, [mem "version" i32 48 "protocol version of the client",
      mem "name" str 0 "user name", mem "password" str 24 "user password"])
  | userInfo => (80, [mem "name" str 0 "user name", mem "email" str 24 "email address",
      mem "password" str 48 "user password",
      ranged "shoe_size" i32 72 "shoe size (European)" 30 50])
  | connectedPacket => (32, [mem "result" i32 24 "0 on success",
      mem "version" i32 28 "protocol version of the server",
      mem "users" (.collection .vec str) 0 "users already online"])
  | saySomethingPacket => (24, [mem "message" str 0 "text to say"])
  | someoneSaidSomethingPacket => (48, [mem "who" str 0 "speaker", mem "what" str 24 "text said"])
  | userJoinedPacket => (24, [mem "who" str 0 "user who joined"])
  | userLeftPacket => (24, [mem "who" str 0 "user who left"])
  | ping => (4, [mem "seq" (.scalar .u32) 0 "sequence number"])
  | chat => (48, [mem "who" str 0 "speaker", mem "what" str 24 "message text"])
  | unlisted => (1, [mem "flag" (.scalar .bool) 0 "unused"])
  | scalars => (72, [mem "a_u8" (.scalar .u8) 65 "unsigned 8",
      mem "a_u16" (.scalar .u16) 60 "unsigned 16", mem "a_u32" (.scalar .u32) 48 "unsigned 32",
      mem "a_u64" (.scalar .u64) 24 "unsigned 64",
      ranged "a_i8" (.scalar .i8) 66 "signed 8" (-128) 127,
      mem "a_i16" (.scalar .i16) 62 "signed 16", mem "a_i32" i32 52 "signed 32",
      ranged "a_i64" (.scalar .i64) 32 "signed 64" (-9223372036854775808) 9223372036854775807,
      mem "a_f32" (.scalar .f32) 56 "single float", mem "a_f64" (.scalar .f64) 40 "double float",
      mem "a_bool" (.scalar .bool) 64 "flag", mem "a_str" str 0 "text"])
  | .inner => (8, [mem "flag" (.scalar .bool) 4 "a flag", mem "ratio" (.scalar .f32) 0 "a ratio"])
  | outer => (64, [mem "id" (.scalar .u32) 56 "identifier",
      mem "inner" (.record .inner) 24 "nested record",
      mem "history" (.collection .vec (.record .inner)) 0 "earlier records",
      mem "ids" (.collection .orderedSet (.scalar .u8)) 32 "related ids"])
  | topic => (56, [mem "title" str 0 "headline",
      mem "replies" (.collection .deque (.record .topic)) 24 "nested replies"])
  | roster => (48, [mem "online" (.collection .hashSet str) 0 "users online"])
  | tags => (48, [mem "names" (.collection .orderedSet str) 0 "sorted names",
      mem "numbers" (.collection .orderedSet (.scalar .i64)) 24 "sorted numbers"])
  | chain => (24, [mem "items" (.collection .linked (.scalar .u16)) 0 "linked items"])
  | grid => (48, [mem "rows" (.collection .vec (.collection .vec (.scalar .i8))) 0 "rows of cells",
      mem "sets" (.collection .vec (.collection .orderedSet (.scalar .u32))) 24 "one set per row"])
  | empty => (0, [])
  | holder => (136, [mem "empty" (.record .empty) 136 "nothing at all",
      mem "login" (.record .loginPacket) 0 "embedded login",
      mem "flags" (.collection .vec (.scalar .bool)) 56 "flags",
      mem "samples" (.collection .deque (.scalar .f64)) 80 "samples",
      mem "tail" str 112 "trailing text"])
  | reading => (56, [mem "sensor" (.scalar .u8) 48 "sensor number",
      mem "values" (.collection .vec (.scalar .f64)) 0 "samples", mem "note" str 24 "free text"])
  | account => (24, [ranged "entries" (.collection .vec (.scalar .entry)) 0
      "entries, never zero" 1 255])

/-- The descriptor of a catalog record type. -/
def RecordName.descriptor (r : RecordName) : Descriptor RecordName :=
  { name := r.name, typeName := r.modulePath ++ "::" ++ r.name, size := (layout r).1,
    members := (layout r).2 }

/-- The rank of a catalog record type: two for those that hold records directly. -/
def RecordName.rank : RecordName → Nat
  | outer | holder => 2
  | _ => 1

/-- The catalog as a schema. -/
def catalog : Schema RecordName where
  descriptor := RecordName.descriptor
  rank := RecordName.rank
  rank_lt := by intro r; cases r <;> rfl

/-- The shape named by a short type expression: a scalar name, `String`, `Entry`, a catalog
record's short name, or `Vec<…>`, `VecDeque<…>`, `LinkedList<…>`, `BTreeSet<…>` and
`HashSet<…>` around another such expression. -/
def shapeOfName? (s : String) : Option (Shape RecordName) :=
  go s.length s.toList
where
  /-- Reads the expression in `cs`; each level of brackets uses one unit of `fuel`. -/
  go : Nat → List Char → Option (Shape RecordName)
    | 0, _ => none
    | fuel + 1, cs =>
      let name := String.ofList cs
      let scalar? : Option ScalarType := match name with
        | "u8" => some .u8 | "u16" => some .u16 | "u32" => some .u32 | "u64" => some .u64
        | "i8" => some .i8 | "i16" => some .i16 | "i32" => some .i32 | "i64" => some .i64
        | "f32" => some .f32 | "f64" => some .f64 | "bool" => some .bool
        | "String" => some .string | "Entry" => some .entry
        | _ => none
      match scalar? with
      | some t => some (.scalar t)
      | none =>
        match RecordName.ofName? name with
        | some r => some (.record r)
        | none =>
          let head := cs.takeWhile (· ≠ '<')
          let body := cs.drop (head.length + 1)
          if cs.getLast? = some '>' ∧ head.length < cs.length then
            let kind? : Option CollectionKind := match String.ofList head with
              | "Vec" => some .vec | "VecDeque" => some .deque | "LinkedList" => some .linked
              | "BTreeSet" => some .orderedSet | "HashSet" => some .hashSet
              | _ => none
            match kind? with
            | some k => (go fuel body.dropLast).map (.collection k)
            | none => none
          else none

end RecordWire
