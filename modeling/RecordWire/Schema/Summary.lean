import RecordWire.Schema.Descriptor
import RecordWire.Text.Escape
/-!
# Summaries of descriptors

A summary lists what a descriptor says about each member: name, documentation text and range,
offset, size, and category. It has a line-per-member text form, and a JSON form indented by two
spaces with the keys in the order `name, type_name, size, members` and, per member,
`name, doc, range, offset, size, kind`, where a member without a range has no `range` key.
-/

namespace RecordWire

/-- What a summary says of one member. -/
structure MemberSummary where
  name : String
  doc : String
  range : Option (Int × Int)
  offset : Nat
  size : Nat
  /-- `scalar`, `compound` or `collection`. -/
  kind : String
  deriving DecidableEq, Repr

/-- What a summary says of a record type. -/
structure TypeSummary where
  name : String
  typeName : String
  size : Nat
  members : List MemberSummary
  deriving DecidableEq, Repr

namespace Doc

/-- The range of a documentation, if it has one. -/
def bounds : Doc → Option (Int × Int)
  | .text _ => none
  | .range _ lo hi => some (lo, hi)

end Doc

namespace Schema

variable {ι : Type} (S : Schema ι)

/-- The summary of one member. -/
def memberSummary (m : Member ι) : MemberSummary :=
  { name := m.name, doc := m.doc.textOf, range := m.doc.bounds, offset := m.offset,
    size := S.size m.shape, kind := m.shape.category }

/-- The summary of a descriptor. -/
def summary (d : Descriptor ι) : TypeSummary :=
  { name := d.name, typeName := d.typeName, size := d.size,
    members := d.members.map S.memberSummary }

end Schema

namespace TypeSummary

/-- One line per member: name, documentation, offset and size, then a mark for a nested record
or a collection. -/
def display (t : TypeSummary) : String :=
  String.join <| t.members.map fun m =>
    let mark := if m.kind = "compound" then " [compound]"
      else if m.kind = "collection" then " \x7bcollection\x7d" else ""
    "member: " ++ m.name ++ " desc: " ++ m.doc ++ " offset: " ++ toString m.offset ++
      " size: " ++ toString m.size ++ mark ++ "\n"

/-- The JSON object of one member at the given indentation. -/
def memberJson (pad : String) (m : MemberSummary) : String :=
  let inner := pad ++ "  "
  let range := match m.range with
    | some (lo, hi) => inner ++ "\"range\": [\n" ++ inner ++ "  " ++ toString lo ++ ",\n" ++
        inner ++ "  " ++ toString hi ++ "\n" ++ inner ++ "],\n"
    | none => ""
  pad ++ "\x7b\n" ++
    inner ++ "\"name\": " ++ jsonQuote m.name ++ ",\n" ++
    inner ++ "\"doc\": " ++ jsonQuote m.doc ++ ",\n" ++ range ++
    inner ++ "\"offset\": " ++ toString m.offset ++ ",\n" ++
    inner ++ "\"size\": " ++ toString m.size ++ ",\n" ++
    inner ++ "\"kind\": " ++ jsonQuote m.kind ++ "\n" ++ pad ++ "\x7d"

/-- The JSON form, indented by two spaces. -/
def toJson (t : TypeSummary) : String :=
  let members := match t.members with
    | [] => "[]"
    | ms => "[\n" ++ ",\n".intercalate (ms.map (memberJson "    ")) ++ "\n  ]"
  "\x7b\n" ++
    "  \"name\": " ++ jsonQuote t.name ++ ",\n" ++
    "  \"type_name\": " ++ jsonQuote t.typeName ++ ",\n" ++
    "  \"size\": " ++ toString t.size ++ ",\n" ++
    "  \"members\": " ++ members ++ "\n\x7d"

end TypeSummary

end RecordWire
