import RecordWire.Schema.Descriptor
import RecordWire.Text.Escape
/-!
# Inspection texts

The texts that show descriptors, members and categories when they are inspected: struct-like
forms `Name { field: value, .. }` with strings as inspection literals.
-/

namespace RecordWire

namespace Doc

/-- The inspection text of a documentation. -/
def inspect : Doc → String
  | .text s => "Text(" ++ inspectQuote s ++ ")"
  | .range s lo hi => "Range \x7b text: " ++ inspectQuote s ++ ", low: " ++ toString lo ++
      ", high: " ++ toString hi ++ " \x7d"

end Doc

namespace Shape

variable {ι : Type}

/-- The inspection text of a shape's category word. -/
def inspect (s : Shape ι) : String := "Shape(" ++ inspectQuote s.category ++ ")"

end Shape

namespace Schema

variable {ι : Type} (S : Schema ι)

/-- The inspection text of the category of a shape: scalar, nested record by its descriptor
name, or collection by its element's type name. -/
def categoryInspect : Shape ι → String
  | .scalar _ => "Scalar"
  | .record r => "Compound(" ++ inspectQuote (S.descriptor r).name ++ ")"
  | .collection _ e => "Collection(" ++ inspectQuote (S.typeName e) ++ ")"

/-- The inspection text of the access to a value of shape `s` at `offset`. -/
def accessInspect (s : Shape ι) (offset : Nat) : String :=
  "MemberAccessor \x7b type_name: " ++ inspectQuote (S.typeName s) ++ ", offset: " ++
    toString offset ++ ", size: " ++ toString (S.size s) ++ ", .. \x7d"

/-- The inspection text of a member. -/
def memberInspect (m : Member ι) : String :=
  "MemberDescriptor \x7b name: " ++ inspectQuote m.name ++ ", doc: " ++ m.doc.inspect ++
    ", access: " ++ S.accessInspect m.shape m.offset ++ " \x7d"

/-- The inspection text of a descriptor. -/
def descriptorInspect (d : Descriptor ι) : String :=
  "TypeDescriptor \x7b name: " ++ inspectQuote d.name ++ ", type_name: " ++
    inspectQuote d.typeName ++ ", members: [" ++ ", ".intercalate (d.members.map S.memberInspect) ++
    "] \x7d"

end Schema

end RecordWire
