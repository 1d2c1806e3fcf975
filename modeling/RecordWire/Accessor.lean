import RecordWire.Codec.Binary
import RecordWire.Codec.Text
import RecordWire.Schema.Inspect
/-!
# Accessors

An accessor addresses a value inside an owner: the owner as a whole, or one member of a
record owner. It reads, writes, resets and creates that value without its caller knowing the
types involved; the owner comes with the shape of its type, and an owner of another type is
refused, before anything else happens, with a type mismatch naming the type it expected. Writing
text goes on to check every value inside the owner against the type it is held as, and so do
`renderText` and `renderRecords`, which write through the whole-value accessor of a shape.
-/

namespace RecordWire

/-- A value together with the shape of its type. -/
structure AnyValue (ι : Type) where
  shape : Shape ι
  value : Value
  deriving Repr

/-- The address of a value in its owner. -/
inductive Accessor (ι : Type) where
  /-- The owner itself, of shape `s`. -/
  | whole (s : Shape ι)
  /-- Member number `index` of a record of type `owner`. -/
  | member (owner : ι) (index : Nat) (m : Member ι)
  deriving Repr

namespace Accessor

variable {ι : Type} [DecidableEq ι] (S : Schema ι)

/-- The accessor of the first member named `name` of record type `r`. -/
def ofMember? (r : ι) (name : String) : Option (Accessor ι) :=
  ((S.descriptor r).members.zipIdx.find? (·.1.name == name)).map fun (m, i) => .member r i m

/-- The shape of the owner's type. -/
def ownerShape : Accessor ι → Shape ι
  | whole s => s
  | member r _ _ => .record r

/-- The shape of the addressed value. -/
def shape : Accessor ι → Shape ι
  | whole s => s
  | member _ _ m => m.shape

/-- The offset of the addressed value in its owner. -/
def offset : Accessor ι → Nat
  | whole _ => 0
  | member _ _ m => m.offset

/-- The type name of the addressed value. -/
def typeName (a : Accessor ι) : String := S.typeName a.shape

/-- The size of the addressed value. -/
def size (a : Accessor ι) : Nat := S.size a.shape

/-- The refusal of an owner of the wrong type. -/
def mismatch (a : Accessor ι) : CodecError := .typeMismatch (S.typeName a.ownerShape)

/-- The addressed value in `owner`, or the refusal when `owner` is of another type. -/
def get (a : Accessor ι) (owner : AnyValue ι) : Except CodecError Value :=
  if owner.shape = a.ownerShape then
    match a with
    | whole _ => .ok owner.value
    | member _ i m => .ok (owner.value.fields.getD i (S.default m.shape))
  else .error (a.mismatch S)

/-- The owner with the addressed value replaced by `v`. -/
def put (a : Accessor ι) (owner : Value) (v : Value) : Value :=
  match a with
  | whole _ => v
  | member _ i _ => .record (owner.fields.set i v)

/-- The binary form of the addressed value. -/
def writeBinary (a : Accessor ι) (owner : AnyValue ι) : Emitted :=
  match a.get S owner with
  | .ok v => S.encode a.shape v
  | .error e => ⟨[], some e⟩

/-- Reads the addressed value from the front of `input`; the result holds the owner. -/
def readBinary (a : Accessor ι) (owner : AnyValue ι) (input : List UInt8) : Decoded :=
  match a.get S owner with
  | .ok v =>
    let o := S.decode a.shape v input
    { o with value := a.put owner.value o.value }
  | .error e => ⟨owner.value, input, some e⟩

/-- The text form of the addressed value, checked on the way. -/
def writeText (a : Accessor ι) (owner : AnyValue ι) : List Char × Option CodecError :=
  match a.get S owner with
  | .ok v => S.writeValueText a.shape v
  | .error e => ([], some e)

/-- Reads the addressed value at the reader; the result holds the owner. -/
def readText (a : Accessor ι) (owner : AnyValue ι) (r : TextReader) : TextRead :=
  match a.get S owner with
  | .ok v =>
    let o := S.readText a.shape v r
    { o with value := a.put owner.value o.value }
  | .error e => ⟨owner.value, r, some e⟩

/-- Resets the addressed value to its default; the result is the owner. -/
def construct (a : Accessor ι) (owner : AnyValue ι) : Except CodecError Value :=
  (a.get S owner).map fun _ => a.put owner.value (S.default a.shape)

/-- A fresh default value of the addressed type. -/
def create (a : Accessor ι) : AnyValue ι := ⟨a.shape, S.default a.shape⟩

/-- Accepts a value to drop only when it is of the addressed type. -/
def destroyBoxed (a : Accessor ι) (boxed : AnyValue ι) : Except CodecError Unit :=
  if boxed.shape = a.shape then .ok () else .error (.typeMismatch (S.typeName a.shape))

/-- The inspection text of the accessor. -/
def inspect (a : Accessor ι) : String := S.accessInspect a.shape a.offset

end Accessor

namespace Schema

variable {ι : Type} [DecidableEq ι] (S : Schema ι)

/-- The text form of a value of shape `s`, written by the shape's whole-value accessor; a
value that is not of its shape somewhere inside is refused with the type mismatch found there. -/
def renderText (s : Shape ι) (v : Value) : Except CodecError String :=
  match (Accessor.whole s).writeText S ⟨s, v⟩ with
  | (cs, none) => .ok (String.ofList cs)
  | (_, some e) => .error e

/-- The records' text forms, each followed by a line feed; the first record refused is the
answer. -/
def renderRecords (s : Shape ι) : List Value → Except CodecError String
  | [] => .ok ""
  | v :: vs => do
    let t ← S.renderText s v
    let rest ← renderRecords s vs
    return t ++ "\n" ++ rest

/-- A descriptor of record type `r` under the name `name` that lists the members named in
`picks`, in that order and each with the documentation given there, together with their
accessors; none when a name is not a member of `r`. -/
def relabel (r : ι) (name : String) (picks : List (String × Doc)) :
    Option (Descriptor ι × List (Accessor ι)) := do
  let found ← picks.mapM fun (n, doc) => (Accessor.ofMember? S r n).map (·, doc)
  let members := found.filterMap fun
    | (.member _ _ m, doc) => some { m with doc }
    | _ => none
  return ({ S.descriptor r with name, members }, found.map (·.1))

/-- The inspection text of a descriptor under construction. -/
def builderInspect (r : ι) (name : String) (count : Nat) : String :=
  "DescriptorBuilder \x7b name: " ++ inspectQuote name ++ ", owner: " ++
    inspectQuote (S.descriptor r).typeName ++ ", members: " ++ toString count ++ " \x7d"

end Schema

end RecordWire
