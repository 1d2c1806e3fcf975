import RecordWire.Accessor
import RecordWire.Collection.Cursor
/-!
# Collection adapters

The type-erased operations on one collection type: count, walk, clear, and insert one element
read from text or bytes. Every operation refuses a collection of another type, naming the
collection type it expected.
-/

namespace RecordWire

/-- The operations on collections of kind `kind` with elements of shape `elem`. -/
structure Adapter (ι : Type) where
  kind : CollectionKind
  elem : Shape ι
  deriving Repr

namespace Adapter

variable {ι : Type} [DecidableEq ι] (S : Schema ι)

/-- The adapter of a collection shape. -/
def ofShape? : Shape ι → Option (Adapter ι)
  | .collection k e => some ⟨k, e⟩
  | _ => none

/-- The collection shape. -/
def shape (a : Adapter ι) : Shape ι := .collection a.kind a.elem

/-- The collection's type name. -/
def typeName (a : Adapter ι) : String := S.typeName a.shape

/-- The accessor of one element. -/
def element (a : Adapter ι) : Accessor ι := .whole a.elem

/-- The elements of `c`, or the refusal when it is of another type. -/
def items (a : Adapter ι) (c : AnyValue ι) : Except CodecError (List Value) :=
  if c.shape = a.shape then .ok c.value.elems else .error (.typeMismatch (a.typeName S))

/-- The number of elements. -/
def size (a : Adapter ι) (c : AnyValue ι) : Except CodecError Nat :=
  (a.items S c).map List.length

/-- Starts a walk; none for an empty collection. -/
def begin (a : Adapter ι) (c : AnyValue ι) : Except CodecError (Option Cursor) :=
  (a.items S c).map Cursor.start

/-- The empty collection. -/
def clear (a : Adapter ι) (c : AnyValue ι) : Except CodecError Value :=
  (a.items S c).map fun _ => .items []

/-- Reads one element at the reader and inserts it; the result holds the collection. -/
def appendText (a : Adapter ι) (c : AnyValue ι) (r : TextReader) : TextRead :=
  match a.items S c with
  | .ok xs =>
    let o := S.readText a.elem (S.default a.elem) r
    match o.fault with
    | none => { o with value := .items (a.kind.insert xs o.value) }
    | some _ => { o with value := c.value }
  | .error e => ⟨c.value, r, some e⟩

/-- Reads one element from the front of `input` and inserts it; the result holds the
collection. -/
def appendBinary (a : Adapter ι) (c : AnyValue ι) (input : List UInt8) : Decoded :=
  match a.items S c with
  | .ok xs =>
    let o := S.decode a.elem (S.default a.elem) input
    match o.fault with
    | none => { o with value := .items (a.kind.insert xs o.value) }
    | some _ => { o with value := c.value }
  | .error e => ⟨c.value, input, some e⟩

/-! ### Writing a collection

Both writers walk the collection with a cursor and hand each element to an element writer,
`write`: the element accessor's writer when the program runs (`emitElement`, `appendElementText`),
taken as a parameter so that what is proved of the walk holds whatever the element writer does. -/

section Writers

variable {σ : Type}

/-- The binary form of collection `c`, written to `out`: the element count as a `u32`, then
each element, in iteration order, by `write`. A count that does not fit a `u32` is refused
before anything is written. The walk stops at the first element whose write fails. Answers the
stream, the failure if any, and the cursor the walk left, if one was started. -/
def writeBinaryWith [ByteStream σ] (write : σ → Value → σ × Option CodecError) (a : Adapter ι)
    (c : AnyValue ι) (out : σ) : (σ × Option CodecError) × Option Cursor :=
  match a.size S c with
  | .error e => ((out, some e), none)
  | .ok n =>
    if n < Nat.pow 2 32 then
      match ByteStream.writeU32 out n with
      | .error e => ((out, some (.stream e)), none)
      | .ok out =>
        match a.begin S c with
        | .error e => ((out, some e), none)
        | .ok none => ((out, none), none)
        | .ok (some cur) =>
          let (r, cur) := cur.writeEach write out
          (r, some cur)
    else ((out, some (.collectionTooLarge n)), none)

/-- The text form of collection `c`, appended to `out`: `{ `, each element, in iteration order,
by `write`, and `} `. The walk stops at the first element whose write fails, and then no `} `
is written. Answers the text, the failure if any, and the cursor the walk left, if one was
started. -/
def writeTextWith (write : List Char → Value → List Char × Option CodecError) (a : Adapter ι)
    (c : AnyValue ι) (out : List Char) : (List Char × Option CodecError) × Option Cursor :=
  let out := out ++ ['{', ' ']
  match a.begin S c with
  | .error e => ((out, some e), none)
  | .ok none => ((out ++ ['}', ' '], none), none)
  | .ok (some cur) =>
    match cur.writeEach write out with
    | ((out, none), cur) => ((out ++ ['}', ' '], none), some cur)
    | (r, cur) => (r, some cur)

/-- The binary element writer: the element accessor's binary form, written to the stream. -/
def emitElement [ByteStream σ] (a : Adapter ι) (out : σ) (v : Value) : σ × Option CodecError :=
  ByteStream.emit out (a.element.writeBinary S ⟨a.elem, v⟩)

/-- The text element writer: the element accessor's text form, appended. -/
def appendElementText (a : Adapter ι) (out : List Char) (v : Value) :
    List Char × Option CodecError :=
  let (t, fault) := a.element.writeText S ⟨a.elem, v⟩
  (out ++ t, fault)

/-- The binary form of a collection, written element by element. -/
def writeBinary [ByteStream σ] (a : Adapter ι) (c : AnyValue ι) (out : σ) :
    (σ × Option CodecError) × Option Cursor :=
  a.writeBinaryWith S (a.emitElement S) c out

/-- The text form of a collection, appended element by element. -/
def writeText (a : Adapter ι) (c : AnyValue ι) (out : List Char) :
    (List Char × Option CodecError) × Option Cursor :=
  a.writeTextWith S (a.appendElementText S) c out

end Writers

end Adapter

end RecordWire
