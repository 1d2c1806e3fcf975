/-!
# Shapes of members

Every member of a described record has a shape: a scalar, a nested record, or a collection of
elements of some shape. Scalars are the fixed-width integers and floats, `bool`, the string,
and the one-byte entry, a `u8` whose binary form refuses zero. Collections are sequences
(vector, double-ended queue, linked list), which keep insertion order and repeats, and sets
(ordered and hashed), which keep each element once, in ascending order.

Records are named by an index type `ι`, resolved by a schema. Each shape reports the type name
and the size that the data layout of its type has; both are part of what descriptors show.
-/

namespace RecordWire

/-- The scalar types. -/
inductive ScalarType where
  | u8 | u16 | u32 | u64
  | i8 | i16 | i32 | i64
  | f32 | f64
  | bool
  | string
  /-- A one-byte entry: a `u8` whose binary form refuses zero. -/
  | entry
  deriving DecidableEq, Repr, Inhabited

namespace ScalarType

/-- Signedness and bit width of the integer types. -/
def intBits? : ScalarType → Option (Bool × Nat)
  | u8 => some (false, 8) | u16 => some (false, 16) | u32 => some (false, 32)
  | u64 => some (false, 64) | i8 => some (true, 8) | i16 => some (true, 16)
  | i32 => some (true, 32) | i64 => some (true, 64) | entry => some (false, 8)
  | _ => none

/-- Size of the type's data layout in bytes. -/
def size : ScalarType → Nat
  | u8 | i8 | bool | entry => 1
  | u16 | i16 => 2
  | u32 | i32 | f32 => 4
  | u64 | i64 | f64 => 8
  | string => 24

/-- The type's full name. -/
def typeName : ScalarType → String
  | u8 => "u8" | u16 => "u16" | u32 => "u32" | u64 => "u64"
  | i8 => "i8" | i16 => "i16" | i32 => "i32" | i64 => "i64"
  | f32 => "f32" | f64 => "f64" | bool => "bool"
  | string => "alloc::string::String"
  | entry => "cleanup::Entry"

/-- Whether an integer lies in the range of an integer type (always true for others). -/
def inRange (t : ScalarType) (v : Int) : Bool :=
  match t.intBits? with
  | some (true, n) => -Int.pow 2 (n - 1) ≤ v && v < Int.pow 2 (n - 1)
  | some (false, n) => 0 ≤ v && v < Int.pow 2 n
  | none => true

end ScalarType

/-- The kinds of collections. -/
inductive CollectionKind where
  /-- A growable array. -/
  | vec
  /-- A double-ended queue. -/
  | deque
  /-- A doubly linked list. -/
  | linked
  /-- A set kept in ascending order. -/
  | orderedSet
  /-- A set kept by hash. -/
  | hashSet
  deriving DecidableEq, Repr, Inhabited

namespace CollectionKind

/-- Whether the collection keeps each element once. -/
def isSet : CollectionKind → Bool
  | orderedSet | hashSet => true
  | _ => false

/-- Size of the collection's own data layout in bytes. -/
def size : CollectionKind → Nat
  | deque => 32
  | hashSet => 48
  | _ => 24

/-- The collection's full type name, given its element's. -/
def typeName (k : CollectionKind) (elem : String) : String :=
  let head := match k with
    | vec => "alloc::vec::Vec"
    | deque => "alloc::collections::vec_deque::VecDeque"
    | linked => "alloc::collections::linked_list::LinkedList"
    | orderedSet => "alloc::collections::btree::set::BTreeSet"
    | hashSet => "std::collections::hash::set::HashSet"
  head ++ "<" ++ elem ++ ">"

end CollectionKind

/-- The shape of a member type; records are named by `ι`. -/
inductive Shape (ι : Type) where
  | scalar (t : ScalarType)
  | record (r : ι)
  | collection (k : CollectionKind) (elem : Shape ι)
  deriving DecidableEq, Repr

namespace Shape

variable {ι : Type}

instance : Inhabited (Shape ι) := ⟨.scalar .bool⟩

/-- The word for the shape's category. -/
def category : Shape ι → String
  | scalar _ => "scalar"
  | record _ => "compound"
  | collection .. => "collection"

end Shape

end RecordWire
