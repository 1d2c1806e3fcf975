import RecordWire.Schema.Descriptor
/-!
# Values

A value is what a member of some shape holds: an integer, a float (kept as its bit pattern), a
boolean, a string, the members of a record in declaration order, or the elements of a
collection in iteration order. The shape says which of these a member holds; one value type
serves every described record because reading and writing by description is the whole job.

Sets keep their elements once and in ascending order: integers by value, strings by their code
points (which is the order of their UTF-8 bytes), and the rest lexicographically. A sequence
appends. `CollectionKind.insert` is that rule, and `Schema.default` gives each shape's default
value: zero, false, the empty string, empty collections, and records of defaults.
-/

namespace RecordWire

/-- A value held by a member. -/
inductive Value where
  | int (v : Int)
  /-- A float, as its bit pattern. -/
  | float (bits : Nat)
  | bool (b : Bool)
  | str (s : String)
  /-- The members of a record, in declaration order. -/
  | record (members : List Value)
  /-- The elements of a collection, in iteration order. -/
  | items (elems : List Value)
  deriving Repr, Inhabited

namespace Value

mutual
/-- Equality of values is decidable. -/
def decEq : (a b : Value) → Decidable (a = b)
  | int a, int b => if h : a = b then isTrue (h ▸ rfl) else isFalse (fun e => h (int.inj e))
  | float a, float b => if h : a = b then isTrue (h ▸ rfl) else isFalse (fun e => h (float.inj e))
  | bool a, bool b => if h : a = b then isTrue (h ▸ rfl) else isFalse (fun e => h (bool.inj e))
  | str a, str b => if h : a = b then isTrue (h ▸ rfl) else isFalse (fun e => h (str.inj e))
  | record as, record bs =>
    match decEqList as bs with
    | isTrue h => isTrue (h ▸ rfl)
    | isFalse h => isFalse (fun e => h (record.inj e))
  | items as, items bs =>
    match decEqList as bs with
    | isTrue h => isTrue (h ▸ rfl)
    | isFalse h => isFalse (fun e => h (items.inj e))
  | int _, float _ | int _, bool _ | int _, str _ | int _, record _ | int _, items _
  | float _, int _ | float _, bool _ | float _, str _ | float _, record _ | float _, items _
  | bool _, int _ | bool _, float _ | bool _, str _ | bool _, record _ | bool _, items _
  | str _, int _ | str _, float _ | str _, bool _ | str _, record _ | str _, items _
  | record _, int _ | record _, float _ | record _, bool _ | record _, str _
  | record _, items _ | items _, int _ | items _, float _ | items _, bool _
  | items _, str _ | items _, record _ => isFalse (fun e => by cases e)
/-- Equality of value lists is decidable. -/
def decEqList : (as bs : List Value) → Decidable (as = bs)
  | [], [] => isTrue rfl
  | [], _ :: _ => isFalse (fun e => by cases e)
  | _ :: _, [] => isFalse (fun e => by cases e)
  | a :: as, b :: bs =>
    match decEq a b, decEqList as bs with
    | isTrue h1, isTrue h2 => isTrue (h1 ▸ h2 ▸ rfl)
    | isFalse h1, _ => isFalse (fun e => h1 (List.cons.inj e).1)
    | _, isFalse h2 => isFalse (fun e => h2 (List.cons.inj e).2)
end

instance : DecidableEq Value := decEq

/-- The rank of a value's kind, which orders values of different kinds. -/
def kindRank : Value → Nat
  | int _ => 0 | float _ => 1 | bool _ => 2 | str _ => 3 | record _ => 4 | items _ => 5

/-- The members of a record value (none for other values). -/
def fields : Value → List Value
  | record vs => vs
  | _ => []

/-- The elements of a collection value (none for other values). -/
def elems : Value → List Value
  | items vs => vs
  | _ => []

mutual
/-- The order of values: by kind first, then integers by value, strings by code points,
booleans with `false` first, floats by bits, records and collections lexicographically. -/
def compare : Value → Value → Ordering
  | int a, int b => Ord.compare a b
  | float a, float b => Ord.compare a b
  | bool a, bool b => Ord.compare a b
  | str a, str b => Ord.compare a b
  | record as, record bs => compareList as bs
  | items as, items bs => compareList as bs
  | a, b => Ord.compare a.kindRank b.kindRank
/-- Lexicographic order of value lists. -/
def compareList : List Value → List Value → Ordering
  | [], [] => .eq
  | [], _ :: _ => .lt
  | _ :: _, [] => .gt
  | a :: as, b :: bs => (compare a b).then (compareList as bs)
end

end Value

/-- Inserts `v` into the ascending list `xs`, unless an equal element is there. -/
def insertSorted (v : Value) : List Value → List Value
  | [] => [v]
  | x :: xs =>
    match Value.compare v x with
    | .lt => v :: x :: xs
    | .eq => x :: xs
    | .gt => x :: insertSorted v xs

namespace CollectionKind

/-- Adds an element: a sequence appends it, a set inserts it in order unless present. -/
def insert (k : CollectionKind) (xs : List Value) (v : Value) : List Value :=
  if k.isSet then insertSorted v xs else xs ++ [v]

/-- The collection holding `vs`, inserted one after another into an empty one. -/
def ofList (k : CollectionKind) (vs : List Value) : List Value := vs.foldl k.insert []

end CollectionKind

namespace ScalarType

/-- The default of a scalar type. -/
def default : ScalarType → Value
  | .f32 | .f64 => .float 0
  | .bool => .bool false
  | .string => .str ""
  | _ => .int 0

end ScalarType

namespace Schema

variable {ι : Type} (S : Schema ι)

/-- The default value of a shape: zeros, `false`, empty strings and collections, and records
of their members' defaults. -/
def default : Shape ι → Value
  | .scalar t => t.default
  | .record r => .record ((S.descriptor r).members.attach.map fun ⟨m, _⟩ => default m.shape)
  | .collection .. => .items []
termination_by s => S.weight s
decreasing_by
  have := S.weight_le_rank (by assumption)
  simp only [weight] at this ⊢
  omega

end Schema

end RecordWire
