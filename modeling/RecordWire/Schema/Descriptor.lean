import RecordWire.Schema.Shape
/-!
# Descriptors and schemas

A descriptor describes a record type: its short name, its full type name, its size, and its
members in declaration order, which is also the order in which codecs visit them. A member
has a name, a documentation (a text, or a text with an inclusive range of values), its shape,
and its offset in the record's layout.

A schema gives the descriptor of every record type that shapes name. It also ranks the record
types so that a record holds directly (not through a collection) only records of lower rank.
A binary decoder consumes nothing when it enters a nested record, so this ranking is what
makes the descent finite; through a collection, the count it reads first pays for it.
-/

namespace RecordWire

/-- The documentation of a member. -/
inductive Doc where
  /-- A plain text. -/
  | text (s : String)
  /-- A text with the inclusive range of values it allows. -/
  | range (s : String) (low high : Int)
  deriving DecidableEq, Repr

/-- The text of a documentation. -/
def Doc.textOf : Doc → String
  | .text s => s
  | .range s _ _ => s

/-- One member of a described record. -/
structure Member (ι : Type) where
  name : String
  doc : Doc
  shape : Shape ι
  /-- Byte offset in the record's layout. -/
  offset : Nat
  deriving DecidableEq, Repr

/-- The description of a record type. -/
structure Descriptor (ι : Type) where
  /-- The short name. -/
  name : String
  /-- The full type name. -/
  typeName : String
  /-- Size of the layout in bytes. -/
  size : Nat
  members : List (Member ι)
  deriving DecidableEq, Repr

/-- Whether a shape that names a record names one of rank below `bound`. -/
def Shape.ranksBelow {ι : Type} (rank : ι → Nat) (bound : Nat) : Shape ι → Bool
  | .record r => rank r < bound
  | _ => true

/-- The record types that shapes name, with a rank under which a record holds directly only
records of lower rank. -/
structure Schema (ι : Type) where
  descriptor : ι → Descriptor ι
  rank : ι → Nat
  rank_lt : ∀ r, ((descriptor r).members.all fun m => m.shape.ranksBelow rank (rank r)) = true

namespace Schema

variable {ι : Type} (S : Schema ι)

/-- One more than the rank for a record, zero otherwise: a record's members weigh less. -/
def weight : Shape ι → Nat
  | .record r => S.rank r + 1
  | _ => 0

theorem weight_le_rank {r : ι} {m : Member ι} (h : m ∈ (S.descriptor r).members) :
    S.weight m.shape ≤ S.rank r := by
  have hb := List.all_eq_true.mp (S.rank_lt r) m h
  unfold weight
  unfold Shape.ranksBelow at hb
  split
  · rename_i r' hr'
    rw [hr'] at hb
    simp at hb
    omega
  · exact Nat.zero_le _

/-- The full type name of a shape. -/
def typeName : Shape ι → String
  | .scalar t => t.typeName
  | .record r => (S.descriptor r).typeName
  | .collection k e => k.typeName (typeName e)

/-- The size of a shape's layout in bytes. -/
def size : Shape ι → Nat
  | .scalar t => t.size
  | .record r => (S.descriptor r).size
  | .collection k _ => k.size

/-- The first member with the given name. -/
def member? (r : ι) (name : String) : Option (Member ι) :=
  (S.descriptor r).members.find? (·.name == name)

end Schema

end RecordWire
