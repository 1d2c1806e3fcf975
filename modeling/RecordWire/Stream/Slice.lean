import RecordWire.Stream.Basic
/-!
# Read-only streams

A slice stream reads from fixed bytes. Every write fails, an empty one included, so nothing
ever changes its bytes.
-/

namespace RecordWire

/-- A byte stream over fixed bytes that refuses writes. -/
structure SliceStream where
  /-- The bytes read from. -/
  data : ByteArray
  /-- The cursor. -/
  pos : Nat := 0

namespace SliceStream

/-- A stream over the bytes of a list, cursor at the start. -/
def ofList (bs : List UInt8) : SliceStream := { data := bs.toByteArray }

instance : ByteStream SliceStream where
  contents s := s.data
  position s := s.pos
  moveTo s p := { s with pos := p }
  write _ _ := .error .writeOnReadOnly

end SliceStream

end RecordWire
