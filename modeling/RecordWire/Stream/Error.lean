/-!
# Stream errors

What can go wrong when bytes are read from or written to a stream, and the sentence that
reports each case.
-/

namespace RecordWire

/-- The largest block a stream accepts: 32 MiB. -/
def maxBlockSize : Nat := 33554432

/-- A failure of a stream operation. -/
inductive StreamError where
  /-- A read asked for more bytes than are left. -/
  | underflow (requested available : Nat)
  /-- A seek went past the logical end. -/
  | invalidSeek (position length : Nat)
  /-- A block is longer than `maxBlockSize`. -/
  | blockTooLarge (size : Nat)
  /-- A write reached a stream that only reads. -/
  | writeOnReadOnly
  deriving DecidableEq, Repr

namespace StreamError

/-- The sentence that reports the error. -/
def message : StreamError → String
  | underflow r a => s!"stream underflow: requested {r} bytes, {a} available"
  | invalidSeek p l => s!"invalid seek to {p} in a stream of length {l}"
  | blockTooLarge n => s!"block of {n} bytes exceeds the maximum of {maxBlockSize} bytes"
  | writeOnReadOnly => "write attempted on a read-only stream"

end StreamError

end RecordWire
