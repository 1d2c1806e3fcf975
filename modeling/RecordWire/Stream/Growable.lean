import RecordWire.Stream.Basic
import RecordWire.Stream.Sizing
/-!
# Growable streams

A growable stream keeps three sizes apart: the cursor, the logical end and the physical buffer.
Bytes of the buffer past the logical end are scratch, left there by an earlier, longer content.
A write past the physical end grows the buffer by the sizing policy of `StreamConfig`, with
zeros, until it covers the write; the write then overwrites at the cursor and moves the logical
end out only past it. Truncating at the cursor makes the cursor the logical end and may cut the
buffer down to the aligned length; clearing resets the cursor and the end and keeps the buffer,
scratch and all; a clone copies the logical bytes into a zeroed buffer of the aligned length.

Every call keeps the cursor at or before the logical end. A stream built with its cursor past
the end, which no call does, writes at the end: the bytes before the cursor are then all of
them. An alignment that wraps to zero can cut the buffer below the logical end. Slicing the
logical bytes out of the buffer then fails (`asBytes`, a panic of the slice), and the bytes the
buffer lacks are the zeros that growing it over them puts there (`bytes`).
-/

namespace RecordWire

/-- `n` zero bytes. -/
def zeroBytes (n : Nat) : ByteArray := ⟨Array.replicate n 0⟩

/-- A byte stream that owns and grows its buffer. -/
structure GrowableStream where
  /-- The physical buffer; the bytes past the logical end are scratch. -/
  buf : ByteArray := .empty
  /-- The logical end. -/
  len : Nat := 0
  /-- The cursor. -/
  pos : Nat := 0
  /-- The sizing policy. -/
  config : StreamConfig := {}

namespace GrowableStream

/-- The physical size of the buffer. -/
def capacity (s : GrowableStream) : Nat := s.buf.size

/-- The logical bytes: the buffer up to the logical end, the bytes it lacks read as zeros. -/
def bytes (s : GrowableStream) : ByteArray :=
  s.buf.extract 0 s.len ++ zeroBytes (s.len - s.buf.size)

/-- The logical bytes as a slice of the buffer, which fails when the buffer stops short of the
logical end. -/
def asBytes (s : GrowableStream) : Option ByteArray :=
  if s.len ≤ s.buf.size then some (s.buf.extract 0 s.len) else none

/-- The buffer cut at the logical end; a buffer shorter than that is given whole. -/
def intoBytes (s : GrowableStream) : ByteArray := s.buf.extract 0 s.len

/-- An empty stream with the given sizing policy. -/
def withConfig (c : StreamConfig) : GrowableStream := { config := c }

/-- A stream over `bs`, whose buffer is `bs`, with the default policy. -/
def ofBytes (bs : ByteArray) : GrowableStream := { buf := bs, len := bs.size }

/-- The buffer grown, step by step of the sizing policy and with zeros, until it reaches
`stop`; a buffer that reaches it already is kept. -/
def reserve (s : GrowableStream) (stop : Nat) : ByteArray :=
  s.buf ++ zeroBytes (s.config.growTo s.buf.size stop - s.buf.size)

/-- Writes `d` at the cursor: the buffer grows to cover the write, `d` overwrites the buffer
from the cursor on, the cursor moves past it, and the logical end moves out to the end of the
write when that lies beyond it. -/
def writeBytes (s : GrowableStream) (d : ByteArray) : GrowableStream :=
  -- where the bytes land: the cursor, or the logical end for a cursor that stands past it
  let start := min s.pos s.len
  { s with
    buf := d.copySlice 0 (s.reserve (s.pos + d.size)) start d.size
    pos := s.pos + d.size
    len := max s.len (start + d.size) }

instance : ByteStream GrowableStream where
  contents s := s.bytes
  position s := s.pos
  moveTo s p := { s with pos := p }
  write s d := .ok (s.writeBytes d)

/-- Makes the cursor the logical end. When the buffer holds more than twice the new length
(saturating) and more than the shrink floor, it is cut to the aligned length, which under an
alignment that wraps to zero is nothing at all. -/
def truncate (s : GrowableStream) : GrowableStream :=
  let len := s.pos
  let buf :=
    if min (2 * len) usizeMax < s.buf.size ∧ s.config.shrinkFloor < s.buf.size then
      s.buf.extract 0 (s.config.roundUp len)
    else s.buf
  { s with buf, len }

/-- Empties the stream and keeps its buffer. -/
def clear (s : GrowableStream) : GrowableStream := { s with len := 0, pos := 0 }

/-- A copy of the logical bytes into a zeroed buffer of the aligned length, with the cursor at
the start. -/
def clone (s : GrowableStream) : GrowableStream :=
  { s with
    buf := s.bytes.copySlice 0 (zeroBytes (s.config.roundUp s.len)) 0 s.len
    pos := 0 }

end GrowableStream

end RecordWire
