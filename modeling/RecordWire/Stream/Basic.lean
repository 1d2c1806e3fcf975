import RecordWire.Word
import RecordWire.Stream.Error
/-!
# Byte streams

A byte stream is a byte array with a cursor. Reading takes bytes at the cursor and moves it;
a read that asks for more than is left fails and leaves the cursor where it was. Seeking may go
to any position up to the logical end. Writing is each kind of stream's own business: a
growable stream overwrites and extends, a read-only stream refuses.

On top of these sit the word and block helpers: a `u32` is four little-endian bytes, and a block
is a `u32` length followed by that many bytes, at most `maxBlockSize` of them.

Bytes are held in a `ByteArray`, so that a block of the largest size is one allocation; the list
`(contents s).data.toList` is the view the laws of the streams are stated in.
-/

namespace RecordWire

/-- Bytes with a cursor, which may also accept writes. -/
class ByteStream (σ : Type) where
  /-- The logical bytes. -/
  contents : σ → ByteArray
  /-- The cursor, a byte offset. -/
  position : σ → Nat
  /-- Moves the cursor, without checks. -/
  moveTo : σ → Nat → σ
  /-- Writes bytes at the cursor and moves past them. -/
  write : σ → ByteArray → Except StreamError σ

namespace ByteStream

variable {σ : Type} [ByteStream σ]

/-- Number of logical bytes. -/
def length (s : σ) : Nat := (contents s).size

/-- Number of bytes after the cursor. -/
def left (s : σ) : Nat := length s - position s

/-- The bytes after the cursor. -/
def unread (s : σ) : ByteArray := (contents s).extract (position s) (length s)

/-- Moves the cursor `n` bytes forward. -/
def advance (s : σ) (n : Nat) : σ := moveTo s (position s + n)

/-- Takes `n` bytes at the cursor, or fails with an underflow and leaves the cursor. -/
def read (s : σ) (n : Nat) : Except StreamError (ByteArray × σ) :=
  if n ≤ left s then .ok ((contents s).extract (position s) (position s + n), advance s n)
  else .error (.underflow n (left s))

/-- Moves the cursor to `p`, which must not pass the logical end. -/
def seek (s : σ) (p : Nat) : Except StreamError σ :=
  if p ≤ length s then .ok (moveTo s p) else .error (.invalidSeek p (length s))

/-- Writes `v` as four little-endian bytes. -/
def writeU32 (s : σ) (v : Nat) : Except StreamError σ := write s (leBytes 4 v).toByteArray

/-- Reads four little-endian bytes as a number. -/
def readU32 (s : σ) : Except StreamError (Nat × σ) := do
  let (bs, s) ← read s 4
  return (ofLeBytes bs.data.toList, s)

/-- Fails for a block longer than `maxBlockSize`. -/
def checkBlockSize (n : Nat) : Except StreamError Unit :=
  if n ≤ maxBlockSize then .ok () else .error (.blockTooLarge n)

/-- Writes a block: its length as a `u32`, then its bytes. An oversized block writes nothing. -/
def writeBlock (s : σ) (data : ByteArray) : Except StreamError σ := do
  checkBlockSize data.size
  let s ← writeU32 s data.size
  write s data

/-- Reads a block length, and answers the stream after it: an oversized length fails after its
four bytes were consumed. -/
def readBlockLength (s : σ) : Except StreamError Nat × σ :=
  match readU32 s with
  | .ok (n, s') => ((checkBlockSize n).map (fun _ => n), s')
  | .error e => (.error e, s)

/-- Reads the `n` bytes of a block. -/
def readBlockData (s : σ) (n : Nat) : Except StreamError (ByteArray × σ) := read s n

end ByteStream

end RecordWire
