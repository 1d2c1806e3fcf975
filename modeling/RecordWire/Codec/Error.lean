import RecordWire.Stream.Error
/-!
# Codec errors

Reading and writing described values fails for three kinds of reasons: the stream below
failed, the text did not follow the grammar (with the byte where it went wrong), or the value
itself does not fit (bytes that are not UTF-8, too many elements, bytes left over, a value of
another type). Each error has the sentence that reports it.
-/

namespace RecordWire

/-- What the text grammar missed. -/
inductive ParseKind where
  /-- An opening bracket or quote was expected. -/
  | missingOpenToken
  /-- The input ended early. -/
  | unexpectedEnd
  /-- A closing bracket was expected. -/
  | missingCloseToken
  /-- A token is not a value of its type. -/
  | invalidToken
  deriving DecidableEq, Repr

/-- A grammar failure at a byte offset. -/
structure ParseError where
  kind : ParseKind
  position : Nat
  deriving DecidableEq, Repr

namespace ParseKind

/-- The words that report the kind. -/
def describe : ParseKind → String
  | missingOpenToken => "missing open token"
  | unexpectedEnd => "unexpected end of input"
  | missingCloseToken => "missing close token"
  | invalidToken => "invalid token"

end ParseKind

/-- The sentence that reports a grammar failure. -/
def ParseError.message (e : ParseError) : String :=
  e.kind.describe ++ " at byte " ++ toString e.position

/-- A failure to read or write a described value. -/
inductive CodecError where
  /-- The stream failed. -/
  | stream (e : StreamError)
  /-- The text did not follow the grammar. -/
  | parse (e : ParseError)
  /-- A string's bytes are not UTF-8. -/
  | invalidUtf8
  /-- A collection has more elements than a four-byte count holds. -/
  | collectionTooLarge (n : Nat)
  /-- Bytes were left after the value. -/
  | trailingBytes (n : Nat)
  /-- A value was not of the expected type, named here. -/
  | typeMismatch (expected : String)
  deriving DecidableEq, Repr

namespace CodecError

/-- The sentence that reports the error; a wrapped error reports itself. -/
def message : CodecError → String
  | stream e => e.message
  | parse e => e.message
  | invalidUtf8 => "string payload is not valid UTF-8"
  | collectionTooLarge n => s!"collection of {n} elements does not fit a 4-byte count"
  | trailingBytes n => s!"{n} trailing bytes after the encoded value"
  | typeMismatch t => "value is not a " ++ t

/-- A grammar failure of the given kind at `pos`. -/
def atByte (kind : ParseKind) (pos : Nat) : CodecError := .parse ⟨kind, pos⟩

end CodecError

end RecordWire
