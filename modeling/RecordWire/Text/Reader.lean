import RecordWire.Text.Quote
import RecordWire.Codec.Error
/-!
# Text reader

A text reader is a cursor over text: the bytes consumed so far and the characters still to
read. Its steps skip blanks, look at or consume one character, take a bare token (a run up to
a blank, `]` or `}`), and read a quoted string. A step that fails says where, as a byte offset,
and hands back the reader as the failure left it.
-/

namespace RecordWire

/-- Bytes of the UTF-8 encoding of a character list. -/
def utf8Length (cs : List Char) : Nat := cs.foldr (fun c n => c.utf8Size + n) 0

/-- A cursor over text. -/
structure TextReader where
  /-- Bytes consumed so far. -/
  pos : Nat := 0
  /-- Characters not yet consumed. -/
  rest : List Char
  deriving DecidableEq, Repr

/-- The outcome of a reader step: its result or error, and the reader after it. -/
structure Parsed (α : Type) where
  result : Except ParseError α
  reader : TextReader

namespace TextReader

/-- A reader at the start of `s`. -/
def ofString (s : String) : TextReader := { rest := s.toList }

/-- Length of the whole input in bytes. -/
def total (r : TextReader) : Nat := r.pos + utf8Length r.rest

/-- Whether nothing is left. -/
def atEnd (r : TextReader) : Bool := r.rest.isEmpty

/-- The next character, if any. -/
def peek (r : TextReader) : Option Char := r.rest.head?

/-- Consumes the characters `cs`, which must be a prefix of the rest. -/
def skip (r : TextReader) (cs : List Char) : TextReader :=
  { pos := r.pos + utf8Length cs, rest := r.rest.drop cs.length }

/-- Consumes leading blanks. -/
def skipBlanks (r : TextReader) : TextReader := r.skip (r.rest.takeWhile isBlank)

theorem length_skip_le (r : TextReader) (cs : List Char) :
    (r.skip cs).rest.length ≤ r.rest.length := by
  simp [skip]

theorem length_skipBlanks_le (r : TextReader) : r.skipBlanks.rest.length ≤ r.rest.length :=
  r.length_skip_le _

/-- An error of `kind` at the cursor. -/
def error (r : TextReader) (kind : ParseKind) : ParseError := ⟨kind, r.pos⟩

/-- Consumes `c` if it comes next. -/
def eat (r : TextReader) (c : Char) : Bool × TextReader :=
  match r.rest with
  | d :: _ => if d = c then (true, r.skip [c]) else (false, r)
  | [] => (false, r)

/-- Consumes `c`, or fails with `kind` when another character comes next and with an
unexpected end when nothing does. -/
def expect (r : TextReader) (c : Char) (kind : ParseKind) : Parsed Unit :=
  match r.rest with
  | d :: _ => if d = c then ⟨.ok (), r.skip [c]⟩ else ⟨.error (r.error kind), r⟩
  | [] => ⟨.error (r.error .unexpectedEnd), r⟩

theorem length_expect_lt {r : TextReader} {c : Char} {kind : ParseKind}
    (h : (r.expect c kind).result = .ok ()) : (r.expect c kind).reader.rest.length < r.rest.length := by
  unfold expect at h ⊢
  split
  · rename_i d t hr
    split
    · simp [skip, hr]
    · simp_all
  · simp_all

/-- Whether `c` ends a bare token. -/
def endsToken (c : Char) : Bool := isBlank c || c == ']' || c == '}'

/-- Consumes a bare token: the characters up to a blank, `]`, `}` or the end. -/
def takeToken (r : TextReader) : List Char × TextReader :=
  let token := r.rest.takeWhile (fun c => !endsToken c)
  (token, r.skip token)

/-- Consumes a token and reads it with `read?`. An empty token is an unexpected end at the end
of input and an invalid token elsewhere; a token that `read?` refuses is an invalid token at
its start. The token is consumed either way. -/
def parseToken {α : Type} (r : TextReader) (read? : List Char → Option α) : Parsed α :=
  let (token, r') := r.takeToken
  if token.isEmpty then
    ⟨.error (r'.error (if r'.atEnd then .unexpectedEnd else .invalidToken)), r'⟩
  else match read? token with
    | some v => ⟨.ok v, r'⟩
    | none => ⟨.error (r.error .invalidToken), r'⟩

/-- The body of a quoted string after its opening quote: the characters up to the closing
quote with escapes resolved, and what follows the quote; none when the quote never comes. -/
def unescape : List Char → Option (List Char × List Char)
  | [] => none
  | '"' :: rest => some ([], rest)
  | '\\' :: c :: rest =>
    let c' := if c = 'n' then '\n' else if c = 'r' then '\r' else c
    (unescape rest).map fun (s, after) => (c' :: s, after)
  | '\\' :: [] => none
  | c :: rest => (unescape rest).map fun (s, after) => (c :: s, after)

/-- Reads a quoted string. A missing opening quote fails at the cursor; a missing closing
quote or a final lone backslash fails as an unexpected end at the end of the input, with the
opening quote consumed. -/
def readQuoted (r : TextReader) : Parsed String :=
  match r.rest with
  | '"' :: body =>
    let r1 := r.skip ['"']
    match unescape body with
    | some (s, after) => ⟨.ok (String.ofList s), { pos := r.total - utf8Length after, rest := after }⟩
    | none => ⟨.error ⟨.unexpectedEnd, r.total⟩, r1⟩
  | _ :: _ => ⟨.error (r.error .missingOpenToken), r⟩
  | [] => ⟨.error (r.error .unexpectedEnd), r⟩

end TextReader

end RecordWire
