import RecordWire.Text.Extender
import RecordWire.Text.Printable
/-!
# Escaped string literals

Two ways of writing a string as a literal between double quotes. The inspection form escapes
the quote, the backslash, tab, line feed, carriage return and NUL with a backslash, and writes
every other character that is not printable or that extends a grapheme as `\u{…}` with
lowercase hex digits, so that a mark never lands on the quote or on the character before it.
The JSON form escapes the quote and the backslash, writes `\b \f \n \r \t` for those controls and
`\u00…` for the others. Every other character stands for itself in both.
-/

namespace RecordWire

/-- Lowercase hex digits of `n`. -/
def hexDigits (n : Nat) : List Char := Nat.toDigits 16 n

/-- The inspection escape of one character. -/
def inspectEscape (c : Char) : List Char :=
  if c = '"' then ['\\', '"']
  else if c = '\\' then ['\\', '\\']
  else if c = '\t' then ['\\', 't']
  else if c = '\n' then ['\\', 'n']
  else if c = '\r' then ['\\', 'r']
  else if c = '\x00' then ['\\', '0']
  else if isGraphemeExtend c || !isPrintable c then
    ['\\', 'u', '\x7b'] ++ hexDigits c.toNat ++ ['\x7d']
  else [c]

/-- A string as an inspection literal. -/
def inspectQuote (s : String) : String :=
  String.ofList ('"' :: s.toList.flatMap inspectEscape ++ ['"'])

/-- The JSON escape of one character. -/
def jsonEscape (c : Char) : List Char :=
  if c = '"' then ['\\', '"']
  else if c = '\\' then ['\\', '\\']
  else if c = '\n' then ['\\', 'n']
  else if c = '\r' then ['\\', 'r']
  else if c = '\t' then ['\\', 't']
  else if c = '\x08' then ['\\', 'b']
  else if c = '\x0c' then ['\\', 'f']
  else if c.toNat < 0x20 then
    let ds := hexDigits c.toNat
    ['\\', 'u'] ++ List.replicate (4 - ds.length) '0' ++ ds
  else [c]

/-- A string as a JSON literal. -/
def jsonQuote (s : String) : String :=
  String.ofList ('"' :: s.toList.flatMap jsonEscape ++ ['"'])

end RecordWire
