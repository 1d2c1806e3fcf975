import RecordWire.Text.Blank
/-!
# Quoted strings

A string in the text format stands between double quotes. Inside, a double quote and a
backslash are preceded by a backslash, a line feed is written `\n` and a carriage return `\r`;
every other character stands for itself. So a quoted string never spans two lines.
-/

namespace RecordWire

/-- The escaped body of a quoted string. -/
def escapeChars : List Char → List Char
  | [] => []
  | c :: cs =>
    if c = '"' ∨ c = '\\' then '\\' :: c :: escapeChars cs
    else if c = '\n' then '\\' :: 'n' :: escapeChars cs
    else if c = '\r' then '\\' :: 'r' :: escapeChars cs
    else c :: escapeChars cs

/-- The characters of `s` between double quotes, escaped. -/
def quoteChars (s : List Char) : List Char := '"' :: escapeChars s ++ ['"']

/-- The quoted form of a string. -/
def quote (s : String) : String := String.ofList (quoteChars s.toList)

end RecordWire
