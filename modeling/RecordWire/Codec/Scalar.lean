import RecordWire.Value
import RecordWire.Word
import RecordWire.Stream.Error
import RecordWire.Codec.Error
import RecordWire.Float.Read
import RecordWire.Text.Reader
import RecordWire.Text.Utf8
/-!
# Scalar codecs

How each scalar type is written and read, in binary and in text.

In binary, integers and floats are their little-endian bytes of the type's width (floats as
their bit patterns), a boolean is one byte (zero for `false`; any other byte reads as `true`),
a string is a block (a `u32` byte length, then its UTF-8 bytes, at most `maxBlockSize` of them),
and an entry is its byte, zero being refused.

In text, integers are decimal; floats are their shortest positional digits; booleans are `true`
and `false`; strings are quoted; an entry is its decimal byte. An integer token is an optional
`+` (or `-` for the signed types) and ASCII digits, and must lie in the type's range.
-/

namespace RecordWire

/-- Reads an integer token of the given signedness and width. -/
def readInt? (signed : Bool) (bits : Nat) (token : List Char) : Option Int :=
  let (neg, digits) : Bool × List Char := match token with
    | '+' :: r => (false, r)
    | '-' :: r => if signed then (true, r) else (false, token)
    | r => (false, r)
  if digits.isEmpty || !digits.all Char.isDigit then none
  else
    let n : Int := digitsValue digits
    let v := if neg then -n else n
    let fits := if signed then -Int.pow 2 (bits - 1) ≤ v ∧ v < Int.pow 2 (bits - 1) else v < Int.pow 2 bits
    if fits then some v else none

/-- Reads a boolean token. -/
def readBool? (token : List Char) : Option Bool :=
  if token = "true".toList then some true
  else if token = "false".toList then some false
  else none

namespace ScalarType

/-- The float format of a float type. -/
def floatFormat? : ScalarType → Option FloatFormat
  | f32 => some .single
  | f64 => some .double
  | _ => none

/-- Whether `v` is a value of the scalar type: an integer in the type's range (an entry is a
`u8`), a float pattern of the format's width, or a boolean or string for those types. -/
def admits (t : ScalarType) : Value → Bool
  | .int n => t.intBits?.isSome && t.inRange n
  | .float bits =>
    match t.floatFormat? with
    | some f => bits < Nat.pow 2 f.width
    | none => false
  | .bool _ => t == .bool
  | .str _ => t == .string
  | _ => false

/-- The binary form of a scalar value. A string longer than `maxBlockSize` bytes and a zero
entry are refused. -/
def encodeBinary (t : ScalarType) (v : Value) : Except CodecError (List UInt8) :=
  match t, v with
  | .entry, .int n => if n = 0 then .error (.stream .writeOnReadOnly) else .ok (leBytes 1 n.toNat)
  | .bool, .bool b => .ok [if b then 1 else 0]
  | .string, .str s =>
    let bs := utf8Bytes s
    if bs.length ≤ maxBlockSize then .ok (leBytes 4 bs.length ++ bs)
    else .error (.stream (.blockTooLarge bs.length))
  | t, .int n =>
    match t.intBits? with
    | some (_, bits) => .ok (leBytes (bits / 8) (wordOfSigned bits n))
    | none => .ok []
  | t, .float bits =>
    match t.floatFormat? with
    | some f => .ok (leBytes (f.width / 8) bits)
    | none => .ok []
  | _, _ => .ok []

/-- Reads a scalar value from the front of `input`: the value and the bytes after it, or the
error and the bytes left when it struck. -/
def decodeBinary (t : ScalarType) (input : List UInt8) :
    Except (CodecError × List UInt8) (Value × List UInt8) :=
  let take (n : Nat) : Except (CodecError × List UInt8) (List UInt8 × List UInt8) :=
    if n ≤ input.length then .ok (input.take n, input.drop n)
    else .error (.stream (.underflow n input.length), input)
  match t with
  | .bool => (take 1).map fun (bs, rest) => (.bool (bs.head? != some 0), rest)
  | .string => do
    let (lenBytes, rest) ← take 4
    let n := ofLeBytes lenBytes
    if n > maxBlockSize then throw (.stream (.blockTooLarge n), rest)
    if rest.length < n then throw (.stream (.underflow n rest.length), rest)
    let data := rest.take n
    let rest := rest.drop n
    match utf8Decode data with
    | some cs => return (.str (String.ofList cs), rest)
    | none => throw (.invalidUtf8, rest)
  | t =>
    match t.floatFormat?, t.intBits? with
    | some f, _ => (take (f.width / 8)).map fun (bs, rest) => (.float (ofLeBytes bs), rest)
    | none, some (signed, bits) =>
      (take (bits / 8)).map fun (bs, rest) =>
        let w := ofLeBytes bs
        (.int (if signed then signedOfWord bits w else w), rest)
    | none, none => .ok (t.default, input)

/-- The text token of a scalar value, without the space that follows it. -/
def textChars (t : ScalarType) (v : Value) : List Char :=
  match t, v with
  | _, .int n => (toString n).toList
  | t, .float bits => ((t.floatFormat?.getD .double).display bits).toList
  | _, .bool b => if b then "true".toList else "false".toList
  | _, .str s => quoteChars s.toList
  | _, _ => []

/-- Reads a bare token as a value of the type; a string type takes the token as it is. -/
def readToken? (t : ScalarType) (token : List Char) : Option Value :=
  match t with
  | .bool => (readBool? token).map .bool
  | .string => some (.str (String.ofList token))
  | t =>
    match t.floatFormat?, t.intBits? with
    | some f, _ => (f.read? token).map .float
    | none, some (signed, bits) => (readInt? signed bits token).map .int
    | none, none => none

/-- Reads a scalar at the cursor (blanks already skipped): a quoted string, or a bare token. -/
def readText (t : ScalarType) (r : TextReader) : Parsed Value :=
  match t with
  | .string =>
    let p := r.readQuoted
    ⟨p.result.map .str, p.reader⟩
  | t => r.parseToken t.readToken?

end ScalarType

end RecordWire
