import RecordWire.Codec.Scalar
/-!
# Text codec

The text form of a value follows its shape: a record is `[ `, its members' forms and `] `; a
collection is `{ `, its elements' forms and `} `; a scalar is its token and one space. So every
record starts with `[ ` and ends with `] `, and since strings are quoted with their line breaks
escaped, a record never spans two lines. `textOf` is that form, read off the shape. The
writer that runs, `writeValueText`, goes through the type-erased accessors and checks every
value against the type it is held as on the way; the first value that is not of its type stops
it with a type mismatch.

Reading is strict recursive descent that allows blanks anywhere between tokens. A record is a
`[` (a missing one is refused, an ended input is an unexpected end), its members each after
optional blanks (an ended input is an unexpected end), and a `]` after optional blanks (else
a missing close token). A collection is a `{`, then elements until a `}`. A failed read leaves
the value as far as it got, as binary reading does: members before the failure hold new values,
later members old ones, a failing scalar its old value, and a collection whose `{` was read
holds exactly the elements read before the failure.

A record file holds one record per line and ends at the first blank line.
-/

namespace RecordWire

/-- What reading text produced: the value as far as it got, the reader after it, and the
failure that stopped it, if any. -/
structure TextRead where
  value : Value
  reader : TextReader
  fault : Option CodecError := none
  deriving Repr

/-- What reading a list of values from text produced. -/
structure TextReadList where
  values : List Value
  reader : TextReader
  fault : Option CodecError := none
  deriving Repr

namespace Schema

variable {ι : Type} (S : Schema ι)

mutual
/-- The text form of a value of shape `s`. -/
def textOf : Shape ι → Value → List Char
  | .scalar t, v => t.textChars v ++ [' ']
  | .record r, .record vs => '[' :: ' ' :: textMembers (S.descriptor r).members vs ++ [']', ' ']
  | .collection _ e, .items xs => '{' :: ' ' :: textItems e xs ++ ['}', ' ']
  | _, _ => []
/-- The text forms of a record's members, one after another. -/
def textMembers : List (Member ι) → List Value → List Char
  | m :: ms, v :: vs => textOf m.shape v ++ textMembers ms vs
  | _, _ => []
/-- The text forms of a collection's elements, one after another. -/
def textItems (e : Shape ι) : List Value → List Char
  | v :: vs => textOf e v ++ textItems e vs
  | [] => []
end

/-- The text form of a value, as a string. -/
def toText (s : Shape ι) (v : Value) : String := String.ofList (S.textOf s v)

/-- Writes `next` after `w` unless `w` failed. -/
def thenText (w : List Char × Option CodecError) (next : Unit → List Char × Option CodecError) :
    List Char × Option CodecError :=
  match w with
  | (cs, none) => let n := next (); (cs ++ n.1, n.2)
  | w => w

mutual
/-- Writes a value held as one of shape `s`, as the type-erased writer does: every value is
checked against the type it is held as before it is written, and the first check that fails
stops the writing with a type mismatch naming that type, leaving what was written before it. A
scalar must be of its type. A record writes `[ `, then each member through the member's
accessor, whose check that the record is of its type fails at the first member, and `] `; so a
record type without members takes any value. A collection writes `{ `, must be a collection,
and writes each element and `} `. -/
def writeValueText : Shape ι → Value → List Char × Option CodecError
  | .scalar t, v =>
    if t.admits v then (t.textChars v ++ [' '], none) else ([], some (.typeMismatch t.typeName))
  | .record r, .record vs =>
    if (S.descriptor r).members = [] ∨ vs.length = (S.descriptor r).members.length then
      thenText (thenText (['[', ' '], none) fun _ => writeMembersText (S.descriptor r).members vs)
        fun _ => ([']', ' '], none)
    else (['[', ' '], some (.typeMismatch (S.descriptor r).typeName))
  | .record r, _ =>
    if (S.descriptor r).members = [] then (['[', ' ', ']', ' '], none)
    else (['[', ' '], some (.typeMismatch (S.descriptor r).typeName))
  | .collection _ e, .items xs =>
    thenText (thenText (['{', ' '], none) fun _ => writeItemsText e xs) fun _ => (['}', ' '], none)
  | .collection k e, _ => (['{', ' '], some (.typeMismatch (k.typeName (S.typeName e))))
/-- Writes a record's members in declaration order, each with its value. -/
def writeMembersText : List (Member ι) → List Value → List Char × Option CodecError
  | m :: ms, v :: vs => thenText (writeValueText m.shape v) fun _ => writeMembersText ms vs
  | _, _ => ([], none)
/-- Writes a collection's elements in iteration order. -/
def writeItemsText (e : Shape ι) : List Value → List Char × Option CodecError
  | x :: xs => thenText (writeValueText e x) fun _ => writeItemsText e xs
  | [] => ([], none)
end

mutual
/-- Reads a value of shape `s` into `old` at the reader. -/
def readText (s : Shape ι) (old : Value) (r : TextReader) : TextRead :=
  match s with
  | .scalar t =>
    let p := t.readText r.skipBlanks
    match p.result with
    | .ok v => ⟨v, p.reader, none⟩
    | .error e => ⟨old, p.reader, some (.parse e)⟩
  | .record rid =>
    let p := r.skipBlanks.expect '[' .missingOpenToken
    match h : p.result with
    | .error e => ⟨old, p.reader, some (.parse e)⟩
    | .ok () =>
      have := TextReader.length_expect_lt h
      have := r.length_skipBlanks_le
      let o := readMembers (S.descriptor rid).members old.fields p.reader
      match o.fault with
      | some f => ⟨.record o.values, o.reader, some f⟩
      | none =>
        let r2 := o.reader.skipBlanks
        match r2.eat ']' with
        | (true, r3) => ⟨.record o.values, r3, none⟩
        | (false, _) => ⟨.record o.values, r2, some (.atByte .missingCloseToken r2.pos)⟩
  | .collection k e =>
    let p := r.skipBlanks.expect '{' .missingOpenToken
    match h : p.result with
    | .error e => ⟨old, p.reader, some (.parse e)⟩
    | .ok () =>
      have := TextReader.length_expect_lt h
      have := r.length_skipBlanks_le
      let o := readItems k e [] p.reader
      ⟨.items o.values, o.reader, o.fault⟩
termination_by (r.rest.length, 0)
decreasing_by
  all_goals
    simp +zetaDelta only [Prod.lex_def] at *
    omega
/-- Reads the members `ms` in order, each after optional blanks, `olds` holding their old
values. -/
def readMembers (ms : List (Member ι)) (olds : List Value) (r : TextReader) : TextReadList :=
  match ms with
  | [] => ⟨olds, r, none⟩
  | m :: ms =>
    let r1 := r.skipBlanks
    have := r.length_skipBlanks_le
    if r1.atEnd then ⟨olds, r1, some (.atByte .unexpectedEnd r1.pos)⟩
    else
      let o := readText m.shape (olds.headD (S.default m.shape)) r1
      match o.fault with
      | some f => ⟨o.value :: olds.tail, o.reader, some f⟩
      | none =>
        if _ : o.reader.rest.length ≤ r.rest.length then
          let tail := readMembers ms olds.tail o.reader
          ⟨o.value :: tail.values, tail.reader, tail.fault⟩
        else ⟨o.value :: olds.tail, o.reader, none⟩
termination_by (r.rest.length, ms.length + 1)
decreasing_by
  all_goals
    simp +zetaDelta only [Prod.lex_def, List.length_cons] at *
    omega
/-- Reads elements of shape `e` until a `}`, inserting each by the rule of `k` into `acc`. -/
def readItems (k : CollectionKind) (e : Shape ι) (acc : List Value) (r : TextReader) :
    TextReadList :=
  let r1 := r.skipBlanks
  have := r.length_skipBlanks_le
  if r1.atEnd then ⟨acc, r1, some (.atByte .unexpectedEnd r1.pos)⟩
  else
    match r1.eat '}' with
    | (true, r2) => ⟨acc, r2, none⟩
    | (false, _) =>
      let o := readText e (S.default e) r1
      match o.fault with
      | some f => ⟨acc, o.reader, some f⟩
      | none =>
        if _ : o.reader.rest.length < r.rest.length then
          readItems k e (k.insert acc o.value) o.reader
        else ⟨acc, o.reader, none⟩
termination_by (r.rest.length, 1)
decreasing_by
  all_goals
    simp +zetaDelta only [Prod.lex_def] at *
    omega
end

/-- Reads one record of shape `s` from the start of `text` into a default value, and requires
that only blanks follow it; anything else is an invalid token where it starts. -/
def fromText (s : Shape ι) (text : String) : Except CodecError Value :=
  let o := S.readText s (S.default s) (TextReader.ofString text)
  match o.fault with
  | some f => .error f
  | none =>
    let r := o.reader.skipBlanks
    if r.atEnd then .ok o.value else .error (.atByte .invalidToken r.pos)

/-- The records' text forms, each followed by a line feed. -/
def writeRecords (s : Shape ι) (vs : List Value) : String :=
  String.join (vs.map fun v => S.toText s v ++ "\n")

/-- The lines of a text: split after each line feed, which is dropped together with one
carriage return before it; a final line feed opens no further line. -/
def textLines (cs : List Char) : List (List Char) :=
  let pieces := cs.splitOn '\n'
  let pieces := if pieces.getLast? = some [] then pieces.dropLast else pieces
  let n := pieces.length
  pieces.zipIdx.map fun (line, i) =>
    if i + 1 < n ∨ cs.getLast? = some '\n' then
      if line.getLast? = some '\r' then line.dropLast else line
    else line

/-- Reads one record per line up to the first blank line or the end; the first failing line's
error is the answer. -/
def readRecords (s : Shape ι) (text : String) : Except CodecError (List Value) :=
  go (textLines text.toList)
where
  /-- Reads the lines in order. -/
  go : List (List Char) → Except CodecError (List Value)
    | [] => .ok []
    | line :: lines =>
      if allBlank line then .ok []
      else do
        let v ← S.fromText s (String.ofList line)
        let vs ← go lines
        return v :: vs

end Schema

end RecordWire

namespace RecordWire

namespace Schema

variable {ι : Type} (S : Schema ι)

/-- Reads one record of shape `s` from UTF-8 bytes: bytes that are not UTF-8 are refused, and
the text must then hold one record as `fromText` requires. -/
def textDecode (s : Shape ι) (bytes : List UInt8) : Except CodecError Value :=
  match utf8Decode bytes with
  | none => .error .invalidUtf8
  | some cs => S.fromText s (String.ofList cs)

end Schema

end RecordWire
