import RecordWire.Codec.Scalar
import RecordWire.Stream.Basic
/-!
# Binary codec

The binary form of a value follows its shape: a record is its members' forms in declaration
order with nothing between them, a collection is a `u32` element count followed by its
elements' forms in iteration order, and a scalar is its scalar form. No tags or names travel;
both ends must agree on the schema.

Writing stops at the first scalar that refuses (an oversized string or a zero entry); what was
written before it stays written. `Emitted` records both.

Reading into an existing value overwrites it in order. When reading fails part way, the value
is left as far as it got: members already read hold their new values, later members their old
ones; a failing scalar keeps its old value; a collection whose count was read holds exactly the
elements completely read before the failure, and is untouched if its count could not be read.
`Decoded` records the value, the bytes left, and the failure.
-/

namespace RecordWire

/-- What writing produced: the bytes written, and the failure that stopped it, if any. -/
structure Emitted where
  bytes : List UInt8
  fault : Option CodecError := none
  deriving DecidableEq, Repr

/-- What reading produced: the value as far as it got, the bytes left, and the failure that
stopped it, if any. -/
structure Decoded where
  value : Value
  rest : List UInt8
  fault : Option CodecError := none
  deriving Repr

/-- What reading a list of values produced. -/
structure DecodedList where
  values : List Value
  rest : List UInt8
  fault : Option CodecError := none
  deriving Repr

namespace Emitted

/-- Writes `next` after `e` unless `e` failed. -/
def andThen (e : Emitted) (next : Unit → Emitted) : Emitted :=
  match e.fault with
  | some _ => e
  | none => let n := next (); { n with bytes := e.bytes ++ n.bytes }

end Emitted

namespace Schema

variable {ι : Type} (S : Schema ι)

mutual
/-- The binary form of a value of shape `s`. -/
def encode : Shape ι → Value → Emitted
  | .scalar t, v =>
    match t.encodeBinary v with
    | .ok bs => ⟨bs, none⟩
    | .error e => ⟨[], some e⟩
  | .record r, .record vs => encodeMembers (S.descriptor r).members vs
  | .collection _ e, .items xs =>
    if xs.length < Nat.pow 2 32 then
      (Emitted.mk (leBytes 4 xs.length) none).andThen fun _ => encodeItems e xs
    else ⟨[], some (.collectionTooLarge xs.length)⟩
  | _, _ => ⟨[], none⟩
/-- The forms of a record's members, one after another. -/
def encodeMembers : List (Member ι) → List Value → Emitted
  | m :: ms, v :: vs => (encode m.shape v).andThen fun _ => encodeMembers ms vs
  | _, _ => ⟨[], none⟩
/-- The forms of a collection's elements, one after another. -/
def encodeItems (e : Shape ι) : List Value → Emitted
  | v :: vs => (encode e v).andThen fun _ => encodeItems e vs
  | [] => ⟨[], none⟩
end

/-- Reads a `u32` count from the front of `input`. -/
def readCount (input : List UInt8) : Option (Nat × List UInt8) :=
  if 4 ≤ input.length then some (ofLeBytes (input.take 4), input.drop 4) else none

theorem readCount_rest_lt {input : List UInt8} {n : Nat} {rest : List UInt8}
    (h : readCount input = some (n, rest)) : rest.length < input.length := by
  unfold readCount at h
  split at h
  · cases h; simp; omega
  · cases h

mutual
/-- Reads a value of shape `s` into `old` from the front of `input`. -/
def decode (s : Shape ι) (old : Value) (input : List UInt8) : Decoded :=
  match s with
  | .scalar t =>
    match t.decodeBinary input with
    | .ok (v, rest) => ⟨v, rest, none⟩
    | .error (e, rest) => ⟨old, rest, some e⟩
  | .record r =>
    have : S.rank r < S.weight (.record r) := Nat.lt_succ_self _
    let o := decodeMembers r (S.descriptor r).members.attach old.fields input
    ⟨.record o.values, o.rest, o.fault⟩
  | .collection k e =>
    match h : readCount input with
    | none => ⟨old, input, some (.stream (.underflow 4 input.length))⟩
    | some (n, rest) =>
      have := readCount_rest_lt h
      let o := decodeItems k e n [] rest
      ⟨.items o.values, o.rest, o.fault⟩
termination_by (input.length, S.weight s, 0)
decreasing_by
  all_goals
    simp +zetaDelta only [Prod.lex_def, true_and] at *
    omega
/-- Reads the members `ms` of record `r` in order, `olds` holding their old values. -/
def decodeMembers (r : ι) (ms : List { m // m ∈ (S.descriptor r).members }) (olds : List Value)
    (input : List UInt8) : DecodedList :=
  match ms with
  | [] => ⟨olds, input, none⟩
  | ⟨m, hm⟩ :: ms =>
    have := S.weight_le_rank hm
    let old := olds.headD (S.default m.shape)
    let o := decode m.shape old input
    match o.fault with
    | some f => ⟨o.value :: olds.tail, o.rest, some f⟩
    | none =>
      if _ : o.rest.length ≤ input.length then
        let tail := decodeMembers r ms olds.tail o.rest
        ⟨o.value :: tail.values, tail.rest, tail.fault⟩
      else ⟨o.value :: olds.tail, o.rest, none⟩
termination_by (input.length, S.rank r, ms.length)
decreasing_by
  all_goals
    simp +zetaDelta only [Prod.lex_def, true_and, List.length_cons] at *
    omega
/-- Reads `n` elements of shape `e` and inserts each, by the rule of `k`, into `acc`. -/
def decodeItems (k : CollectionKind) (e : Shape ι) (n : Nat) (acc : List Value)
    (input : List UInt8) : DecodedList :=
  match n with
  | 0 => ⟨acc, input, none⟩
  | n + 1 =>
    let o := decode e (S.default e) input
    match o.fault with
    | some f => ⟨acc, o.rest, some f⟩
    | none =>
      if _ : o.rest.length ≤ input.length then decodeItems k e n (k.insert acc o.value) o.rest
      else ⟨acc, o.rest, none⟩
termination_by (input.length, S.weight e + 1, n)
decreasing_by
  all_goals
    simp +zetaDelta only [Prod.lex_def, true_and] at *
    omega
end

end Schema

end RecordWire

namespace RecordWire

namespace ByteStream

variable {σ : Type} [ByteStream σ]

/-- Writes what an encoder emitted, in one write (none when nothing was emitted), and reports
the encoder's failure after it; a refused write is the failure instead. -/
def emit (s : σ) (out : Emitted) : σ × Option CodecError :=
  if out.bytes.isEmpty then (s, out.fault)
  else match write s out.bytes.toByteArray with
    | .ok s => (s, out.fault)
    | .error e => (s, some (.stream e))

end ByteStream

namespace Schema

variable {ι : Type} (S : Schema ι)

/-- Reads a value of shape `s` into `old` from a stream's unread bytes, and moves the stream
past what was consumed. -/
def decodeFrom {σ : Type} [ByteStream σ] (s : Shape ι) (old : Value) (st : σ) : Decoded × σ :=
  let input := (ByteStream.unread st).data.toList
  let o := S.decode s old input
  (o, ByteStream.advance st (input.length - o.rest.length))

/-- Reads one value of shape `s` that must fill `bytes` exactly. -/
def decodeWhole (s : Shape ι) (bytes : List UInt8) : Except CodecError Value :=
  let o := S.decode s (S.default s) bytes
  match o.fault with
  | some e => .error e
  | none => if o.rest.isEmpty then .ok o.value else .error (.trailingBytes o.rest.length)

end Schema

end RecordWire
