import RecordWire.Proofs.BinaryRoundTrip
import RecordWire.Proofs.Registration
/-!
# Framed messages

A message on the wire is its type's code as four little-endian bytes, then the binary form of
its value. For a protocol built by registering types one at a time:

* a value of a registered type is written as its code and its binary form, and decoding those
  bytes gives the message back and stops right after them, whatever follows;
* a type larger than the caller allows is refused after the code, before any byte of the value
  is read;
* a code that no type has is refused after its four bytes;
* a value of a type without a code writes nothing;

so decoding framed messages one after another gives them back in order (`decodeMany_frames`).

Registration keeps the two indexes of a protocol inverse (`Reachable.registers`), which is what
makes codes and types correspond one to one: without it, a code could name a type whose own code
is another.
-/

namespace RecordWire

namespace Protocol

variable {ι : Type} (S : Schema ι)

/-- Decodes `n` messages one after another at a stream's cursor: the answers in order, and the
stream after the last. -/
def decodeMany {σ : Type} [ByteStream σ] (p : Protocol ι) (maxSize : Nat) :
    Nat → σ → List (Except ProtocolError (Message ι)) × σ
  | 0, st => ([], st)
  | n + 1, st =>
    let (r, st) := p.decodeFrom S maxSize st
    let (rs, st) := decodeMany p maxSize n st
    (r :: rs, st)

/-! ## Writing a message -/

variable {S}

section Encode

variable [DecidableEq ι] {p : Protocol ι}

/-- A well-typed value within the limits of a registered type is framed as its code and its
binary form. -/
theorem encode_of_code {r : ι} {c : Nat} {v : Value} (hc : p.code S r = .ok c)
    (hv : S.Typed (.record r) v) (hlim : S.WithinLimits (.record r) v) :
    p.encode S ⟨.record r, v⟩ = (leBytes 4 c ++ S.wire (.record r) v, none) := by
  simp [encode, recordOf?, hc, Schema.encode_of_withinLimits hv hlim]

theorem encode_of_unregistered (hp : p.Reachable S) {v : AnyValue ι}
    (h : ∀ r, v.shape = .record r → r ∉ p.pdus) :
    p.encode S v = ([], some (.unregisteredType (S.typeName v.shape))) := by
  obtain ⟨shape, value⟩ := v
  cases shape with
  | record r => simp [encode, recordOf?, hp.registers.code_of_not_mem (h r rfl), Schema.typeName]
  | scalar _ | collection _ _ => rfl

theorem encodeTo_growable (v : AnyValue ι) (st : GrowableStream) :
    (p.encodeTo S v st).2 = (p.encode S v).2 ∧
      (p.encodeTo S v st).1.bytes.data.toList =
        splice st.bytes.data.toList st.pos (p.encode S v).1 ∧
      (p.encodeTo S v st).1.pos = st.pos + (p.encode S v).1.length := by
  unfold encodeTo
  by_cases h : (p.encode S v).1.isEmpty
  · have hnil : (p.encode S v).1 = [] := List.isEmpty_iff.mp h
    simp [hnil]
  · simp only [h, Bool.false_eq_true, if_false]
    refine ⟨rfl, ?_, ?_⟩
    · exact (GrowableStream.bytes_writeBytes st _).trans (by simp)
    · simp [ByteStream.write]

theorem encodeTo_of_unregistered (hp : p.Reachable S) {v : AnyValue ι}
    (h : ∀ r, v.shape = .record r → r ∉ p.pdus) (st : GrowableStream) :
    p.encodeTo S v st = (st, some (.unregisteredType (S.typeName v.shape))) := by
  simp [encodeTo, encode_of_unregistered hp h]

end Encode

/-! ## Reading a message -/

section Decode

variable {p : Protocol ι} {maxSize c : Nat} {r : ι}

/-- A message of a type that fits reads back from its code and its value's binary form, and
reading stops right after them. -/
theorem decode_frame {v : Value} (hc : c < 2 ^ 32) (htype : p.typeFor c = .ok r)
    (hroom : (S.descriptor r).size ≤ maxSize) (hread : S.ReadsBack (.record r) v)
    (rest : List UInt8) :
    p.decode S maxSize (leBytes 4 c ++ S.wire (.record r) v ++ rest) =
      (.ok ⟨c, (S.descriptor r).name, ⟨.record r, v⟩⟩, rest) := by
  have hval := hread (S.default (.record r)) (S.typed_default _) rest
  simp [decode, Schema.readCount_leBytes hc, htype, Nat.not_lt.mpr hroom, hval]

theorem decode_too_large (hc : c < 2 ^ 32) (htype : p.typeFor c = .ok r)
    (hroom : maxSize < (S.descriptor r).size) (rest : List UInt8) :
    p.decode S maxSize (leBytes 4 c ++ rest) =
      (.error (.bufferTooSmall (S.descriptor r).size maxSize), rest) := by
  simp [decode, Schema.readCount_leBytes hc, htype, hroom]

theorem decode_unknown {e : ProtocolError} (hc : c < 2 ^ 32) (htype : p.typeFor c = .error e)
    (rest : List UInt8) : p.decode S maxSize (leBytes 4 c ++ rest) = (.error e, rest) := by
  simp [decode, Schema.readCount_leBytes hc, htype]

theorem decodeFrom_of_decode {g : GrowableStream} {e rest : List UInt8}
    {res : Except ProtocolError (Message ι)}
    (hunread : (ByteStream.unread g).data.toList = e ++ rest)
    (hdec : p.decode S maxSize (e ++ rest) = (res, rest)) :
    p.decodeFrom S maxSize g = (res, { g with pos := g.pos + e.length }) := by
  simp only [decodeFrom, hunread, hdec, List.length_append, Nat.add_sub_cancel]
  rfl

end Decode

/-! ## Messages one after another -/

section Sequence

variable [DecidableEq ι] {p : Protocol ι} {maxSize : Nat}

/-- A value of a registered type that fits, framed and followed by any bytes, reads back as its
message, and reading stops right after its frame. -/
theorem decode_encode {r : ι} {v : Value} (hp : p.Reachable S) (hsmall : p.size < 2 ^ 32)
    (hr : r ∈ p.pdus) (hv : S.Typed (.record r) v) (hlim : S.WithinLimits (.record r) v)
    (hroom : (S.descriptor r).size ≤ maxSize) (rest : List UInt8) :
    p.decode S maxSize ((p.encode S ⟨.record r, v⟩).1 ++ rest) =
      ((p.code S r).map fun c => ⟨c, (S.descriptor r).name, ⟨.record r, v⟩⟩, rest) := by
  have hreg := hp.registers
  have hc := hreg.code_of_mem (S := S) hr
  have hlt : p.pdus.idxOf r + 1 < 2 ^ 32 := Nat.lt_of_le_of_lt (hreg.code_le_size hc) hsmall
  rw [encode_of_code hc hv hlim, hc,
    decode_frame hlt (hreg.typeFor_code hc) hroom (Schema.readsBack_of_typed hv hlim) rest]
  rfl

/-- Framed messages of registered types that fit, one after another, read back in order, and
the cursor ends right after the last. -/
theorem decodeMany_frames (hp : p.Reachable S) (hsmall : p.size < 2 ^ 32) (ms : List (ι × Value))
    (hms : ∀ m ∈ ms, m.1 ∈ p.pdus ∧ S.Typed (.record m.1) m.2 ∧
      S.WithinLimits (.record m.1) m.2 ∧ (S.descriptor m.1).size ≤ maxSize)
    (rest : List UInt8) (g : GrowableStream)
    (hunread : (ByteStream.unread g).data.toList =
      (ms.flatMap fun m => (p.encode S ⟨.record m.1, m.2⟩).1) ++ rest) :
    p.decodeMany S maxSize ms.length g =
      (ms.map fun m => (p.code S m.1).map fun c => ⟨c, (S.descriptor m.1).name, ⟨.record m.1, m.2⟩⟩,
        { g with pos := g.pos + (ms.flatMap fun m => (p.encode S ⟨.record m.1, m.2⟩).1).length }) := by
  -- one frame per message: the first is read and the cursor moves past it
  induction ms generalizing g with
  | nil => simp [decodeMany]
  | cons m ms ih =>
    obtain ⟨hr, hv, hlim, hroom⟩ := hms m List.mem_cons_self
    set e := (p.encode S ⟨.record m.1, m.2⟩).1
    set tail := ms.flatMap fun m => (p.encode S ⟨.record m.1, m.2⟩).1
    have hg : (ByteStream.unread g).data.toList = e ++ (tail ++ rest) := by
      rw [hunread, List.flatMap_cons, List.append_assoc]
    have hfirst :=
      decodeFrom_of_decode hg (decode_encode hp hsmall hr hv hlim hroom (tail ++ rest))
    have hnext := ih (fun m' hm' => hms m' (List.mem_cons_of_mem m hm'))
      { g with pos := g.pos + e.length } (GrowableStream.unread_skip hg)
    simp only [List.length_cons, decodeMany, hfirst, hnext, List.map_cons, List.flatMap_cons,
      List.length_append, Nat.add_assoc]
    rfl

end Sequence

/-! ## Protocols over the catalog -/

/-- A protocol over the catalog registers each of its record types at most once, so its codes
fit four bytes. -/
theorem Reachable.size_le_catalog {p : Protocol RecordName} (hp : p.Reachable catalog) :
    p.size ≤ RecordName.all.length := by
  have hsub : p.pdus ⊆ RecordName.all := fun r _ => by cases r <;> decide
  rw [hp.registers.size_eq]
  exact (List.Nodup.subperm hp.registers.nodup hsub).length_le

/-- Framing over the catalog, for a protocol built by registration. A well-typed value within
the limits of a registered type is written as its code and then its binary form, and reads back
as its message with the cursor right after it when its type fits; a type that does not fit is
refused after its code; a code that no type has is refused after its four bytes; a value of a
type without a code writes nothing; and framed messages read back one after another, in
order. -/
theorem framing_round_trip {p : Protocol RecordName} (hp : p.Reachable catalog) :
    (∀ r ∈ p.pdus, ∀ v, catalog.Typed (.record r) v → catalog.WithinLimits (.record r) v →
      ∃ c, p.code catalog r = .ok c ∧
        catalog.encode (.record r) v = ⟨catalog.wire (.record r) v, none⟩ ∧
        p.encode catalog ⟨.record r, v⟩ = (leBytes 4 c ++ catalog.wire (.record r) v, none) ∧
        (∀ st : GrowableStream,
          (p.encodeTo catalog ⟨.record r, v⟩ st).2 = none ∧
          (p.encodeTo catalog ⟨.record r, v⟩ st).1.bytes.data.toList =
            splice st.bytes.data.toList st.pos (leBytes 4 c ++ catalog.wire (.record r) v) ∧
          (p.encodeTo catalog ⟨.record r, v⟩ st).1.pos =
            st.pos + (4 + (catalog.wire (.record r) v).length)) ∧
        ∀ maxSize rest (g : GrowableStream),
          ((ByteStream.unread g).data.toList = leBytes 4 c ++ catalog.wire (.record r) v ++ rest →
            (catalog.descriptor r).size ≤ maxSize →
            p.decodeFrom catalog maxSize g =
              (.ok ⟨c, (catalog.descriptor r).name, ⟨.record r, v⟩⟩,
                { g with pos := g.pos + (4 + (catalog.wire (.record r) v).length) })) ∧
          ((ByteStream.unread g).data.toList = leBytes 4 c ++ rest →
            maxSize < (catalog.descriptor r).size →
            p.decodeFrom catalog maxSize g =
              (.error (.bufferTooSmall (catalog.descriptor r).size maxSize),
                { g with pos := g.pos + 4 }))) ∧
    (∀ c < 2 ^ 32, (∀ r, p.code catalog r ≠ .ok c) → ∀ maxSize rest (g : GrowableStream),
      (ByteStream.unread g).data.toList = leBytes 4 c ++ rest →
      p.decodeFrom catalog maxSize g = (.error (.unknownCode c), { g with pos := g.pos + 4 })) ∧
    (∀ v : AnyValue RecordName, (∀ r, v.shape = .record r → r ∉ p.pdus) →
      ∀ st : GrowableStream,
        p.encodeTo catalog v st = (st, some (.unregisteredType (catalog.typeName v.shape)))) ∧
    (∀ maxSize (ms : List (RecordName × Value)),
      (∀ m ∈ ms, m.1 ∈ p.pdus ∧ catalog.Typed (.record m.1) m.2 ∧
        catalog.WithinLimits (.record m.1) m.2 ∧ (catalog.descriptor m.1).size ≤ maxSize) →
      ∀ rest (g : GrowableStream),
        (ByteStream.unread g).data.toList =
          (ms.flatMap fun m => (p.encode catalog ⟨.record m.1, m.2⟩).1) ++ rest →
        p.decodeMany catalog maxSize ms.length g =
          (ms.map fun m => (p.code catalog m.1).map fun c =>
              ⟨c, (catalog.descriptor m.1).name, ⟨.record m.1, m.2⟩⟩,
            { g with pos := g.pos +
                (ms.flatMap fun m => (p.encode catalog ⟨.record m.1, m.2⟩).1).length })) := by
  have hsmall : p.size < 2 ^ 32 := Nat.lt_of_le_of_lt hp.size_le_catalog (by decide)
  have hreg := hp.registers
  refine ⟨?registered, ?unknown, fun v hv st => encodeTo_of_unregistered hp hv st,
    fun maxSize ms hms rest g hg => decodeMany_frames hp hsmall ms hms rest g hg⟩
  case registered =>
    intro r hr v hv hlim
    have hc := hreg.code_of_mem (S := catalog) hr
    have hlt : p.pdus.idxOf r + 1 < 2 ^ 32 := Nat.lt_of_le_of_lt (hreg.code_le_size hc) hsmall
    have hframe := encode_of_code hc hv hlim
    refine ⟨_, hc, Schema.encode_of_withinLimits hv hlim, hframe, fun st => ?_,
      fun maxSize rest g => ⟨fun hg hroom => ?_, fun hg hroom => ?_⟩⟩
    · obtain ⟨hfault, hbytes, hpos⟩ := encodeTo_growable (S := catalog) (p := p) ⟨.record r, v⟩ st
      rw [hframe] at hfault hbytes hpos
      exact ⟨hfault, hbytes, by simpa using hpos⟩
    · have hread := Schema.readsBack_of_typed hv hlim
      simpa using decodeFrom_of_decode hg (decode_frame hlt (hreg.typeFor_code hc) hroom hread rest)
    · simpa using decodeFrom_of_decode hg (decode_too_large hlt (hreg.typeFor_code hc) hroom rest)
  case unknown =>
    intro c hc hnot maxSize rest g hg
    simpa using decodeFrom_of_decode hg (decode_unknown hc (hreg.typeFor_of_not_code hnot) rest)

/-- The chat protocol's two types, registered in turn: a `Chat` message is written as the code
2 and its binary form. -/
theorem chat_frame_written :
    let p : Protocol RecordName := (Protocol.chain catalog "chat" [.ping, .chat]).protocol
    let v : Value := .record [.str "jon", .str "hi"]
    p.Reachable catalog ∧ catalog.Typed (.record .chat) v ∧ catalog.WithinLimits (.record .chat) v ∧
      (p.encodeTo catalog ⟨.record .chat, v⟩ (GrowableStream.withConfig {})).2 = none ∧
      (p.encodeTo catalog ⟨.record .chat, v⟩ (GrowableStream.withConfig {})).1.bytes.data.toList =
        [2, 0, 0, 0] ++ catalog.wire (.record .chat) v := by
  intro p v
  have hp : p.Reachable catalog := chain_reachable catalog "chat" [.ping, .chat]
  have hv : catalog.Typed (.record .chat) v := by decide
  have hlim : catalog.WithinLimits (.record .chat) v := by decide
  obtain ⟨c, hc, -, -, hwrite, -⟩ := (framing_round_trip hp).1 .chat (by decide) v hv hlim
  have hc2 : c = 2 := by
    have h2 : p.code catalog .chat = .ok 2 := rfl
    rw [h2] at hc
    cases hc
    rfl
  obtain ⟨hfault, hbytes, -⟩ := hwrite (GrowableStream.withConfig {})
  refine ⟨hp, hv, hlim, hfault, ?_⟩
  rw [hbytes, hc2]
  simp [splice, GrowableStream.withConfig, GrowableStream.bytes_data_toList]
  rfl

end Protocol

end RecordWire
