import Mathlib
import RecordWire.Proofs.DispatchMap
import RecordWire.Chat.Demo
/-!
# Delivering messages in order

A pump reads framed messages one after another and hands each to the handler under its code.
This file shows that it does so exactly once per message, in order.

* Reading never gives back bytes it was not given: every binary read leaves a suffix of its
  input, whether it succeeds or fails (`Schema.decode_rest_suffix`), so a message that decodes
  takes at least its four code bytes (`decode_eq_ok`) and the pump's loop always moves on.
* Over bytes that decode, message after message, into `ms` and then leave `tail`
  (`Decodes`), the pump runs the handlers of `ms` in order, skipping the messages whose code
  has no handler, and then carries on with `tail` (`go_decodes`), provided every handler
  expects the type of its code, as in every table built over the protocol.
* Framed values decode into their own messages (`decodes_frames`).

For the chat demonstration (`delivery_in_order`): the pump over framed chat messages runs the
handler of each message that has one, in order, and answers how many ran; over any bytes, it
runs the handlers of the messages before the first that fails to decode, and answers that
failure.
-/

namespace RecordWire

/-! ### Reading moves forward -/

namespace ScalarType

section Take

variable {n : Nat} {input : List UInt8} {c : CodecError}
  {f : List UInt8 × List UInt8 → Value × List UInt8}

/-- A fixed-width read that succeeds leaves the input after its width... -/
theorem rest_of_map_take_ok (hf : ∀ x, (f x).2 = x.2) {v : Value} {rest : List UInt8}
    (h : Except.map f (if n ≤ input.length then .ok (input.take n, input.drop n)
      else .error (c, input)) = .ok (v, rest)) : rest = input.drop n := by
  split_ifs at h
  · simp only [Except.map, Except.ok.injEq] at h
    have hrest := hf (input.take n, input.drop n)
    rw [h] at hrest
    exact hrest
  · simp [Except.map] at h

/-- ... and one that fails is the take's own refusal, and leaves all of it. -/
theorem map_take_error {e : CodecError} {rest : List UInt8}
    (h : Except.map f (if n ≤ input.length then .ok (input.take n, input.drop n)
      else .error (c, input)) = .error (e, rest)) : e = c ∧ rest = input := by
  split_ifs at h
  · simp [Except.map] at h
  · simp only [Except.map, Except.error.injEq, Prod.mk.injEq] at h
    exact ⟨h.1.symm, h.2.symm⟩

end Take

theorem decodeBinary_ok_suffix (t : ScalarType) (input : List UInt8) {v : Value}
    {rest : List UInt8} (h : t.decodeBinary input = .ok (v, rest)) : rest <:+ input := by
  cases t <;> simp only [decodeBinary, floatFormat?, intBits?] at h
  case string =>
    simp only [bind, Except.bind, throw, throwThe, MonadExceptOf.throw, pure, Except.pure] at h
    split_ifs at h
    dsimp only at h
    split_ifs at h
    split at h
    · -- the text decoded: what follows its length and its bytes is left
      cases h
      exact (List.drop_suffix _ _).trans (List.drop_suffix _ _)
    · cases h
  all_goals exact (rest_of_map_take_ok (fun _ => rfl) h) ▸ List.drop_suffix _ _

/-- How a scalar read fails: short of its width or of a string's length word, leaving all of its
input; with a string's length over the block limit or past the input, after the length word; or
with a string's bytes that are not UTF-8, after them. -/
theorem decodeBinary_error_cases {t : ScalarType} {input rest : List UInt8} {e : CodecError}
    (h : t.decodeBinary input = .error (e, rest)) :
    (∃ n, e = .stream (.underflow n input.length) ∧ rest = input) ∨
    (∃ n, e = .stream (.blockTooLarge n) ∧ rest = input.drop 4) ∨
    (∃ n, e = .stream (.underflow n (input.length - 4)) ∧ rest = input.drop 4) ∨
    (∃ n, e = .invalidUtf8 ∧ rest = input.drop (4 + n)) := by
  cases t <;> simp only [decodeBinary, floatFormat?, intBits?] at h
  case string =>
    simp only [bind, Except.bind, throw, throwThe, MonadExceptOf.throw, pure, Except.pure] at h
    split_ifs at h
    · dsimp only at h
      split_ifs at h
      · -- the length word asks for more than a block holds
        cases h
        exact .inr (.inl ⟨_, rfl, rfl⟩)
      · -- the length word asks for more than is left
        cases h
        exact .inr (.inr (.inl ⟨_, by rw [List.length_drop], rfl⟩))
      · split at h
        · cases h
        · -- the bytes are no UTF-8
          cases h
          exact .inr (.inr (.inr ⟨_, rfl, by rw [List.drop_drop]⟩))
    · -- no length word
      cases h
      exact .inl ⟨4, rfl, rfl⟩
  all_goals
    obtain ⟨rfl, rfl⟩ := map_take_error h
    exact .inl ⟨_, rfl, rfl⟩

theorem decodeBinary_error_suffix (t : ScalarType) (input : List UInt8) {e : CodecError}
    {rest : List UInt8} (h : t.decodeBinary input = .error (e, rest)) : rest <:+ input := by
  rcases decodeBinary_error_cases h with ⟨_, -, rfl⟩ | ⟨_, -, rfl⟩ | ⟨_, -, rfl⟩ | ⟨_, -, rfl⟩
  · exact List.suffix_refl _
  all_goals exact List.drop_suffix _ _

end ScalarType

namespace Schema

variable {ι : Type} (S : Schema ι)

theorem readCount_suffix {input rest : List UInt8} {n : Nat}
    (h : readCount input = some (n, rest)) : rest <:+ input := by
  unfold readCount at h
  split at h
  · cases h
    exact List.drop_suffix _ _
  · cases h

mutual

/-- Reading a value, whether it succeeds or fails, leaves a suffix of its input. -/
theorem decode_rest_suffix (s : Shape ι) (old : Value) (input : List UInt8) :
    (S.decode s old input).rest <:+ input := by
  rw [decode.eq_def]
  cases s with
  | scalar t =>
    dsimp only
    split
    · next h => exact ScalarType.decodeBinary_ok_suffix t input h
    · next h => exact ScalarType.decodeBinary_error_suffix t input h
  | record r =>
    have : S.rank r < S.weight (.record r) := Nat.lt_succ_self _
    exact decodeMembers_rest_suffix r _ _ input
  | collection k e =>
    dsimp only
    split
    · exact List.suffix_refl _
    · next n rest h =>
      have := readCount_rest_lt h
      exact (decodeItems_rest_suffix k e n [] rest).trans (readCount_suffix h)
termination_by (input.length, S.weight s, 0)
decreasing_by
  all_goals
    simp +zetaDelta only [Prod.lex_def, true_and] at *
    omega

theorem decodeMembers_rest_suffix (r : ι) (ms : List { m // m ∈ (S.descriptor r).members })
    (olds : List Value) (input : List UInt8) :
    (S.decodeMembers r ms olds input).rest <:+ input := by
  rw [decodeMembers.eq_def]
  cases ms with
  | nil => exact List.suffix_refl _
  | cons m ms =>
    obtain ⟨m, hm⟩ := m
    have := S.weight_le_rank hm
    have hfirst := decode_rest_suffix m.shape (olds.headD (S.default m.shape)) input
    dsimp only
    split
    · exact hfirst
    · split
      · exact (decodeMembers_rest_suffix r ms olds.tail _).trans hfirst
      · exact hfirst
termination_by (input.length, S.rank r, ms.length)
decreasing_by
  all_goals
    simp +zetaDelta only [Prod.lex_def, true_and, List.length_cons] at *
    omega

theorem decodeItems_rest_suffix (k : CollectionKind) (e : Shape ι) (n : Nat) (acc : List Value)
    (input : List UInt8) : (S.decodeItems k e n acc input).rest <:+ input := by
  rw [decodeItems.eq_def]
  cases n with
  | zero => exact List.suffix_refl _
  | succ n =>
    have hfirst := decode_rest_suffix e (S.default e) input
    dsimp only
    split
    · exact hfirst
    · split
      · exact (decodeItems_rest_suffix k e n _ _).trans hfirst
      · exact hfirst
termination_by (input.length, S.weight e + 1, n)
decreasing_by
  all_goals
    simp +zetaDelta only [Prod.lex_def, true_and] at *
    omega

end

end Schema

namespace Protocol

variable {ι η σ : Type} [DecidableEq ι] {S : Schema ι} {p : Protocol ι} {maxSize : Nat}

/-! ### One message -/

theorem readCount_length {input rest : List UInt8} {n : Nat}
    (h : Schema.readCount input = some (n, rest)) : rest.length + 4 = input.length := by
  unfold Schema.readCount at h
  split at h
  · cases h
    simp only [List.length_drop]
    omega
  · cases h

omit [DecidableEq ι] in
/-- A message that decodes takes at least its four code bytes, and its value is of the type
registered under its code. -/
theorem decode_eq_ok {bytes rest : List UInt8} {m : Message ι}
    (h : p.decode S maxSize bytes = (.ok m, rest)) :
    rest.length + 4 ≤ bytes.length ∧
      ∃ r, p.typeFor m.code = .ok r ∧ m.value.shape = .record r := by
  unfold decode at h
  split at h
  · cases h
  · next c payload hcount =>
    have hcode := readCount_length hcount
    split at h
    · cases h
    · next r hr =>
      dsimp only at h
      split_ifs at h
      · cases h
      split at h
      · cases h
      · cases h
        have hread :=
          (Schema.decode_rest_suffix S (.record r) (S.default (.record r)) payload).length_le
        exact ⟨by omega, r, hr, rfl⟩

/-! ### Handing a message over -/

section Dispatch

variable {t : DispatchTable ι η} {m : Message ι}

theorem dispatchMessage_of_get? {r : ι} {h : Handler ι η}
    (ht : ∀ c h, t.get? c = some h → p.typeFor c = .ok h.expects)
    (hr : p.typeFor m.code = .ok r) (hm : m.value.shape = .record r)
    (hg : t.get? m.code = some h) : t.dispatchMessage S m = .ok h.run := by
  have hexp : h.expects = r := by
    have := ht _ _ hg
    rw [hr] at this
    exact (Except.ok.inj this).symm
  simp [DispatchTable.dispatchMessage, DispatchTable.dispatch, hg, hm, hexp]

theorem dispatchMessage_of_get?_none (hg : t.get? m.code = none) :
    t.dispatchMessage S m = .error (.unregisteredHandler m.code) := by
  simp [DispatchTable.dispatchMessage, DispatchTable.dispatch, hg]

end Dispatch

/-! ### The pump, one message at a time -/

section Pump

variable (S p) (t : DispatchTable ι η) (run : σ → η → AnyValue ι → σ) (maxSize)

/-- The handler runs a table makes for messages, in order: the handler under each message's
code, where there is one, with the message's value. -/
def runsFor (t : DispatchTable ι η) (ms : List (Message ι)) : List (η × AnyValue ι) :=
  ms.filterMap fun m => (t.get? m.code).map fun h => (h.run, m.value)

/-- `bytes` decode, one message after another, into `ms`, and leave `tail`. -/
inductive Decodes : List UInt8 → List (Message ι) → List UInt8 → Prop
  | stop (tail : List UInt8) : Decodes tail [] tail
  | next {bytes rest tail : List UInt8} {m : Message ι} {ms : List (Message ι)} :
      p.decode S maxSize bytes = (.ok m, rest) → Decodes rest ms tail →
        Decodes bytes (m :: ms) tail

variable {S p t run maxSize} {state : σ} {k : Nat}

theorem go_nil : pump.go S p t run maxSize state k [] = (state, .ok k) := by
  simp [pump.go]

theorem go_of_error {bytes rest : List UInt8} {e : ProtocolError} (hne : bytes ≠ [])
    (h : p.decode S maxSize bytes = (.error e, rest)) :
    pump.go S p t run maxSize state k bytes = (state, .error e) := by
  rw [pump.go]
  simp [hne, h]

omit [DecidableEq ι] in
theorem ne_nil_of_decode {bytes rest : List UInt8} {m : Message ι}
    (h : p.decode S maxSize bytes = (.ok m, rest)) : bytes ≠ [] := by
  rintro rfl
  simpa using (decode_eq_ok h).1

theorem go_of_handled {bytes rest : List UInt8} {m : Message ι} {x : η}
    (h : p.decode S maxSize bytes = (.ok m, rest)) (hd : t.dispatchMessage S m = .ok x) :
    pump.go S p t run maxSize state k bytes =
      pump.go S p t run maxSize (run state x m.value) (k + 1) rest := by
  rw [pump.go]
  simp only [ne_nil_of_decode h, List.isEmpty_iff, if_false, h]
  rw [dif_pos (by have := (decode_eq_ok h).1; omega), hd]

theorem go_of_unhandled {bytes rest : List UInt8} {m : Message ι}
    (h : p.decode S maxSize bytes = (.ok m, rest))
    (hd : t.dispatchMessage S m = .error (.unregisteredHandler m.code)) :
    pump.go S p t run maxSize state k bytes = pump.go S p t run maxSize state k rest := by
  rw [pump.go]
  simp only [ne_nil_of_decode h, List.isEmpty_iff, if_false, h]
  rw [dif_pos (by have := (decode_eq_ok h).1; omega), hd]

variable (run) in
/-- The pump over messages that decode one after another: it runs the handlers of those
messages in order, skipping the messages whose code has no handler, and goes on with what is
left, provided each handler expects the type registered under its code. -/
theorem go_decodes (ht : ∀ c h, t.get? c = some h → p.typeFor c = .ok h.expects)
    {bytes tail : List UInt8} {ms : List (Message ι)} (hd : Decodes S p maxSize bytes ms tail)
    (state : σ) (k : Nat) :
    pump.go S p t run maxSize state k bytes =
      pump.go S p t run maxSize ((runsFor t ms).foldl (fun s hv => run s hv.1 hv.2) state)
        (k + (runsFor t ms).length) tail := by
  induction hd generalizing state k with
  | stop => simp [runsFor]
  | @next bytes rest tail m ms hdec _ ih =>
    obtain ⟨-, r, hr, hm⟩ := decode_eq_ok hdec
    -- the first message goes to its handler, if its code has one
    cases hg : t.get? m.code with
    | none =>
      rw [go_of_unhandled hdec (dispatchMessage_of_get?_none hg), ih]
      simp [runsFor, hg]
    | some h =>
      rw [go_of_handled hdec (dispatchMessage_of_get? ht hr hm hg), ih]
      simp [runsFor, hg, Nat.add_assoc, Nat.add_comm 1]

end Pump

/-! ### Framed values -/

/-- Framed values of registered types that fit, one after another, decode into their messages
and leave whatever followed them. -/
theorem decodes_frames (hp : p.Reachable S) (hsmall : p.size < 2 ^ 32) (vs : List (ι × Value × Nat))
    (hvs : ∀ m ∈ vs, p.code S m.1 = .ok m.2.2 ∧ S.Typed (.record m.1) m.2.1 ∧
      S.WithinLimits (.record m.1) m.2.1 ∧ (S.descriptor m.1).size ≤ maxSize)
    (tail : List UInt8) :
    Decodes S p maxSize ((vs.flatMap fun m => (p.encode S ⟨.record m.1, m.2.1⟩).1) ++ tail)
      (vs.map fun m => ⟨m.2.2, (S.descriptor m.1).name, ⟨.record m.1, m.2.1⟩⟩) tail := by
  induction vs with
  | nil => exact .stop tail
  | cons m vs ih =>
    obtain ⟨hc, hv, hlim, hroom⟩ := hvs m List.mem_cons_self
    have hdec := decode_encode hp hsmall (hp.registers.mem_of_code hc) hv hlim hroom
      ((vs.flatMap fun m => (p.encode S ⟨.record m.1, m.2.1⟩).1) ++ tail)
    rw [hc] at hdec
    rw [List.flatMap_cons, List.append_assoc, List.map_cons]
    exact .next hdec (ih fun m' hm' => hvs m' (List.mem_cons_of_mem m hm'))

omit [DecidableEq ι] in
variable (S p maxSize) in
/-- Any bytes decode into messages up to their end or to the first message that fails. -/
theorem exists_decodes (bytes : List UInt8) :
    ∃ ms tail, Decodes S p maxSize bytes ms tail ∧
      (tail = [] ∨ tail ≠ [] ∧ ∃ e rest, p.decode S maxSize tail = (.error e, rest)) := by
  -- each message that decodes leaves fewer bytes
  induction hn : bytes.length using Nat.strong_induction_on generalizing bytes with
  | _ n ih =>
    by_cases hnil : bytes = []
    · exact ⟨[], bytes, .stop bytes, .inl hnil⟩
    · rcases hdec : p.decode S maxSize bytes with ⟨_ | m, rest⟩
      · exact ⟨[], bytes, .stop bytes, .inr ⟨hnil, _, _, hdec⟩⟩
      · have hshort : rest.length < n := by
          have := (decode_eq_ok hdec).1
          omega
        obtain ⟨ms, tail, hd, htail⟩ := ih _ hshort rest rfl
        exact ⟨m :: ms, tail, .next hdec hd, htail⟩

/-- The pump over any bytes runs the handlers of the messages that decode before the end or
before the first message that fails, in order, and then answers how many ran, or that
failure. -/
theorem pump_outcome {t : DispatchTable ι η}
    (ht : ∀ c h, t.get? c = some h → p.typeFor c = .ok h.expects)
    (run : σ → η → AnyValue ι → σ) (state : σ) (wire : List UInt8) :
    ∃ ms tail, Decodes S p maxSize wire ms tail ∧
      let runs := runsFor t ms
      ((tail = [] ∧
          p.pump S t run maxSize state wire = (runs.foldl (fun s hv => run s hv.1 hv.2) state,
            .ok runs.length)) ∨
        ∃ e rest, tail ≠ [] ∧ p.decode S maxSize tail = (.error e, rest) ∧
          p.pump S t run maxSize state wire = (runs.foldl (fun s hv => run s hv.1 hv.2) state,
            .error e)) := by
  obtain ⟨ms, tail, hd, htail⟩ := exists_decodes S p maxSize wire
  refine ⟨ms, tail, hd, ?_⟩
  have hrun := go_decodes run ht hd state 0
  rw [Nat.zero_add] at hrun
  rcases htail with rfl | ⟨hne, e, rest, hfail⟩
  · exact .inl ⟨rfl, by rw [pump, hrun, go_nil]⟩
  · exact .inr ⟨e, rest, hne, hfail, by rw [pump, hrun, go_of_error hne hfail]⟩

end Protocol

/-! ### The chat demonstration -/

namespace Chat

theorem protocol_reachable : protocol.Reachable catalog := Protocol.chain_reachable catalog "chat" _

theorem protocol_size_lt : protocol.size < 2 ^ 32 := by decide

theorem protocol_fits : ∀ r ∈ protocol.pdus, (catalog.descriptor r).size ≤ pumpLimit := by
  decide

/-- The demonstration's pump delivers every framed message once, in order. Whatever table
installing and removing handlers built over the chat protocol: a message that decodes takes at
least its four code bytes; over framed chat messages, the pump runs, for each message in order,
the handler under its code, when there is one, once on its value, runs no other, and answers
how many ran; and over any bytes it runs the handlers of the messages that decode before the
end or before the first one that fails, in order, and answers how many ran or that failure. -/
theorem delivery_in_order {η σ : Type} {t : DispatchTable RecordName η}
    (ht : t.Built catalog protocol) (run : σ → η → AnyValue RecordName → σ) (state : σ) :
    (∀ wire m rest, protocol.decode catalog pumpLimit wire = (.ok m, rest) →
      rest.length + 4 ≤ wire.length) ∧
    (∀ vs : List (RecordName × Value × Nat),
      (∀ m ∈ vs, protocol.code catalog m.1 = .ok m.2.2 ∧ catalog.Typed (.record m.1) m.2.1 ∧
        catalog.WithinLimits (.record m.1) m.2.1) →
      let runs := vs.filterMap fun m =>
        (t.get? m.2.2).map fun h => (h.run, (⟨.record m.1, m.2.1⟩ : AnyValue RecordName))
      protocol.pump catalog t run pumpLimit state
          (vs.flatMap fun m => (protocol.encode catalog ⟨.record m.1, m.2.1⟩).1) =
        (runs.foldl (fun s hv => run s hv.1 hv.2) state, .ok runs.length)) ∧
    ∀ wire, ∃ ms tail, Protocol.Decodes catalog protocol pumpLimit wire ms tail ∧
      let runs := Protocol.runsFor t ms
      ((tail = [] ∧
          protocol.pump catalog t run pumpLimit state wire =
            (runs.foldl (fun s hv => run s hv.1 hv.2) state, .ok runs.length)) ∨
        ∃ e rest, tail ≠ [] ∧ protocol.decode catalog pumpLimit tail = (.error e, rest) ∧
          protocol.pump catalog t run pumpLimit state wire =
            (runs.foldl (fun s hv => run s hv.1 hv.2) state, .error e)) := by
  have hexp := fun c h (hg : t.get? c = some h) => ht.typeFor_expects protocol_reachable hg
  refine ⟨fun wire m rest h => (Protocol.decode_eq_ok h).1, fun vs hvs => ?_,
    Protocol.pump_outcome hexp run state⟩
  -- the frames decode into the values' messages, with nothing left
  have hframes := Protocol.decodes_frames protocol_reachable protocol_size_lt vs
    (fun m hm => have ⟨hc, hv, hlim⟩ := hvs m hm
      ⟨hc, hv, hlim, protocol_fits m.1 (protocol_reachable.registers.mem_of_code hc)⟩) []
  rw [List.append_nil] at hframes
  have hrun := Protocol.go_decodes run hexp hframes state 0
  rw [Protocol.pump, hrun, Protocol.go_nil]
  simp [Protocol.runsFor, List.filterMap_map]

/-- The demonstration's server table is what installing its two handlers builds, and pumping
the client's login and line of talk runs the login handler and then the talk handler, once
each. -/
theorem uplink_delivered :
    serverTable.Built catalog protocol ∧
      protocol.pump catalog serverTable runServer pumpLimit { online := ["Operator"] } demoUplink =
        (runServer (runServer { online := ["Operator"] } .login
            ⟨.record .loginPacket, demoLogin.toValue⟩)
          .say ⟨.record .saySomethingPacket, .record [.str "hello, world"]⟩, .ok 2) := by
  have hlogin : ({} : DispatchTable RecordName ServerHandler).addHandler catalog protocol
      .loginPacket .login = .ok (1, { handlers := [(1, ⟨.loginPacket, .login⟩)] }) := rfl
  have hsay : ({ handlers := [(1, ⟨.loginPacket, .login⟩)] } :
      DispatchTable RecordName ServerHandler).addHandler catalog protocol
      .saySomethingPacket .say = .ok (4, serverTable) := rfl
  have hb : serverTable.Built catalog protocol := .addHandler (.addHandler .empty hlogin) hsay
  have hframes := (delivery_in_order hb runServer { online := ["Operator"] }).2.1
    [(.loginPacket, demoLogin.toValue, 1), (.saySomethingPacket, .record [.str "hello, world"], 4)]
    (by decide)
  exact ⟨hb, hframes⟩

end Chat

end RecordWire
