import Mathlib
import RecordWire.Proofs.Sets
/-!
# Canonical binary forms

Reading a binary form forgets three things, and nothing else: a boolean byte other than zero
reads as `true` whatever it was, a set holds its elements once and in ascending order whatever
order and repeats the form gave them, and an entry of zero reads although it cannot be written.
Writing the value read gives the bytes read back exactly when none of the three happened.

A form is described by its spelling (`Schema.Spelled`): the value as the form spells it, with
each boolean as its byte and each collection as its elements in the order they came. Every read
that succeeds has read one spelling, and no bytes spell two (`spelled_of_decode`,
`Spelled.eq_of_wire_append`); the value read is the spelling settled (`Schema.settle`). A
spelling is canonical when its boolean bytes are zero or one, its sets ascend, and its entries
are not zero, and writing the value read reproduces the bytes exactly for the canonical ones
(`encode_reproduces_iff_canonical`).
-/

namespace RecordWire

/-! ## Words read back -/

theorem leBytes_ofLeBytes (bs : List UInt8) : leBytes bs.length (ofLeBytes bs) = bs := by
  induction bs with
  | nil => rfl
  | cons b bs ih =>
    have hb := b.toNat_lt
    have hlow : (b.toNat + 256 * ofLeBytes bs) % 256 = b.toNat := by omega
    have hhigh : (b.toNat + 256 * ofLeBytes bs) / 256 = ofLeBytes bs := by omega
    rw [List.length_cons, leBytes, ofLeBytes, hlow, hhigh, ih, UInt8.ofNat_toNat]

theorem wordOfSigned_signedOfWord {bits w : Nat} (hw : w < 2 ^ bits) :
    wordOfSigned bits (signedOfWord bits w) = w := by
  have hcast : ((2 ^ bits : Nat) : Int) = (2 : Int) ^ bits := Int.natCast_pow 2 bits
  unfold signedOfWord wordOfSigned
  simp only [int_pow_eq_pow]
  split
  · rw [Int.emod_eq_of_lt (by omega) (by omega)]
    simp
  · -- the negative number is the word less `2 ^ bits`, which the remainder adds back
    rw [Int.sub_emod, Int.emod_self, Int.sub_zero, Int.emod_emod_of_dvd _ (dvd_refl _),
      Int.emod_eq_of_lt (by omega) (by omega)]
    simp

theorem signedOfWord_mem {bits w : Nat} (hb : 0 < bits) (hw : w < 2 ^ bits) :
    -2 ^ (bits - 1) ≤ signedOfWord bits w ∧ signedOfWord bits w < 2 ^ (bits - 1) := by
  obtain ⟨k, rfl⟩ : ∃ k, bits = k + 1 := ⟨bits - 1, by omega⟩
  have hpow : (2 : Nat) ^ (k + 1) = 2 * 2 ^ k := by rw [Nat.pow_succ]; omega
  have hcast : ((2 ^ k : Nat) : Int) = (2 : Int) ^ k := Int.natCast_pow 2 k
  have hcast' : ((2 ^ (k + 1) : Nat) : Int) = (2 : Int) ^ (k + 1) := Int.natCast_pow 2 (k + 1)
  simp only [signedOfWord, Nat.add_sub_cancel, Nat.pow_eq, int_pow_eq_pow]
  split <;> constructor <;> omega

/-! ## Spellings -/

namespace ScalarType

/-- What the decoder makes of a spelled scalar: a boolean byte is `true` unless it is zero, and
every other scalar is itself. -/
def settle : ScalarType → Value → Value
  | .bool, .int n => .bool (n != 0)
  | _, u => u

theorem settle_of_ne_bool {t : ScalarType} (h : t ≠ .bool) (u : Value) : t.settle u = u := by
  cases t <;> first | rfl | exact absurd rfl h

/-- How a scalar is spelled: a boolean as the byte written for it, every other scalar as
itself. -/
def spell : ScalarType → Value → Value
  | .bool, .bool b => .int (if b then 1 else 0)
  | _, v => v

theorem spell_of_ne_bool {t : ScalarType} (h : t ≠ .bool) (v : Value) : t.spell v = v := by
  cases t <;> first | rfl | exact absurd rfl h

theorem wire_bool_int {n : Int} (h0 : 0 ≤ n) (h1 : n < 256) :
    ScalarType.bool.wire (.int n) = [UInt8.ofNat n.toNat] := by
  have hword : wordOfSigned 8 n = n.toNat := wordOfSigned_of_lt h0 (by simpa using h1)
  simp only [wire, size, leBytes, hword]
  rw [Nat.mod_eq_of_lt (by omega)]

theorem eq_bool_of_admits {v : Value} (h : ScalarType.bool.admits v = true) :
    ∃ b, v = .bool b := by
  cases v <;> simp_all [admits, intBits?, floatFormat?]

theorem eq_str_of_admits {v : Value} (h : ScalarType.string.admits v = true) :
    ∃ s, v = .str s := by
  cases v <;> simp_all [admits, intBits?, floatFormat?]

theorem eq_int_of_admits_entry {v : Value} (h : ScalarType.entry.admits v = true) :
    ∃ n, v = .int n := by
  cases v <;> simp_all [admits, intBits?, floatFormat?]

/-- A number that fits its type reads back from its form, whatever follows. -/
theorem decodeBinary_number {t : ScalarType} {u : Value} (hb : t ≠ .bool) (hs : t ≠ .string)
    (h : t.admits u = true) (rest : List UInt8) :
    t.decodeBinary (t.wire u ++ rest) = .ok (u, rest) := by
  cases u with
  | int n => exact decodeBinary_int h rest
  | float bits => exact decodeBinary_float h rest
  | bool _ => exact absurd (by simpa [admits] using h) hb
  | str _ => exact absurd (by simpa [admits] using h) hs
  | record _ | items _ => simp [admits] at h

end ScalarType

namespace Schema

variable {ι : Type} (S : Schema ι)

/-- A spelling of a binary form of shape `s`: the value as the form spells it, before the
decoder settles it. It is a value of the shape but for two things: a boolean is the byte it was
read from, and a collection of either kind lists its elements in the order and number they
came in. A string is at most a block long and a collection has fewer than `2 ^ 32` elements, as
a form holds them. -/
inductive Spelled : Shape ι → Value → Prop
  | bool {n : Int} : 0 ≤ n → n < 256 → Spelled (.scalar .bool) (.int n)
  | string {s : String} : (utf8Bytes s).length ≤ maxBlockSize →
      Spelled (.scalar .string) (.str s)
  | number {t : ScalarType} {u : Value} : t ≠ .bool → t ≠ .string → t.admits u = true →
      Spelled (.scalar t) u
  | record {r : ι} {us : List Value} : us.length = (S.descriptor r).members.length →
      (∀ p ∈ (S.descriptor r).members.zip us, Spelled p.1.shape p.2) →
      Spelled (.record r) (.record us)
  | collection {k : CollectionKind} {e : Shape ι} {us : List Value} :
      (∀ u ∈ us, Spelled e u) → us.length < 2 ^ 32 → Spelled (.collection k e) (.items us)

mutual
/-- The value the decoder makes of a spelling: a boolean byte is `true` unless it is zero, and
a collection holds its elements' values inserted one after another, so that a set holds each
once and in ascending order. -/
def settle : Shape ι → Value → Value
  | .scalar t, u => t.settle u
  | .record r, .record us => .record (settleMembers (S.descriptor r).members us)
  | .collection k e, .items us => .items (k.ofList (settleItems e us))
  | _, u => u
/-- The values the decoder makes of a record's spelled members. -/
def settleMembers : List (Member ι) → List Value → List Value
  | m :: ms, u :: us => settle m.shape u :: settleMembers ms us
  | _, _ => []
/-- The values the decoder makes of a collection's spelled elements, in the order they came. -/
def settleItems (e : Shape ι) : List Value → List Value
  | u :: us => settle e u :: settleItems e us
  | [] => []
end

mutual
/-- The spelling of a value's binary form: each boolean as the byte written for it. -/
def spell : Shape ι → Value → Value
  | .scalar t, v => t.spell v
  | .record r, .record vs => .record (spellMembers (S.descriptor r).members vs)
  | .collection _ e, .items vs => .items (spellItems e vs)
  | _, v => v
/-- The spellings of a record's members. -/
def spellMembers : List (Member ι) → List Value → List Value
  | m :: ms, v :: vs => spell m.shape v :: spellMembers ms vs
  | _, _ => []
/-- The spellings of a collection's elements. -/
def spellItems (e : Shape ι) : List Value → List Value
  | v :: vs => spell e v :: spellItems e vs
  | [] => []
end

/-- A canonical spelling: every boolean byte is zero or one, every set lists the values of its
elements in strictly ascending order, and no entry is zero. These are what the decoder forgets
or the encoder refuses. -/
inductive Canonical : Shape ι → Value → Prop
  | bool {n : Int} : n = 0 ∨ n = 1 → Canonical (.scalar .bool) (.int n)
  | entry {n : Int} : n ≠ 0 → Canonical (.scalar .entry) (.int n)
  | scalar {t : ScalarType} {u : Value} : t ≠ .bool → t ≠ .entry → Canonical (.scalar t) u
  | record {r : ι} {us : List Value} :
      (∀ p ∈ (S.descriptor r).members.zip us, Canonical p.1.shape p.2) →
      Canonical (.record r) (.record us)
  | collection {k : CollectionKind} {e : Shape ι} {us : List Value} :
      (∀ u ∈ us, Canonical e u) →
      (k.isSet = true → (S.settleItems e us).Pairwise fun a b => Value.compare a b = .lt) →
      Canonical (.collection k e) (.items us)

theorem settleItems_eq_map (e : Shape ι) (us : List Value) :
    S.settleItems e us = us.map (S.settle e) := by
  induction us with
  | nil => rfl
  | cons u us ih => rw [settleItems, ih, List.map_cons]

theorem spellItems_eq_map (e : Shape ι) (vs : List Value) :
    S.spellItems e vs = vs.map (S.spell e) := by
  induction vs with
  | nil => rfl
  | cons v vs ih => rw [spellItems, ih, List.map_cons]

variable {S}

theorem Typed.record_of_forall₂ {r : ι} {vs : List Value}
    (h : List.Forall₂ (fun m v => S.Typed m.shape v) (S.descriptor r).members vs) :
    S.Typed (.record r) (.record vs) :=
  .record h.length_eq.symm fun _ hp => (List.forall₂_iff_zip.mp h).2 hp

theorem Spelled.record_of_forall₂ {r : ι} {us : List Value}
    (h : List.Forall₂ (fun m u => S.Spelled m.shape u) (S.descriptor r).members us) :
    S.Spelled (.record r) (.record us) :=
  .record h.length_eq.symm fun _ hp => (List.forall₂_iff_zip.mp h).2 hp

end Schema

/-! ## Scalars read -/

namespace ScalarType

variable {ι : Type} (S : Schema ι)

/-- The decoder's way of taking `n` bytes succeeds only on input that starts with `n` bytes. -/
theorem eq_append_of_map_take {α : Type} {f : List UInt8 × List UInt8 → α} {n : Nat}
    {input : List UInt8} {c : CodecError × List UInt8} {a : α}
    (h : Except.map f (if n ≤ input.length then (.ok (input.take n, input.drop n) :
      Except (CodecError × List UInt8) _) else .error c) = .ok a) :
    ∃ bs rest, input = bs ++ rest ∧ bs.length = n ∧ a = f (bs, rest) := by
  split_ifs at h with hn
  · simp only [Except.map, Except.ok.injEq] at h
    exact ⟨_, _, (List.take_append_drop n input).symm, by simp; omega, h.symm⟩
  · simp [Except.map] at h

theorem spelled_of_decodeBinary_bool {input rest : List UInt8} {v : Value}
    (h : ScalarType.bool.decodeBinary input = .ok (v, rest)) :
    ∃ u, S.Spelled (.scalar .bool) u ∧ input = ScalarType.bool.wire u ++ rest ∧
      v = ScalarType.bool.settle u := by
  simp only [decodeBinary] at h
  obtain ⟨bs, rest', rfl, hlen, hv⟩ := eq_append_of_map_take h
  obtain ⟨b, rfl⟩ : ∃ b, bs = [b] := List.length_eq_one_iff.mp hlen
  simp only [Prod.mk.injEq] at hv
  obtain ⟨rfl, rfl⟩ := hv
  have hlt : (b.toNat : Int) < 256 := by have := b.toNat_lt; omega
  refine ⟨.int b.toNat, .bool (by omega) hlt, ?_, ?_⟩
  · rw [wire_bool_int (by omega) hlt, Int.toNat_natCast, UInt8.ofNat_toNat]
  · -- the byte reads as true exactly when it is not zero
    by_cases hz : b = 0
    · subst hz
      rfl
    · have hnat : b.toNat ≠ 0 := fun h0 => hz (UInt8.toNat_inj.mp h0)
      have hread : (some b != some 0) = true := bne_iff_ne.mpr (by simpa using hz)
      have hbyte : ((b.toNat : Int) != 0) = true := bne_iff_ne.mpr (by exact_mod_cast hnat)
      simp only [settle, List.head?_cons, hread, hbyte]

/-- A string read takes a length word and that many bytes of UTF-8: the bytes of the string it
decodes to, so a spelling of it. -/
theorem spelled_of_decodeBinary_string {input rest : List UInt8} {v : Value}
    (h : ScalarType.string.decodeBinary input = .ok (v, rest)) :
    ∃ u, S.Spelled (.scalar .string) u ∧ input = ScalarType.string.wire u ++ rest ∧
      v = ScalarType.string.settle u := by
  simp only [decodeBinary, bind, Except.bind, throw, throwThe, MonadExceptOf.throw, pure,
    Except.pure] at h
  by_cases h4 : 4 ≤ input.length
  · rw [if_pos h4] at h
    dsimp only at h
    split_ifs at h with hbig hshort
    split at h
    · next cs hcs =>
      simp only [Except.ok.injEq, Prod.mk.injEq] at h
      obtain ⟨rfl, rfl⟩ := h
      -- the block's bytes are the string's, and its length word is theirs
      have hbytes := eq_utf8Bytes_of_utf8Decode hcs
      have hlen : (utf8Bytes (String.ofList cs)).length = ofLeBytes (input.take 4) := by
        rw [← hbytes, List.length_take]
        omega
      have hhead : leBytes 4 (ofLeBytes (input.take 4)) = input.take 4 := by
        have h := leBytes_ofLeBytes (input.take 4)
        rwa [List.length_take, min_eq_left h4] at h
      refine ⟨.str (String.ofList cs), .string (by omega), ?_, rfl⟩
      rw [wire, hlen, hhead, ← hbytes, List.append_assoc, List.take_append_drop,
        List.take_append_drop]
    · cases h
  · rw [if_neg h4] at h
    cases h

theorem spelled_of_decodeBinary_float {t : ScalarType} {f : FloatFormat}
    {input rest : List UInt8} {v : Value} (hb : t ≠ .bool) (hs : t ≠ .string)
    (hf : t.floatFormat? = some f) (h : t.decodeBinary input = .ok (v, rest)) :
    ∃ u, S.Spelled (.scalar t) u ∧ input = t.wire u ++ rest ∧ v = t.settle u := by
  rw [decodeBinary.eq_3 t _ hb hs] at h
  simp only [hf] at h
  obtain ⟨-, -, hwidth⟩ := floatFormat_facts hf
  obtain ⟨bs, rest', rfl, hlen, hv⟩ := eq_append_of_map_take h
  simp only [Prod.mk.injEq] at hv
  obtain ⟨rfl, rfl⟩ := hv
  have hsize : bs.length = t.size := by omega
  refine ⟨.float (ofLeBytes bs), .number hb hs ?_, ?_, (settle_of_ne_bool hb _).symm⟩
  · have hlt := ofLeBytes_lt bs
    rw [Nat.pow_eq, hsize, show (256 : Nat) = 2 ^ 8 by rfl, ← Nat.pow_mul, ← hwidth] at hlt
    simpa [admits, hf] using hlt
  · rw [wire, ← hsize, leBytes_ofLeBytes]

theorem spelled_of_decodeBinary_int {t : ScalarType} {signed : Bool} {bits : Nat}
    {input rest : List UInt8} {v : Value} (hb : t ≠ .bool) (hs : t ≠ .string)
    (hf : t.floatFormat? = none) (hi : t.intBits? = some (signed, bits))
    (h : t.decodeBinary input = .ok (v, rest)) :
    ∃ u, S.Spelled (.scalar t) u ∧ input = t.wire u ++ rest ∧ v = t.settle u := by
  rw [decodeBinary.eq_3 t _ hb hs] at h
  simp only [hf, hi] at h
  obtain ⟨-, -, -, hbits, hpos⟩ := intBits_facts hi
  obtain ⟨bs, rest', rfl, hlen, hv⟩ := eq_append_of_map_take h
  simp only [Prod.mk.injEq] at hv
  obtain ⟨rfl, rfl⟩ := hv
  have hsize : bs.length = t.size := by omega
  have hword : ofLeBytes bs < 2 ^ bits := by
    have hlt := ofLeBytes_lt bs
    rwa [Nat.pow_eq, hsize, show (256 : Nat) = 2 ^ 8 by rfl, ← Nat.pow_mul, ← hbits] at hlt
  refine ⟨_, .number hb hs ?_, ?_, (settle_of_ne_bool hb _).symm⟩
  · cases signed
    · have hword' : ((ofLeBytes bs : Nat) : Int) < 2 ^ bits := by exact_mod_cast hword
      simp [admits, inRange, hi, hword']
    · have hmem := signedOfWord_mem hpos hword
      simp [admits, inRange, hi, hmem.1, hmem.2]
  · rw [wire, ← hbits, ← hsize]
    cases signed
    · rw [if_neg Bool.false_ne_true, wordOfSigned_of_lt (by omega) (by exact_mod_cast hword),
        Int.toNat_natCast, leBytes_ofLeBytes]
    · rw [if_pos rfl, wordOfSigned_signedOfWord hword, leBytes_ofLeBytes]

/-- A scalar read that succeeds read a spelling of the type: the bytes it took are the spelling's
form, and the value is what the decoder makes of it. -/
theorem spelled_of_decodeBinary {t : ScalarType} {input rest : List UInt8} {v : Value}
    (h : t.decodeBinary input = .ok (v, rest)) :
    ∃ u, S.Spelled (.scalar t) u ∧ input = t.wire u ++ rest ∧ v = t.settle u := by
  by_cases hb : t = .bool
  · subst hb
    exact spelled_of_decodeBinary_bool S h
  by_cases hs : t = .string
  · subst hs
    exact spelled_of_decodeBinary_string S h
  cases hf : t.floatFormat? with
  | some f => exact spelled_of_decodeBinary_float S hb hs hf h
  | none =>
    cases hi : t.intBits? with
    | some p => exact spelled_of_decodeBinary_int S hb hs hf hi h
    | none => cases t <;> simp_all [floatFormat?, intBits?]
end ScalarType

/-! ## Every read reads a spelling -/

namespace Schema

variable {ι : Type} (S : Schema ι)

/-- A count that reads is the four bytes of a number below `2 ^ 32`. -/
theorem readCount_eq_some {input body : List UInt8} {n : Nat}
    (h : readCount input = some (n, body)) : input = leBytes 4 n ++ body ∧ n < 2 ^ 32 := by
  unfold readCount at h
  split_ifs at h with h4
  simp only [Option.some.injEq, Prod.mk.injEq] at h
  obtain ⟨rfl, rfl⟩ := h
  have hlen : (input.take 4).length = 4 := by simp; omega
  refine ⟨?_, ?_⟩
  · have hbytes := leBytes_ofLeBytes (input.take 4)
    rw [hlen] at hbytes
    rw [hbytes, List.take_append_drop]
  · have hlt := ofLeBytes_lt (input.take 4)
    rw [hlen] at hlt
    simpa using hlt

mutual

/-- A binary read into a well-typed value that succeeds has read a spelling of the shape: the
bytes it consumed are the spelling's form, and the value it gives is the spelling settled. -/
theorem spelled_of_decode (s : Shape ι) (old : Value) (input : List UInt8)
    (hold : S.Typed s old) (hok : (S.decode s old input).fault = none) :
    ∃ u, S.Spelled s u ∧ input = S.wire s u ++ (S.decode s old input).rest ∧
      (S.decode s old input).value = S.settle s u := by
  match s with
  | .scalar t =>
    rw [decode.eq_1] at hok ⊢
    split at hok
    · next v rest hd =>
      obtain ⟨u, hu, hin, hv⟩ := t.spelled_of_decodeBinary S hd
      exact ⟨u, hu, by rwa [wire_scalar], by rw [hv, settle]⟩
    · cases hok
  | .record r =>
    have : S.rank r < S.weight (.record r) := Nat.lt_succ_self _
    obtain ⟨olds, rfl⟩ : ∃ olds, old = .record olds := by cases hold; exact ⟨_, rfl⟩
    rw [decode.eq_2] at hok ⊢
    dsimp only [Value.fields] at hok ⊢
    obtain ⟨us, hus, hin, hvs⟩ := spelled_of_decodeMembers r _ olds input
      (forall₂_attach hold.forall₂_members) hok
    rw [List.attach_map_subtype_val] at hus hin hvs
    refine ⟨.record us, Spelled.record_of_forall₂ hus, ?_, ?_⟩
    · rwa [wire_record]
    · rw [hvs, settle]
  | .collection k e =>
    have hd : S.decode (.collection k e) old input =
        ⟨(S.decode (.collection k e) old input).value,
          (S.decode (.collection k e) old input).rest, none⟩ := by
      rw [← hok]
    obtain ⟨xs, body, hc, hreads, hv⟩ := decode_collection_ok_iff.mp hd
    have := readCount_rest_lt hc
    obtain ⟨hin, hcount⟩ := readCount_eq_some hc
    obtain ⟨us, hus, hbody, hxs⟩ := spelled_of_readsItems e hreads
    have hlen : xs.length = us.length := by rw [hxs, settleItems_eq_map, List.length_map]
    refine ⟨.items us, .collection hus (hlen ▸ hcount), ?_, ?_⟩
    · rw [wire_collection, List.append_assoc, ← hbody, ← hlen]
      exact hin
    · rw [hv, hxs, settle]
termination_by (input.length, S.weight s, 0)
decreasing_by
  all_goals
    simp +zetaDelta only [Prod.lex_def, true_and] at *
    omega

theorem spelled_of_decodeMembers (r : ι) (ms : List {m // m ∈ (S.descriptor r).members})
    (olds : List Value) (input : List UInt8)
    (holds : List.Forall₂ (fun m o => S.Typed m.1.shape o) ms olds)
    (hok : (S.decodeMembers r ms olds input).fault = none) :
    ∃ us, List.Forall₂ (fun m u => S.Spelled m.shape u) (ms.map Subtype.val) us ∧
      input = ((ms.map Subtype.val).zip us).flatMap (fun p => S.wire p.1.shape p.2) ++
        (S.decodeMembers r ms olds input).rest ∧
      (S.decodeMembers r ms olds input).values = S.settleMembers (ms.map Subtype.val) us := by
  match ms, olds, holds with
  | [], [], .nil =>
    exact ⟨[], .nil, by simp [decodeMembers.eq_1], by simp [decodeMembers.eq_1, settleMembers]⟩
  | ⟨m, hm⟩ :: ms, o :: olds, .cons hmo holds =>
    have := S.weight_le_rank hm
    rcases ho : S.decode m.shape ((o :: olds).headD (S.default m.shape)) input with
      ⟨v, mid, fault⟩
    cases fault with
    | some f =>
      rw [decodeMembers_cons_fault ho rfl] at hok
      cases hok
    | none =>
      have hle : mid.length ≤ input.length := by
        have h := (S.decode_rest_suffix m.shape o input).length_le
        rwa [show S.decode m.shape o input = _ from ho] at h
      obtain ⟨u, hu, hin, hv⟩ := spelled_of_decode m.shape o input hmo
        (by rw [show S.decode m.shape o input = _ from ho])
      rw [show S.decode m.shape o input = _ from ho] at hin hv
      rw [decodeMembers_cons_ok ho rfl] at hok ⊢
      dsimp only [List.tail_cons] at hok ⊢
      obtain ⟨us, hus, hin', hvs⟩ := spelled_of_decodeMembers r ms olds mid holds hok
      refine ⟨u :: us, .cons hu hus, ?_, ?_⟩
      · rw [List.map_cons, List.zip_cons_cons, List.flatMap_cons, List.append_assoc, ← hin']
        exact hin
      · simp only [List.map_cons, settleMembers, ← hv, ← hvs]
termination_by (input.length, S.rank r, ms.length)
decreasing_by
  all_goals
    simp +zetaDelta only [Prod.lex_def, true_and, List.length_cons] at *
    omega

theorem spelled_of_readsItems (e : Shape ι) {xs : List Value} {input rest : List UInt8}
    (h : S.ReadsItems e xs input rest) :
    ∃ us, (∀ u ∈ us, S.Spelled e u) ∧ input = us.flatMap (S.wire e) ++ rest ∧
      xs = S.settleItems e us := by
  match xs, input, rest, h with
  | [], _, _, .nil _ => exact ⟨[], by simp, by simp, rfl⟩
  | x :: xs, input, rest, @ReadsItems.cons _ _ _ _ _ _ mid _ hdec hrest =>
    have hle : mid.length ≤ input.length := by
      have h := (S.decode_rest_suffix e (S.default e) input).length_le
      rwa [hdec] at h
    obtain ⟨u, hu, hin, hv⟩ := spelled_of_decode e (S.default e) input (S.typed_default e)
      (by rw [hdec])
    rw [hdec] at hin hv
    obtain ⟨us, hus, hin', hxs⟩ := spelled_of_readsItems e hrest
    refine ⟨u :: us, ?_, ?_, ?_⟩
    · simpa [hu] using hus
    · rw [List.flatMap_cons, List.append_assoc, ← hin', hin]
    · rw [settleItems, ← hv, ← hxs]
termination_by (input.length, S.weight e + 1, xs.length)
decreasing_by
  all_goals
    simp +zetaDelta only [Prod.lex_def, true_and, List.length_cons] at *
    omega

end

end Schema

/-! ## No bytes spell two values -/

/-- Forms that each parse one way parse one way one after another. -/
theorem eq_of_flatMap_append {α : Type} {f : α → List UInt8} {R : α → α → Prop}
    (hR : ∀ {a b : α} {r r' : List UInt8}, R a b → f a ++ r = f b ++ r' → a = b ∧ r = r')
    {xs ys : List α} (hxy : List.Forall₂ R xs ys) {r r' : List UInt8}
    (h : xs.flatMap f ++ r = ys.flatMap f ++ r') : xs = ys ∧ r = r' := by
  induction hxy generalizing r r' with
  | nil => exact ⟨rfl, by simpa using h⟩
  | cons hab _ ih =>
    rw [List.flatMap_cons, List.flatMap_cons, List.append_assoc, List.append_assoc] at h
    obtain ⟨rfl, htail⟩ := hR hab h
    obtain ⟨rfl, rfl⟩ := ih htail
    exact ⟨rfl, rfl⟩

theorem forall₂_zip {β γ : Type} {P Q : β → γ → Prop} {ms : List β} {us₁ us₂ : List γ}
    (h₁ : List.Forall₂ P ms us₁) (h₂ : List.Forall₂ Q ms us₂) :
    List.Forall₂ (fun p q => p.1 = q.1 ∧ P p.1 p.2 ∧ Q q.1 q.2) (ms.zip us₁)
      (ms.zip us₂) := by
  induction h₁ generalizing us₂ with
  | nil => cases h₂; exact .nil
  | cons hp _ ih =>
    cases h₂ with
    | cons hq h₂ => exact .cons ⟨rfl, hp, hq⟩ (ih h₂)

namespace Schema

variable {ι : Type} {S : Schema ι}

/-- The bytes of a spelling, followed by anything, determine the spelling and what follows:
every boolean byte, string, number, member and element is read back from its place. -/
theorem Spelled.eq_of_wire_append {s : Shape ι} {u₁ u₂ : Value} {r₁ r₂ : List UInt8}
    (h₁ : S.Spelled s u₁) (h₂ : S.Spelled s u₂)
    (h : S.wire s u₁ ++ r₁ = S.wire s u₂ ++ r₂) : u₁ = u₂ ∧ r₁ = r₂ := by
  induction h₁ generalizing u₂ r₁ r₂ with
  | bool h0 h1 =>
    cases h₂ with
    | bool h0' h1' =>
      rw [wire_scalar, wire_scalar, ScalarType.wire_bool_int h0 h1,
        ScalarType.wire_bool_int h0' h1', List.singleton_append, List.singleton_append] at h
      obtain ⟨hb, rfl⟩ := List.cons.inj h
      have hn := congrArg UInt8.toNat hb
      simp at hn
      exact ⟨by congr 1; omega, rfl⟩
    | number hb => exact absurd rfl hb
  | string hlim =>
    cases h₂ with
    | string hlim' =>
      have hd := ScalarType.decodeBinary_string hlim r₁
      rw [← wire_scalar (S := S), h, wire_scalar, ScalarType.decodeBinary_string hlim' r₂] at hd
      simp only [Except.ok.injEq, Prod.mk.injEq] at hd
      exact ⟨hd.1.symm, hd.2.symm⟩
    | number _ hs => exact absurd rfl hs
  | number hb hs ha =>
    cases h₂ with
    | bool => exact absurd rfl hb
    | string => exact absurd rfl hs
    | number _ _ ha' =>
      have hd := ScalarType.decodeBinary_number hb hs ha r₁
      rw [← wire_scalar (S := S), h, wire_scalar,
        ScalarType.decodeBinary_number hb hs ha' r₂] at hd
      simp only [Except.ok.injEq, Prod.mk.injEq] at hd
      exact ⟨hd.1.symm, hd.2.symm⟩
  | @record r us₁ hlen hall ih =>
    cases h₂ with
    | @record _ us₂ hlen' hall' =>
      rw [wire_record, wire_record] at h
      -- pair the members with both spellings and read them back one by one
      have hinj : List.Forall₂ (fun m u => ∀ {u' : Value} {rest rest' : List UInt8},
          S.Spelled m.shape u' → S.wire m.shape u ++ rest = S.wire m.shape u' ++ rest' →
            u = u' ∧ rest = rest') (S.descriptor r).members us₁ :=
        List.forall₂_iff_zip.mpr ⟨hlen.symm, fun hp => ih _ hp⟩
      have hsp : List.Forall₂ (fun m u => S.Spelled m.shape u) (S.descriptor r).members us₂ :=
        List.forall₂_iff_zip.mpr ⟨hlen'.symm, fun hp => hall' _ hp⟩
      obtain ⟨hzip, rfl⟩ := eq_of_flatMap_append (fun {a b} {_ _} ⟨hab, hinj, hb⟩ hw => by
        obtain ⟨m, a⟩ := a
        obtain ⟨m', b⟩ := b
        obtain rfl : m = m' := hab
        obtain ⟨rfl, rfl⟩ := hinj hb hw
        exact ⟨rfl, rfl⟩) (forall₂_zip hinj hsp) h
      have hsnd := congrArg (List.map Prod.snd) hzip
      rw [List.map_snd_zip (by omega), List.map_snd_zip (by omega)] at hsnd
      exact ⟨by rw [hsnd], rfl⟩
  | @collection k e us₁ hall hcount ih =>
    cases h₂ with
    | @collection _ _ us₂ hall' hcount' =>
      rw [wire_collection, wire_collection, List.append_assoc, List.append_assoc] at h
      -- the counts are equal, and then the elements are read back one by one
      obtain ⟨hc, h⟩ := List.append_inj h (by simp)
      have hlen : us₁.length = us₂.length := by
        have hn := congrArg ofLeBytes hc
        rwa [ofLeBytes_leBytes _ _ (by simpa using hcount),
          ofLeBytes_leBytes _ _ (by simpa using hcount')] at hn
      obtain ⟨rfl, rfl⟩ := eq_of_flatMap_append
        (R := fun a b => (∀ {u r r'}, S.Spelled e u →
          S.wire e a ++ r = S.wire e u ++ r' → a = u ∧ r = r') ∧ S.Spelled e b)
        (fun ⟨hinj, hb⟩ hw => hinj hb hw) (List.forall₂_iff_zip.mpr ⟨hlen, fun hp =>
          ⟨ih _ (List.of_mem_zip hp).1, hall' _ (List.of_mem_zip hp).2⟩⟩) h
      exact ⟨rfl, rfl⟩

end Schema

/-! ## Lists paired position by position -/

section Pairing

variable {α β γ : Type} {as : List α} {bs : List β}

theorem forall₂_zipWith {Q : α → γ → Prop} {f : α → β → γ}
    (h : List.Forall₂ (fun a b => Q a (f a b)) as bs) :
    List.Forall₂ Q as (List.zipWith f as bs) := by
  induction h with
  | nil => exact .nil
  | cons hab _ ih => exact .cons hab ih

theorem zipWith_zipWith_eq {f : α → γ → β} {g : α → β → γ}
    (h : List.Forall₂ (fun a b => f a (g a b) = b) as bs) :
    List.zipWith f as (List.zipWith g as bs) = bs := by
  induction h with
  | nil => rfl
  | cons hab _ ih => rw [List.zipWith_cons_cons, List.zipWith_cons_cons, hab, ih]

theorem flatMap_zip_zipWith {g : α → β → β} {F : α × β → List UInt8}
    (h : List.Forall₂ (fun a b => F (a, g a b) = F (a, b)) as bs) :
    (as.zip (List.zipWith g as bs)).flatMap F = (as.zip bs).flatMap F := by
  induction h with
  | nil => rfl
  | cons hab _ ih => rw [List.zipWith_cons_cons, List.zip_cons_cons, List.zip_cons_cons,
      List.flatMap_cons, List.flatMap_cons, hab, ih]

end Pairing

namespace Piece

theorem emitAll_fault_eq_none {ps : List Piece} :
    (emitAll ps).fault = none ↔ ∀ p ∈ ps, p.refusal = none := by
  induction ps with
  | nil => simp [emitAll]
  | cons p ps ih =>
    rw [emitAll, List.forall_mem_cons]
    cases hp : p.refusal with
    | some e => simp [emit_of_refused hp, Emitted.andThen_of_fault]
    | none => simp [emit_of_accepted hp, Emitted.ok_andThen, ih]

end Piece

namespace Schema

variable {ι : Type} {S : Schema ι}

/-! ## Limits, part by part -/

theorem mem_piecesMembers {p : Piece} :
    ∀ {ms : List (Member ι)} {vs : List Value},
      p ∈ S.piecesMembers ms vs ↔ ∃ q ∈ ms.zip vs, p ∈ S.pieces q.1.shape q.2
  | [], _ => by simp [piecesMembers]
  | _ :: _, [] => by simp [piecesMembers]
  | m :: ms, v :: vs => by
    rw [piecesMembers, List.mem_append, mem_piecesMembers, List.zip_cons_cons]
    simp

theorem mem_piecesItems {p : Piece} {e : Shape ι} :
    ∀ {xs : List Value}, p ∈ S.piecesItems e xs ↔ ∃ x ∈ xs, p ∈ S.pieces e x
  | [] => by simp [piecesItems]
  | x :: xs => by
    rw [piecesItems, List.mem_append, mem_piecesItems]
    simp

theorem withinLimits_record_iff {r : ι} {vs : List Value} :
    S.WithinLimits (.record r) (.record vs) ↔
      ∀ q ∈ (S.descriptor r).members.zip vs, S.WithinLimits q.1.shape q.2 := by
  simp only [WithinLimits, pieces, mem_piecesMembers]
  constructor
  · intro h q hq p hp
    exact h p ⟨q, hq, hp⟩
  · rintro h p ⟨q, hq, hp⟩
    exact h q hq p hp

theorem withinLimits_collection_iff {k : CollectionKind} {e : Shape ι} {xs : List Value} :
    S.WithinLimits (.collection k e) (.items xs) ↔
      xs.length < 2 ^ 32 ∧ ∀ x ∈ xs, S.WithinLimits e x := by
  simp only [WithinLimits, pieces, List.forall_mem_cons, mem_piecesItems]
  have hcount : (Piece.count xs.length).refusal = none ↔ xs.length < 2 ^ 32 := by
    rw [Piece.refusal]
    split_ifs with h
    · exact iff_of_true rfl h
    · exact iff_of_false (by simp) h
  rw [hcount]
  refine and_congr_right fun _ => ⟨?_, ?_⟩
  · intro h x hx p hp
    exact h p ⟨x, hx, hp⟩
  · rintro h p ⟨x, hx, hp⟩
    exact h x hx p hp

/-- Encoding a well-typed value succeeds only within the limits. -/
theorem withinLimits_of_encode {s : Shape ι} {v : Value} (hv : S.Typed s v)
    (h : (S.encode s v).fault = none) : S.WithinLimits s v := by
  rw [encode_eq_emitAll hv] at h
  exact Piece.emitAll_fault_eq_none.mp h

/-! ## Spelling and settling -/

theorem settleMembers_eq_zipWith :
    ∀ (ms : List (Member ι)) (us : List Value),
      S.settleMembers ms us = List.zipWith (fun m u => S.settle m.shape u) ms us
  | [], _ => by simp [settleMembers]
  | _ :: _, [] => by simp [settleMembers]
  | m :: ms, u :: us => by rw [settleMembers, settleMembers_eq_zipWith ms us]; rfl

theorem spellMembers_eq_zipWith :
    ∀ (ms : List (Member ι)) (vs : List Value),
      S.spellMembers ms vs = List.zipWith (fun m v => S.spell m.shape v) ms vs
  | [], _ => by simp [spellMembers]
  | _ :: _, [] => by simp [spellMembers]
  | m :: ms, v :: vs => by rw [spellMembers, spellMembers_eq_zipWith ms vs]; rfl

theorem settle_spell {s : Shape ι} {v : Value} (hv : S.Typed s v) :
    S.settle s (S.spell s v) = v := by
  induction hv with
  | @scalar t v h =>
    by_cases hb : t = .bool
    · subst hb
      obtain ⟨b, rfl⟩ := ScalarType.eq_bool_of_admits h
      cases b <;> rfl
    · simp only [spell, settle, ScalarType.spell_of_ne_bool hb, ScalarType.settle_of_ne_bool hb]
  | @record r vs hlen _ ih =>
    simp only [spell, settle, settleMembers_eq_zipWith, spellMembers_eq_zipWith]
    rw [zipWith_zipWith_eq (List.forall₂_iff_zip.mpr ⟨hlen.symm, fun hp => ih _ hp⟩)]
  | @collection k e xs _ hsorted ih =>
    simp only [spell, settle, spellItems_eq_map, settleItems_eq_map, List.map_map]
    rw [List.map_congr_left (f := S.settle e ∘ S.spell e) (g := id) ih, List.map_id,
      CollectionKind.ofList_of_sorted hsorted]

theorem typed_settle {s : Shape ι} {u : Value} (h : S.Spelled s u) : S.Typed s (S.settle s u) := by
  induction h with
  | bool => exact .scalar rfl
  | string => exact .scalar rfl
  | number hb _ ha =>
    rw [settle, ScalarType.settle_of_ne_bool hb]
    exact .scalar ha
  | @record r us hlen _ ih =>
    rw [settle, settleMembers_eq_zipWith]
    exact Typed.record_of_forall₂
      (forall₂_zipWith (List.forall₂_iff_zip.mpr ⟨hlen.symm, fun hp => ih _ hp⟩))
  | @collection k e us _ _ ih =>
    rw [settle]
    refine .collection (fun x hx => ?_) (fun hk => (CollectionKind.ofList_set hk _).2)
    rw [CollectionKind.ofList, CollectionKind.mem_foldl_insert, settleItems_eq_map] at hx
    simp only [List.not_mem_nil, false_or, List.mem_map] at hx
    obtain ⟨u, hu, rfl⟩ := hx
    exact ih u hu

theorem spelled_spell {s : Shape ι} {v : Value} (hv : S.Typed s v) (hlim : S.WithinLimits s v) :
    S.Spelled s (S.spell s v) := by
  induction hv with
  | @scalar t v h =>
    by_cases hb : t = .bool
    · subst hb
      obtain ⟨b, rfl⟩ := ScalarType.eq_bool_of_admits h
      cases b
      · exact .bool (by decide) (by decide)
      · exact .bool (by decide) (by decide)
    rw [spell, ScalarType.spell_of_ne_bool hb]
    by_cases hs : t = .string
    · subst hs
      obtain ⟨str, rfl⟩ := ScalarType.eq_str_of_admits h
      have hleaf := hlim _ (List.mem_singleton_self _)
      refine .string ?_
      by_contra hgt
      simp [Piece.refusal, hgt] at hleaf
    · exact .number hb hs h
  | @record r vs hlen _ ih =>
    have hlim' := withinLimits_record_iff.mp hlim
    rw [spell, spellMembers_eq_zipWith]
    exact Spelled.record_of_forall₂ (forall₂_zipWith
      (List.forall₂_iff_zip.mpr ⟨hlen.symm, fun hp => ih _ hp (hlim' _ hp)⟩))
  | @collection k e xs _ _ ih =>
    obtain ⟨hcount, hlim'⟩ := withinLimits_collection_iff.mp hlim
    rw [spell, spellItems_eq_map]
    refine .collection ?_ (by rwa [List.length_map])
    simp only [List.mem_map]
    rintro _ ⟨x, hx, rfl⟩
    exact ih x hx (hlim' x hx)

theorem canonical_spell {s : Shape ι} {v : Value} (hv : S.Typed s v) (hlim : S.WithinLimits s v) :
    S.Canonical s (S.spell s v) := by
  induction hv with
  | @scalar t v h =>
    by_cases hb : t = .bool
    · subst hb
      obtain ⟨b, rfl⟩ := ScalarType.eq_bool_of_admits h
      cases b
      · exact .bool (.inl rfl)
      · exact .bool (.inr rfl)
    rw [spell, ScalarType.spell_of_ne_bool hb]
    by_cases he : t = .entry
    · subst he
      -- a zero entry is refused, so this one is not zero
      obtain ⟨n, rfl⟩ := ScalarType.eq_int_of_admits_entry h
      have hleaf := hlim _ (List.mem_singleton_self _)
      refine .entry fun hn => ?_
      simp [Piece.refusal, hn] at hleaf
    · exact .scalar hb he
  | @record r vs hlen _ ih =>
    have hlim' := withinLimits_record_iff.mp hlim
    rw [spell, spellMembers_eq_zipWith]
    have hF := forall₂_zipWith (Q := fun m u => S.Canonical m.shape u)
      (List.forall₂_iff_zip.mpr ⟨hlen.symm, fun hp => ih _ hp (hlim' _ hp)⟩)
    exact .record fun _ hp => (List.forall₂_iff_zip.mp hF).2 hp
  | @collection k e xs hall hsorted ih =>
    obtain ⟨-, hlim'⟩ := withinLimits_collection_iff.mp hlim
    rw [spell]
    refine .collection ?_ fun hk => ?_
    · rw [spellItems_eq_map]
      simp only [List.mem_map]
      rintro _ ⟨x, hx, rfl⟩
      exact ih x hx (hlim' x hx)
    · -- the elements settle back to themselves, which ascend
      rw [settleItems_eq_map, spellItems_eq_map, List.map_map, List.map_congr_left
        (f := S.settle e ∘ S.spell e) (g := id) fun x hx => settle_spell (hall x hx), List.map_id]
      exact hsorted hk

theorem wire_spell {s : Shape ι} {v : Value} (hv : S.Typed s v) :
    S.wire s (S.spell s v) = S.wire s v := by
  induction hv with
  | @scalar t v h =>
    by_cases hb : t = .bool
    · subst hb
      obtain ⟨b, rfl⟩ := ScalarType.eq_bool_of_admits h
      cases b <;> rfl
    · rw [spell, ScalarType.spell_of_ne_bool hb]
  | @record r vs hlen _ ih =>
    rw [spell, spellMembers_eq_zipWith, wire_record, wire_record]
    exact flatMap_zip_zipWith (g := fun m v => S.spell m.shape v)
      (F := fun p => S.wire p.1.shape p.2)
      (List.forall₂_iff_zip.mpr ⟨hlen.symm, fun hp => ih _ hp⟩)
  | @collection k e xs _ _ ih =>
    rw [spell, spellItems_eq_map, wire_collection, wire_collection, List.length_map,
      List.flatMap_map]
    congr 1
    exact List.flatMap_congr ih

/-- A canonical spelling settles to a value within the limits. -/
theorem withinLimits_settle {s : Shape ι} {u : Value} (h : S.Spelled s u) (hc : S.Canonical s u) :
    S.WithinLimits s (S.settle s u) := by
  induction h with
  | bool =>
    intro p hp
    simp only [settle, ScalarType.settle, pieces, List.mem_singleton] at hp
    subst hp
    rfl
  | string hlim =>
    intro p hp
    simp only [settle, ScalarType.settle, pieces, List.mem_singleton] at hp
    subst hp
    simp [Piece.refusal, hlim]
  | @number t u hb hs _ =>
    intro p hp
    simp only [settle, ScalarType.settle_of_ne_bool hb, pieces, List.mem_singleton] at hp
    subst hp
    cases hc with
    | bool => exact absurd rfl hb
    | entry hn => simp [Piece.refusal, hn]
    | scalar _ he =>
      cases u <;> cases t <;> first | rfl | exact absurd rfl hs | exact absurd rfl he
  | @record r us hlen _ ih =>
    cases hc with
    | record hc =>
      rw [settle, settleMembers_eq_zipWith, withinLimits_record_iff]
      have hF := forall₂_zipWith (Q := fun m v => S.WithinLimits m.shape v)
        (List.forall₂_iff_zip.mpr ⟨hlen.symm, fun hp => ih _ hp (hc _ hp)⟩)
      exact fun _ hp => (List.forall₂_iff_zip.mp hF).2 hp
  | @collection k e us _ hcount ih =>
    cases hc with
    | collection hc hset =>
      -- a canonical collection holds its elements as they came
      have hsame : k.ofList (S.settleItems e us) = S.settleItems e us :=
        CollectionKind.ofList_of_sorted hset
      rw [settle, hsame, withinLimits_collection_iff, settleItems_eq_map, List.length_map]
      refine ⟨hcount, ?_⟩
      simp only [List.mem_map]
      rintro _ ⟨u, hu, rfl⟩
      exact ih u hu (hc u hu)

theorem spell_settle {s : Shape ι} {u : Value} (h : S.Spelled s u) (hc : S.Canonical s u) :
    S.spell s (S.settle s u) = u := by
  induction h with
  | bool =>
    cases hc with
    | bool h01 => rcases h01 with rfl | rfl <;> rfl
    | scalar hb => exact absurd rfl hb
  | string => rfl
  | number hb =>
    simp only [settle, spell, ScalarType.settle_of_ne_bool hb, ScalarType.spell_of_ne_bool hb]
  | @record r us hlen _ ih =>
    cases hc with
    | record hc =>
      simp only [settle, spell, settleMembers_eq_zipWith, spellMembers_eq_zipWith]
      rw [zipWith_zipWith_eq
        (List.forall₂_iff_zip.mpr ⟨hlen.symm, fun hp => ih _ hp (hc _ hp)⟩)]
  | @collection k e us _ _ ih =>
    cases hc with
    | collection hc hset =>
      rw [settle, CollectionKind.ofList_of_sorted hset, spell, spellItems_eq_map,
        settleItems_eq_map, List.map_map, List.map_congr_left (f := S.spell e ∘ S.settle e)
        (g := id) fun u hu => ih u hu (hc u hu), List.map_id]

/-! ## Writing back what was read -/

/-- Writing the value a spelling settles to succeeds and gives the spelling's bytes back exactly
when the spelling is canonical. -/
theorem encode_settle_iff {s : Shape ι} {u : Value} (h : S.Spelled s u) :
    S.encode s (S.settle s u) = ⟨S.wire s u, none⟩ ↔ S.Canonical s u := by
  have htyped := typed_settle h
  constructor
  · intro henc
    have hlim := withinLimits_of_encode htyped (by rw [henc])
    rw [encode_of_withinLimits htyped hlim, Emitted.mk.injEq] at henc
    -- the settled value's spelling has the same bytes, so it is this spelling
    have hsame : S.wire s (S.spell s (S.settle s u)) ++ [] = S.wire s u ++ [] := by
      rw [wire_spell htyped, henc.1]
    obtain ⟨heq, -⟩ := Spelled.eq_of_wire_append (spelled_spell htyped hlim) h hsame
    rw [← heq]
    exact canonical_spell htyped hlim
  · intro hc
    rw [encode_of_withinLimits htyped (withinLimits_settle h hc), ← wire_spell htyped,
      spell_settle h hc]

variable (S) in
/-- The canonical binary forms of shape `s`: the bytes of a canonical spelling. As no bytes
spell two values, this is a property of the bytes alone: every boolean byte is zero or one,
every set lists its elements' values strictly ascending, and no entry is zero. -/
def CanonicalForm (s : Shape ι) (bs : List UInt8) : Prop :=
  ∃ u, S.Spelled s u ∧ S.wire s u = bs ∧ S.Canonical s u

theorem canonicalForm_wire_iff {s : Shape ι} {u : Value} (h : S.Spelled s u) :
    S.CanonicalForm s (S.wire s u) ↔ S.Canonical s u := by
  constructor
  · rintro ⟨u', hu', hw, hc⟩
    have hsame : S.wire s u' ++ [] = S.wire s u ++ [] := by rw [hw]
    obtain ⟨rfl, -⟩ := Spelled.eq_of_wire_append hu' h hsame
    exact hc
  · exact fun hc => ⟨u, h, rfl, hc⟩

/-- Encoding undoes decoding exactly on canonical input: when a read into a fresh value
succeeds, writing the value read succeeds and gives back the bytes consumed exactly when those
bytes are a canonical form. -/
theorem encode_reproduces_iff_canonical {s : Shape ι} {input rest : List UInt8} {v : Value}
    (h : S.decode s (S.default s) input = ⟨v, rest, none⟩) :
    S.encode s v = ⟨input.take (input.length - rest.length), none⟩ ↔
      S.CanonicalForm s (input.take (input.length - rest.length)) := by
  obtain ⟨u, hu, hin, hv⟩ := S.spelled_of_decode s (S.default s) input (S.typed_default s)
    (by rw [h])
  rw [h] at hin hv
  dsimp only at hin hv
  -- the bytes consumed are the spelling's form
  have hread : input.take (input.length - rest.length) = S.wire s u := by
    rw [hin, List.length_append, Nat.add_sub_cancel, List.take_left]
  rw [hread, hv, canonicalForm_wire_iff hu]
  exact encode_settle_iff hu

end Schema

/-- A boolean byte of two reads as `true` but is not a canonical form. -/
theorem bool_byte_two_not_canonical :
    catalog.decode (.scalar .bool) (catalog.default (.scalar .bool)) [2] =
        ⟨.bool true, [], none⟩ ∧ ¬ catalog.CanonicalForm (.scalar .bool) [2] := by
  have hdec : catalog.decode (.scalar .bool) (catalog.default (.scalar .bool)) [2] =
      ⟨.bool true, [], none⟩ := by
    rw [Schema.decode.eq_1]
    rfl
  refine ⟨hdec, fun hc => ?_⟩
  -- writing `true` gives the byte one
  have henc := (Schema.encode_reproduces_iff_canonical hdec).mpr hc
  exact absurd henc (by decide)

end RecordWire
