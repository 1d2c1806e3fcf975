import Mathlib
import RecordWire.Collection.Adapter
import RecordWire.Proofs.WireForm
/-!
# Collection walks

Both collection writers walk their collection with a cursor. The walk is started on the
collection's elements, an empty collection giving no cursor; the loop writes the element under
the cursor and advances, and stops at the first element whose write fails, releasing the cursor
there as running off the end releases it.

Whatever the element writer does, the loop does what writing the elements one after another
does (`feed`): each element once, in iteration order, up to and including the first whose write
fails; and it leaves the cursor released on both paths (`writeEach_start`). A writer that logs
what it is handed sees exactly those elements (`feed_logged`). The binary writer runs the loop
after the element count, the text writer between `{ ` and `} ` (`writeBinaryWith_items`,
`writeTextWith_items`). With the element accessor's writers they write the collection's binary
form at a growable stream's cursor, and what the text writer writes of the collection
(`writeBinary_items`, `writeText_items`): the codecs' collection cases are what these walks do.

Main statement: `collection_walks_release`.
-/

namespace RecordWire

namespace Cursor

variable {σ ε : Type} (write : σ → Value → σ × Option ε)

/-- Writes `xs` one after another with `write`, stopping at the first failure. -/
def feed : σ → List Value → σ × Option ε
  | out, [] => (out, none)
  | out, x :: xs =>
    match write out x with
    | (out, some e) => (out, some e)
    | (out, none) => feed out xs

/-- `write`, noting each element it is handed at the end of a log. -/
def logged (w : σ × List Value) (x : Value) : (σ × List Value) × Option ε :=
  (((write w.1 x).1, w.2 ++ [x]), (write w.1 x).2)

/-! ### One element at a time -/

section Steps

variable {write} {out o : σ} {x : Value} {xs : List Value}

theorem feed_cons_of_fault {e : ε} (h : write out x = (o, some e)) :
    feed write out (x :: xs) = (o, some e) := by
  simp [feed, h]

theorem feed_cons_of_ok (h : write out x = (o, none)) :
    feed write out (x :: xs) = feed write o xs := by
  simp [feed, h]

theorem writeEach_of_fault {e : ε} (h : write out x = (o, some e)) :
    writeEach write out ⟨some x, some xs⟩ = ((o, some e), ⟨none, none⟩) := by
  rw [writeEach]
  simp [h, release]

theorem writeEach_last_of_ok (h : write out x = (o, none)) :
    writeEach write out ⟨some x, some []⟩ = ((o, none), ⟨none, none⟩) := by
  rw [writeEach]
  simp [h, advance, release]

theorem writeEach_next_of_ok {y : Value} {ys : List Value} (h : write out x = (o, none)) :
    writeEach write out ⟨some x, some (y :: ys)⟩ = writeEach write o ⟨some y, some ys⟩ := by
  rw [writeEach]
  simp [h, advance]

theorem logged_of_write {f : Option ε} (h : write out x = (o, f)) (log : List Value) :
    logged write (out, log) x = ((o, log ++ [x]), f) := by
  simp [logged, h]

end Steps

/-- The loop writes the elements as `feed` does and leaves the cursor released, whatever the
writer does: by induction on the elements still to come. -/
theorem writeEach_walk (out : σ) (x : Value) (xs : List Value) :
    writeEach write out ⟨some x, some xs⟩ = (feed write out (x :: xs), ⟨none, none⟩) := by
  induction xs generalizing out x with
  | nil =>
    rcases hw : write out x with ⟨o, f⟩
    cases f with
    | none => rw [writeEach_last_of_ok hw, feed_cons_of_ok hw]; rfl
    | some e => rw [writeEach_of_fault hw, feed_cons_of_fault hw]
  | cons y ys ih =>
    rcases hw : write out x with ⟨o, f⟩
    cases f with
    | none => rw [writeEach_next_of_ok hw, ih, feed_cons_of_ok hw]
    | some e => rw [writeEach_of_fault hw, feed_cons_of_fault hw]

/-- A walk started on `xs` writes `xs` as `feed` does and ends released. -/
theorem writeEach_start {xs : List Value} {c : Cursor} (h : start xs = some c) (out : σ) :
    c.writeEach write out = (feed write out xs, c.release) := by
  cases xs with
  | nil => cases h
  | cons x xs =>
    cases h
    exact writeEach_walk write out x xs

theorem feed_logged_append (out : σ) (log : List Value) (xs : List Value) :
    feed (logged write) (out, log) xs =
      (((feed (logged write) (out, []) xs).1.1, log ++ (feed (logged write) (out, []) xs).1.2),
        (feed (logged write) (out, []) xs).2) := by
  induction xs generalizing out log with
  | nil => simp [feed]
  | cons x xs ih =>
    rcases hw : write out x with ⟨o, f⟩
    cases f with
    | none =>
      rw [feed_cons_of_ok (logged_of_write hw log), feed_cons_of_ok (logged_of_write hw []),
        List.nil_append, ih o, ih o [x]]
      simp
    | some e =>
      rw [feed_cons_of_fault (logged_of_write hw log), feed_cons_of_fault (logged_of_write hw [])]
      simp

/-- What a writer that logs its elements is handed: every element, in order, when no write
fails; else the elements before the first failure, each written without one, and the element
whose write failed. Its output and failure are the writer's own. -/
theorem feed_logged (out : σ) (xs : List Value) :
    ∃ log, feed (logged write) (out, []) xs =
        (((feed write out xs).1, log), (feed write out xs).2) ∧
      ((feed write out xs).2 = none → log = xs) ∧
      ∀ e, (feed write out xs).2 = some e →
        ∃ pre x post, xs = pre ++ x :: post ∧ log = pre ++ [x] ∧
          (feed write out pre).2 = none ∧
          write (feed write out pre).1 x = ((feed write out xs).1, some e) := by
  induction xs generalizing out with
  | nil => exact ⟨[], by simp [feed], fun _ => rfl, fun e h => by simp [feed] at h⟩
  | cons x xs ih =>
    rcases hw : write out x with ⟨o, f⟩
    cases f with
    | none =>
      obtain ⟨log, hrun, hall, hfirst⟩ := ih o
      refine ⟨x :: log, ?_, ?_, ?_⟩
      · rw [feed_cons_of_ok (logged_of_write hw []), feed_logged_append, hrun,
          feed_cons_of_ok hw]
        simp
      · rw [feed_cons_of_ok hw]
        intro h
        rw [hall h]
      · intro e h
        rw [feed_cons_of_ok hw] at h ⊢
        obtain ⟨pre, y, post, rfl, rfl, hpre, hy⟩ := hfirst e h
        refine ⟨x :: pre, y, post, rfl, rfl, ?_, ?_⟩
        · rwa [feed_cons_of_ok hw]
        · rwa [feed_cons_of_ok hw]
    | some e =>
      refine ⟨[x], ?_, ?_, ?_⟩
      · rw [feed_cons_of_fault (logged_of_write hw []), feed_cons_of_fault hw]
        rfl
      · rw [feed_cons_of_fault hw]
        simp
      · intro e' h
        rw [feed_cons_of_fault hw] at h ⊢
        cases h
        exact ⟨[], x, xs, rfl, rfl, rfl, hw⟩

end Cursor

/-! ### The writers -/

/-- Writing `d₁` and then `d₂` right after it splices in what writing both at once does. -/
theorem splice_splice (bs : List UInt8) (p : Nat) (d₁ d₂ : List UInt8) :
    splice (splice bs p d₁) (p + d₁.length) d₂ = splice bs p (d₁ ++ d₂) := by
  unfold splice
  by_cases hp : p ≤ bs.length
  · -- the first write starts inside the bytes: before `p + |d₁|` it leaves `take p ++ d₁`
    have hlen : (bs.take p ++ d₁).length = p + d₁.length := by simp [hp]
    have hrest : (bs.take p ++ d₁ ++ bs.drop (p + d₁.length)).drop
        (p + d₁.length + d₂.length) = bs.drop (p + (d₁ ++ d₂).length) := by
      rw [← List.drop_drop, List.drop_left' hlen, List.drop_drop]
      simp [Nat.add_assoc]
    rw [List.take_left' hlen, hrest]
    simp
  · -- a write past the end lands right after the last byte, and so does the next one
    have hT : bs.take p = bs := List.take_of_length_le (by omega)
    have hR : ∀ n, bs.drop (p + n) = [] := fun n => List.drop_eq_nil_of_le (by omega)
    rw [hT, hR, hR, List.append_nil, List.take_of_length_le (by simp; omega),
      List.drop_eq_nil_of_le (by simp; omega)]
    simp

namespace Adapter

variable {ι : Type} [DecidableEq ι] (S : Schema ι) (a : Adapter ι) (xs : List Value)

theorem items_items : a.items S ⟨a.shape, .items xs⟩ = .ok xs := by
  simp [items, Value.elems]

theorem size_items : a.size S ⟨a.shape, .items xs⟩ = .ok xs.length := by
  rw [size, items_items]
  rfl

theorem begin_items : a.begin S ⟨a.shape, .items xs⟩ = .ok (Cursor.start xs) := by
  rw [begin, items_items]
  rfl

/-- Once the count is written, the binary writer writes the elements as `feed` does, and the
walk, if one was started, ends released. -/
theorem writeBinaryWith_items {σ : Type} [ByteStream σ]
    (write : σ → Value → σ × Option CodecError) {out out' : σ} (hn : xs.length < 2 ^ 32)
    (hw : ByteStream.writeU32 out xs.length = .ok out') :
    a.writeBinaryWith S write ⟨a.shape, .items xs⟩ out =
      (Cursor.feed write out' xs, (Cursor.start xs).map Cursor.release) := by
  have hn' : xs.length < Nat.pow 2 32 := hn
  simp only [writeBinaryWith, size_items]
  rw [if_pos hn']
  simp only [hw, begin_items]
  cases hs : Cursor.start xs with
  | none =>
    rw [Cursor.start_eq_none_iff.1 hs]
    rfl
  | some c =>
    simp only [Cursor.writeEach_start write hs, Option.map_some]

/-- The text writer writes `{ `, then the elements as `feed` does, and `} ` when no write failed;
the walk, if one was started, ends released. -/
theorem writeTextWith_items (write : List Char → Value → List Char × Option CodecError)
    (out : List Char) :
    a.writeTextWith S write ⟨a.shape, .items xs⟩ out =
      (if (Cursor.feed write (out ++ ['{', ' ']) xs).2.isNone then
          ((Cursor.feed write (out ++ ['{', ' ']) xs).1 ++ ['}', ' '], none)
        else Cursor.feed write (out ++ ['{', ' ']) xs,
        (Cursor.start xs).map Cursor.release) := by
  simp only [writeTextWith, begin_items]
  cases hs : Cursor.start xs with
  | none =>
    rw [Cursor.start_eq_none_iff.1 hs]
    rfl
  | some c =>
    dsimp only
    rw [Cursor.writeEach_start write hs]
    generalize Cursor.feed write (out ++ ['{', ' ']) xs = r
    rcases r with ⟨o, _ | e⟩ <;> rfl

theorem appendElementText_eq (out : List Char) (v : Value) :
    a.appendElementText S out v =
      (out ++ (S.writeValueText a.elem v).1, (S.writeValueText a.elem v).2) := by
  simp [appendElementText, element, Accessor.writeText, Accessor.get, Accessor.ownerShape,
    Accessor.shape]

theorem feed_appendElementText (out : List Char) :
    Cursor.feed (a.appendElementText S) out xs =
      (out ++ (S.writeItemsText a.elem xs).1, (S.writeItemsText a.elem xs).2) := by
  induction xs generalizing out with
  | nil => simp [Cursor.feed, Schema.writeItemsText]
  | cons x xs ih =>
    have hstep := appendElementText_eq S a out x
    rcases hw : S.writeValueText a.elem x with ⟨t, _ | f⟩
    · rw [hw] at hstep
      rw [Cursor.feed_cons_of_ok hstep, ih]
      simp [Schema.writeItemsText, hw, Schema.thenText]
    · rw [hw] at hstep
      rw [Cursor.feed_cons_of_fault hstep]
      simp [Schema.writeItemsText, hw, Schema.thenText]

theorem emitElement_eq {σ : Type} [ByteStream σ] (out : σ) (v : Value) :
    a.emitElement S out v = ByteStream.emit out (S.encode a.elem v) := by
  simp [emitElement, element, Accessor.writeBinary, Accessor.get, Accessor.ownerShape,
    Accessor.shape]

/-- Over a growable stream, the element accessor's binary writer puts the elements' binary forms
one after another at the cursor, and fails where their encoding fails. -/
theorem feed_emitElement (g : GrowableStream) :
    (Cursor.feed (a.emitElement S) g xs).2 = (S.encodeItems a.elem xs).fault ∧
    (Cursor.feed (a.emitElement S) g xs).1.bytes.data.toList =
      splice g.bytes.data.toList g.pos (S.encodeItems a.elem xs).bytes ∧
    (Cursor.feed (a.emitElement S) g xs).1.pos =
      g.pos + (S.encodeItems a.elem xs).bytes.length := by
  induction xs generalizing g with
  | nil => simp [Cursor.feed, Schema.encodeItems]
  | cons x xs ih =>
    obtain ⟨hfault, hbytes, hpos⟩ := GrowableStream.emit_eq g (S.encode a.elem x)
    have hstep : a.emitElement S g x =
        ((ByteStream.emit g (S.encode a.elem x)).1, (S.encode a.elem x).fault) := by
      rw [emitElement_eq, ← hfault]
    rcases hem : S.encode a.elem x with ⟨bs, _ | f⟩
    · -- the element is written, and the walk goes on after it
      rw [hem] at hstep hbytes hpos
      obtain ⟨ihf, ihb, ihp⟩ := ih (ByteStream.emit g ⟨bs, none⟩).1
      rw [Cursor.feed_cons_of_ok hstep, Schema.encodeItems, hem, Emitted.ok_andThen]
      refine ⟨ihf, ?_, ?_⟩
      · rw [ihb, hbytes, hpos, splice_splice]
      · rw [ihp, hpos]
        simp [Nat.add_assoc]
    · -- the element's own writer fails, and the walk stops there
      rw [hem] at hstep hbytes hpos
      rw [Cursor.feed_cons_of_fault hstep, Schema.encodeItems, hem, Emitted.andThen_of_fault rfl]
      exact ⟨rfl, hbytes, hpos⟩

/-- Walking a collection with the element accessor's binary writer over a growable stream writes
the collection's binary form at the cursor, fails as its encoding fails, and leaves the walk
released. -/
theorem writeBinary_items (g : GrowableStream) (hn : xs.length < 2 ^ 32) :
    (a.writeBinary S ⟨a.shape, .items xs⟩ g).1.2 = (S.encode a.shape (.items xs)).fault ∧
    (a.writeBinary S ⟨a.shape, .items xs⟩ g).1.1.bytes.data.toList =
      splice g.bytes.data.toList g.pos (S.encode a.shape (.items xs)).bytes ∧
    (a.writeBinary S ⟨a.shape, .items xs⟩ g).1.1.pos =
      g.pos + (S.encode a.shape (.items xs)).bytes.length ∧
    (a.writeBinary S ⟨a.shape, .items xs⟩ g).2 = (Cursor.start xs).map Cursor.release := by
  have hn' : xs.length < Nat.pow 2 32 := hn
  have hcount : ByteStream.writeU32 g xs.length =
      .ok (g.writeBytes (leBytes 4 xs.length).toByteArray) := rfl
  -- the encoder writes the count and then the elements, as the walk does
  have hencode : S.encode a.shape (.items xs) = { S.encodeItems a.elem xs with
      bytes := leBytes 4 xs.length ++ (S.encodeItems a.elem xs).bytes } := by
    rw [shape, Schema.encode, if_pos hn', Emitted.ok_andThen]
  obtain ⟨hf, hb, hp⟩ := feed_emitElement S a xs (g.writeBytes (leBytes 4 xs.length).toByteArray)
  rw [writeBinary, writeBinaryWith_items S a xs _ hn hcount, hencode]
  refine ⟨hf, ?_, ?_, rfl⟩
  · rw [hb, GrowableStream.bytes_writeBytes, GrowableStream.pos_writeBytes]
    simpa using splice_splice g.bytes.data.toList g.pos (leBytes 4 xs.length)
      (S.encodeItems a.elem xs).bytes
  · rw [hp, GrowableStream.pos_writeBytes]
    simp [Nat.add_assoc]

/-- Walking a collection with the element accessor's text writer writes what the text writer
writes of the collection, and leaves the walk released. -/
theorem writeText_items (out : List Char) :
    a.writeText S ⟨a.shape, .items xs⟩ out =
      ((out ++ (S.writeValueText a.shape (.items xs)).1, (S.writeValueText a.shape (.items xs)).2),
        (Cursor.start xs).map Cursor.release) := by
  rw [writeText, writeTextWith_items, feed_appendElementText]
  rcases hw : S.writeItemsText a.elem xs with ⟨t, _ | f⟩ <;>
    simp [shape, Schema.writeValueText, Schema.thenText, hw]

end Adapter

/-! ### Both writers -/

variable {ι : Type} [DecidableEq ι] (S : Schema ι)

/-- Walking a collection visits each element once, in iteration order, and always ends
released. An empty collection starts no walk. Whatever the element writer does, a walk started
on the elements writes them as `feed` does and leaves the cursor released, on the path where a
write fails as on the one that runs off the end; the elements a writer is handed, seen through a
log, are all of them when no write fails, else those up to and including the first whose write
fails, each earlier one written without failure. The binary writer runs that walk once the
element count is written, the text writer between `{ ` and a `} ` written only when no write
failed. A released cursor has no element and does not advance, and releasing it again changes
nothing. -/
theorem collection_walks_release {σ : Type} [ByteStream σ] (a : Adapter ι) (xs : List Value) :
    (a.begin S ⟨a.shape, .items xs⟩ = .ok none ↔ xs = []) ∧
    (∀ (τ ε : Type) (write : τ → Value → τ × Option ε) (out : τ) (c : Cursor),
      a.begin S ⟨a.shape, .items xs⟩ = .ok (some c) →
      c.writeEach write out = (Cursor.feed write out xs, c.release) ∧
      ∃ log, (c.writeEach (Cursor.logged write) (out, [])).1 =
          (((Cursor.feed write out xs).1, log), (Cursor.feed write out xs).2) ∧
        ((Cursor.feed write out xs).2 = none → log = xs) ∧
        ∀ e, (Cursor.feed write out xs).2 = some e →
          ∃ pre x post, xs = pre ++ x :: post ∧ log = pre ++ [x] ∧
            (Cursor.feed write out pre).2 = none ∧
            write (Cursor.feed write out pre).1 x = ((Cursor.feed write out xs).1, some e)) ∧
    (∀ (write : σ → Value → σ × Option CodecError) (out out' : σ), xs.length < 2 ^ 32 →
      ByteStream.writeU32 out xs.length = .ok out' →
      a.writeBinaryWith S write ⟨a.shape, .items xs⟩ out =
        (Cursor.feed write out' xs, (Cursor.start xs).map Cursor.release)) ∧
    (∀ (write : List Char → Value → List Char × Option CodecError) (out : List Char),
      a.writeTextWith S write ⟨a.shape, .items xs⟩ out =
        (if (Cursor.feed write (out ++ ['{', ' ']) xs).2.isNone then
            ((Cursor.feed write (out ++ ['{', ' ']) xs).1 ++ ['}', ' '], none)
          else Cursor.feed write (out ++ ['{', ' ']) xs,
          (Cursor.start xs).map Cursor.release)) ∧
    ∀ c : Cursor, c.release.isReleased = true ∧ c.release.current = none ∧
      c.release.release = c.release ∧ c.release.advance.1 = false := by
  refine ⟨?_, fun τ ε write out c hc => ?_,
    fun write out out' hn hw => Adapter.writeBinaryWith_items S a xs write hn hw,
    fun write out => Adapter.writeTextWith_items S a xs write out, fun c => ⟨rfl, rfl, rfl, rfl⟩⟩
  · rw [Adapter.begin_items]
    simp
  · -- the cursor is the one started on the elements, so both runs are `feed`'s
    have hs : Cursor.start xs = some c := by
      rw [Adapter.begin_items] at hc
      exact Except.ok.inj hc
    refine ⟨Cursor.writeEach_start write hs out, ?_⟩
    rw [Cursor.writeEach_start (Cursor.logged write) hs (out, [])]
    exact Cursor.feed_logged write out xs

/-- Writing the entries 1, 0 and 2 in binary: once the count is written, the walk is the one
`feed` describes, started on the first entry, and it ends released. -/
theorem entry_walk_ends_released :
    let a : Adapter RecordName := ⟨.vec, .scalar .entry⟩
    let xs : List Value := [.int 1, .int 0, .int 2]
    let g := GrowableStream.withConfig {}
    let g' := g.writeBytes (leBytes 4 3).toByteArray
    let c : Cursor := ⟨some (.int 1), some [.int 0, .int 2]⟩
    a.begin catalog ⟨a.shape, .items xs⟩ = .ok (some c) ∧
      c.writeEach (a.emitElement catalog) g =
        (Cursor.feed (a.emitElement catalog) g xs, ⟨none, none⟩) ∧
      xs.length < 2 ^ 32 ∧ ByteStream.writeU32 g xs.length = .ok g' ∧
      a.writeBinary catalog ⟨a.shape, .items xs⟩ g =
        (Cursor.feed (a.emitElement catalog) g' xs, some ⟨none, none⟩) := by
  intro a xs g g' c
  have hwalk := collection_walks_release (σ := GrowableStream) catalog a xs
  have hc : a.begin catalog ⟨a.shape, .items xs⟩ = .ok (some c) := rfl
  exact ⟨hc, (hwalk.2.1 _ _ (a.emitElement catalog) g c hc).1, by decide, rfl,
    hwalk.2.2.1 _ g g' (by decide) rfl⟩

end RecordWire
