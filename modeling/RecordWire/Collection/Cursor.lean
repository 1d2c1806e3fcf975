import RecordWire.Value
import RecordWire.Text.Escape
/-!
# Walks over collections

A cursor is an in-progress walk over a collection's elements: the element under it and the
elements still to come. It is released when the walk runs off the end or when it is released
on purpose, whichever comes first; releasing twice is harmless, and a released cursor has no
element and does not advance. An empty collection gives no cursor at all.

A collection writer's loop (`writeEach`) writes the element under the cursor and advances; at
the first write that fails it releases the cursor itself and stops.
-/

namespace RecordWire

/-- An in-progress walk over a collection. -/
structure Cursor where
  /-- The element under the cursor; none once released. -/
  current : Option Value
  /-- The elements still to come; none once released. -/
  upcoming : Option (List Value)
  deriving DecidableEq, Repr

namespace Cursor

/-- Starts a walk; none for an empty collection. -/
def start : List Value → Option Cursor
  | [] => none
  | x :: xs => some ⟨some x, some xs⟩

@[simp] theorem start_eq_none_iff {xs : List Value} : start xs = none ↔ xs = [] := by
  cases xs <;> simp [start]

/-- Drops the walk's state. -/
def release (_ : Cursor) : Cursor := ⟨none, none⟩

/-- Whether the walk has been released. -/
def isReleased (c : Cursor) : Bool := c.upcoming.isNone

@[simp] theorem release_current (c : Cursor) : c.release.current = none := rfl

@[simp] theorem isReleased_release (c : Cursor) : c.release.isReleased = true := rfl

/-- Releasing twice is releasing once. -/
@[simp] theorem release_release (c : Cursor) : c.release.release = c.release := rfl

/-- Moves to the next element; at the end, releases and answers `false`. -/
def advance (c : Cursor) : Bool × Cursor :=
  match c.upcoming with
  | some (x :: xs) => (true, ⟨some x, some xs⟩)
  | _ => (false, c.release)

/-- A released cursor does not advance. -/
@[simp] theorem advance_release (c : Cursor) : c.release.advance = (false, c.release) := rfl

/-- A step that moves on leaves one element fewer to come. -/
theorem advance_eq_true {c c' : Cursor} (h : c.advance = (true, c')) :
    ∃ x xs, c.upcoming = some (x :: xs) ∧ c' = ⟨some x, some xs⟩ := by
  unfold advance at h
  split at h
  · next x xs hu => exact ⟨x, xs, hu, (Prod.mk.inj h).2.symm⟩
  · cases h

theorem length_upcoming_advance_lt {c c' : Cursor} (h : c.advance = (true, c')) :
    (c'.upcoming.getD []).length < (c.upcoming.getD []).length := by
  obtain ⟨x, xs, hu, rfl⟩ := advance_eq_true h
  simp [hu]

/-- The loop of a collection writer, from cursor `c`: writes the element under the cursor with
`write`, then advances, until the walk runs off the end. The first write that fails ends the
loop, and the cursor is cleaned up on that path too. Answers the output, the failure if any, and
the cursor the loop leaves. -/
def writeEach {σ ε : Type} (write : σ → Value → σ × Option ε) (out : σ) (c : Cursor) :
    (σ × Option ε) × Cursor :=
  -- a cursor without an element writes nothing and goes on advancing
  match c.current.elim (out, none) (write out) with
  | (out, some e) => ((out, some e), c.release)
  | (out, none) =>
    match h : c.advance with
    | (true, c') =>
      have := length_upcoming_advance_lt h
      writeEach write out c'
    | (false, c') => ((out, none), c')
termination_by (c.upcoming.getD []).length

/-- The inspection text of a cursor. -/
def inspect (c : Cursor) : String :=
  "Cursor \x7b released: " ++ toString c.isReleased ++ " \x7d"

/-- Walks on from `c`, rendering each element with `render`, and releases the cursor once
`limit` elements were seen, if there is a limit (a limit of zero acts as one), or when it runs
out. Answers the rendered elements, whether the cursor ran out, and the cursor. -/
def walk (render : Value → String) (limit : Option Nat) (c : Cursor) :
    List String × Bool × Cursor :=
  go (c.upcoming.getD []).length 1 c
where
  /-- `seen` elements were seen before the current one; `fuel` bounds the elements left. -/
  go : Nat → Nat → Cursor → List String × Bool × Cursor
    | fuel, seen, c =>
      let here := (c.current.map render).toList
      if limit.any (· ≤ seen) then (here, false, c.release)
      else
        match c.advance, fuel with
        | (true, c'), fuel + 1 =>
          let (rest, ranOut, c'') := go fuel (seen + 1) c'
          (here ++ rest, ranOut, c'')
        | (_, c'), _ => (here, true, c')

end Cursor

end RecordWire
