/-!
# Sizing policy of a growable stream

A growable stream keeps a physical capacity at least as large as its logical content. The
capacity grows by a linear step plus half, rounded down to the alignment and always by at least
one byte, and shrinks back to the aligned content length when it holds more than twice the
content and more than a floor. Machine words saturate at `usizeMax`, as the arithmetic here
does. The alignment in effect is the next power of two of the configured one, taken as a
machine word.
-/

namespace RecordWire

/-- The largest machine word: sizes saturate here. -/
def usizeMax : Nat := Nat.pow 2 64 - 1

/-- Addition that stops at `usizeMax`. -/
def satAdd (a b : Nat) : Nat := min (a + b) usizeMax

/-- The least power of two that is at least `n` (one for zero). -/
def nextPowerOfTwo (n : Nat) : Nat := go n 1
where
  /-- Doubles `p` until it reaches `n`; `n - p` shrinks each step. -/
  go (n p : Nat) : Nat :=
    if h : p < n ∧ 0 < p then go n (2 * p) else p
  termination_by n - p
  decreasing_by omega

/-- The tuning of a growable stream. -/
structure StreamConfig where
  /-- Bytes added before the half-step growth. -/
  linearGrowth : Nat := 64
  /-- Requested alignment of the capacity. -/
  alignment : Nat := 32
  /-- Capacities at or below this never shrink. -/
  shrinkFloor : Nat := 2048
  deriving DecidableEq, Repr

namespace StreamConfig

/-- The alignment in effect: the configured one, at least one, up to a power of two. That power
is a machine word, so a request above `2 ^ 63` wraps to zero, and then every aligned size is
zero too. -/
def effectiveAlignment (c : StreamConfig) : Nat :=
  nextPowerOfTwo (max c.alignment 1) % (usizeMax + 1)

/-- Clears the bits below the effective alignment; an alignment of zero clears them all. -/
def alignDown (c : StreamConfig) (n : Nat) : Nat :=
  n / c.effectiveAlignment * c.effectiveAlignment

/-- The least multiple of the alignment at or above `n`, saturating. -/
def roundUp (c : StreamConfig) (n : Nat) : Nat :=
  c.alignDown (satAdd n (c.effectiveAlignment - 1))

/-- One growth step from capacity `cap`: linear step, then half again, aligned down, and at
least one byte more than before. -/
def grow (c : StreamConfig) (cap : Nat) : Nat :=
  let next := satAdd cap (max c.linearGrowth 1)
  let next := satAdd next (next / 2)
  max (c.alignDown next) (cap + 1)

theorem lt_grow (c : StreamConfig) (cap : Nat) : cap < c.grow cap :=
  Nat.lt_of_lt_of_le (Nat.lt_succ_self cap) (Nat.le_max_right _ _)

/-- The first capacity at least `target` in the sequence `cap`, `grow cap`, … -/
def growTo (c : StreamConfig) (cap target : Nat) : Nat :=
  if cap < target then
    have := c.lt_grow cap
    c.growTo (c.grow cap) target
  else cap
termination_by target - cap

theorem le_growTo (c : StreamConfig) (cap target : Nat) : target ≤ c.growTo cap target := by
  fun_induction c.growTo cap target with
  | case1 cap _ _ ih => exact ih
  | case2 cap h => omega

end StreamConfig

end RecordWire
