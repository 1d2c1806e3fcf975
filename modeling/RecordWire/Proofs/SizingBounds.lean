import RecordWire.Proofs.Capacity
/-!
# Bounds of the sizing policy

The sizing policy of a growable stream mixes saturating sums, a round-down to the alignment
and a progress guard, for any configuration. Its bounds come from three facts about one growth
step: it moves forward and, from below a machine-word target, stays a machine word; it is
monotone, since each of its parts is; and it ends on the first capacity of the sequence `cap`,
`grow cap`, … that reaches the target. So a write leaves a capacity between its end and one
step from just below that end (`StreamConfig.growTo_le_max`).

Rounding up finds the least multiple of the alignment at or above a size whenever adding the
alignment does not saturate. A truncation of a stream whose capacity is a machine word gives
capacity back exactly when it exceeds twice the new length and the floor, and then keeps at
least the aligned length, so the bytes before the cursor stay as they were.

Main statement: `sizing_within_bounds`.
-/

namespace RecordWire

theorem satAdd_le_satAdd {a a' : Nat} (b : Nat) (h : a ≤ a') : satAdd a b ≤ satAdd a' b := by
  unfold satAdd
  omega

theorem satAdd_le_usizeMax (a b : Nat) : satAdd a b ≤ usizeMax := min_le_right _ _

namespace StreamConfig

variable (c : StreamConfig)

/-! ### One growth step -/

theorem alignDown_le (n : Nat) : c.alignDown n ≤ n := Nat.div_mul_le_self _ _

theorem alignDown_mono {m n : Nat} (h : m ≤ n) : c.alignDown m ≤ c.alignDown n :=
  Nat.mul_le_mul_right _ (Nat.div_le_div_right h)

/-- A growth step is monotone: the linear step, the half step and the rounding all are. -/
theorem grow_mono {a b : Nat} (h : a ≤ b) : c.grow a ≤ c.grow b := by
  have hlin := satAdd_le_satAdd (max c.linearGrowth 1) h
  have hhalf : satAdd (satAdd a (max c.linearGrowth 1)) (satAdd a (max c.linearGrowth 1) / 2) ≤
      satAdd (satAdd b (max c.linearGrowth 1)) (satAdd b (max c.linearGrowth 1) / 2) := by
    unfold satAdd at hlin ⊢
    omega
  rw [grow_eq, grow_eq]
  exact max_le_max (c.alignDown_mono hhalf) (Nat.succ_le_succ h)

theorem grow_le_usizeMax {cap : Nat} (h : cap < usizeMax) : c.grow cap ≤ usizeMax := by
  rw [grow_eq]
  exact max_le ((c.alignDown_le _).trans (satAdd_le_usizeMax _ _)) h

/-! ### Growing to a target -/

/-- Growing ends on the first capacity of the growth sequence that reaches the target. -/
theorem growTo_eq_iterate (cap target : Nat) :
    ∃ k, c.growTo cap target = c.grow^[k] cap ∧ ∀ j < k, c.grow^[j] cap < target := by
  fun_induction c.growTo cap target with
  | case1 cap hlt _ ih =>
    -- one step is taken here, the others from the grown capacity
    obtain ⟨k, heq, hbelow⟩ := ih
    refine ⟨k + 1, by rw [Function.iterate_succ_apply]; exact heq, fun j hj => ?_⟩
    cases j with
    | zero => exact hlt
    | succ j =>
      rw [Function.iterate_succ_apply]
      exact hbelow j (by omega)
  | case2 cap _ => exact ⟨0, rfl, fun j hj => absurd hj (Nat.not_lt_zero j)⟩

/-- Growing overshoots the target by at most one step from just below it. -/
theorem growTo_le_max (cap target : Nat) : c.growTo cap target ≤ max cap (c.grow (target - 1)) := by
  fun_induction c.growTo cap target with
  | case1 cap hlt _ ih =>
    -- the last step starts below the target, so monotonicity bounds it by the step from there
    have hstep : c.grow cap ≤ c.grow (target - 1) := c.grow_mono (by omega)
    exact ih.trans (max_le hstep le_rfl |>.trans (le_max_right _ _))
  | case2 cap _ => exact le_max_left _ _

/-! ### Rounding up -/

/-- Rounding up reaches `n` when the alignment is in effect and adding it does not saturate. -/
theorem le_roundUp_of_fits {n : Nat} (hpos : 0 < c.effectiveAlignment)
    (hn : n + (c.effectiveAlignment - 1) ≤ usizeMax) : n ≤ c.roundUp n := by
  have hsat : satAdd n (c.effectiveAlignment - 1) = n + (c.effectiveAlignment - 1) :=
    min_eq_left hn
  rw [roundUp, alignDown, hsat]
  have hdiv := Nat.div_add_mod' (n + (c.effectiveAlignment - 1)) c.effectiveAlignment
  have hmod := Nat.mod_lt (n + (c.effectiveAlignment - 1)) hpos
  omega

theorem roundUp_le_of_dvd {n m : Nat} (hpos : 0 < c.effectiveAlignment)
    (hm : c.effectiveAlignment ∣ m) (hnm : n ≤ m) : c.roundUp n ≤ m := by
  obtain ⟨q, rfl⟩ := hm
  -- the sum before rounding lies below the next multiple after `m`
  have hlt : n + (c.effectiveAlignment - 1) < (q + 1) * c.effectiveAlignment := by
    rw [Nat.succ_mul, Nat.mul_comm q]
    omega
  have hq : (n + (c.effectiveAlignment - 1)) / c.effectiveAlignment ≤ q :=
    Nat.lt_succ_iff.mp ((Nat.div_lt_iff_lt_mul hpos).2 hlt)
  calc c.roundUp n ≤ c.alignDown (n + (c.effectiveAlignment - 1)) :=
        c.alignDown_mono (min_le_left _ _)
    _ ≤ q * c.effectiveAlignment := Nat.mul_le_mul_right _ hq
    _ = c.effectiveAlignment * q := Nat.mul_comm _ _

/-- Where adding the alignment does not saturate, rounding up gives the least multiple of the
alignment at or above `n`. -/
theorem roundUp_isLeast {c : StreamConfig} (halign : c.alignment ≤ 2 ^ 63) {n : Nat}
    (hn : n + (c.effectiveAlignment - 1) ≤ usizeMax) :
    IsLeast {m | c.effectiveAlignment ∣ m ∧ n ≤ m} (c.roundUp n) := by
  have hpos := (effectiveAlignment_pos_le halign).1
  exact ⟨⟨c.dvd_roundUp n, c.le_roundUp_of_fits hpos hn⟩,
    fun m ⟨hdvd, hle⟩ => c.roundUp_le_of_dvd hpos hdvd hle⟩

end StreamConfig

/-! ### Truncation -/

namespace GrowableStream

variable {g : GrowableStream}

/-- For a capacity that is a machine word, the saturating double of the length is the double:
the capacity gives memory back exactly past twice the length and the floor. -/
theorem capacity_truncate_of_le (hcap : g.capacity ≤ usizeMax) :
    g.truncate.capacity =
      if 2 * g.pos < g.capacity ∧ g.config.shrinkFloor < g.capacity then
        min g.capacity (g.config.roundUp g.pos)
      else g.capacity := by
  have hdouble : min (2 * g.pos) usizeMax < g.capacity ↔ 2 * g.pos < g.capacity := by omega
  rw [capacity_truncate]
  simp only [hdouble]

/-- The capacity after a truncation covers the cursor: when it shrinks, the capacity was above
twice the cursor, so the cursor is below `2 ^ 63` and its aligned size covers it. -/
theorem pos_le_capacity_truncate (hg : g.Inv) (halign : g.config.alignment ≤ 2 ^ 63)
    (hcap : g.capacity ≤ usizeMax) : g.pos ≤ g.truncate.capacity := by
  have hcover : g.pos ≤ g.capacity := hg.pos_le.trans hg.size_le
  rw [capacity_truncate_of_le hcap]
  split_ifs with hshrink
  · have hsmall : g.pos ≤ 2 ^ 63 := by
      have := usizeMax_succ
      omega
    exact le_min hcover (g.config.le_roundUp halign hsmall)
  · exact hcover

theorem capacity_truncate_le_max (hcap : g.capacity ≤ usizeMax) :
    g.truncate.capacity ≤ max (2 * g.pos) (max g.config.shrinkFloor (g.config.roundUp g.pos)) := by
  rw [capacity_truncate_of_le hcap]
  split_ifs with hshrink <;> omega

end GrowableStream

/-! ### The policy's bounds -/

/-- What the sizing policy of `c` promises to every stream that uses it. -/
structure StreamConfig.KeepsBounds (c : StreamConfig) : Prop where
  /-- A growth step from below a machine-word target moves forward and stays a machine word. -/
  grow_step : ∀ cap target, cap < target → target ≤ usizeMax →
    cap < c.grow cap ∧ c.grow cap ≤ usizeMax
  /-- A write leaves as capacity the first one of the growth sequence from the old capacity
  that reaches the write's end: at least that end, and at most one step from just below it. -/
  write_capacity : ∀ g : GrowableStream, g.config = c → ∀ d : ByteArray,
    (∃ k, (g.writeBytes d).capacity = c.grow^[k] g.capacity ∧
      ∀ j < k, c.grow^[j] g.capacity < g.pos + d.size) ∧
    g.pos + d.size ≤ (g.writeBytes d).capacity ∧
    (g.writeBytes d).capacity ≤ max g.capacity (c.grow (g.pos + d.size - 1))
  /-- Rounding up gives the least multiple of the alignment at or above a size, wherever adding
  the alignment does not saturate. -/
  roundUp_least : ∀ n, n + (c.effectiveAlignment - 1) ≤ usizeMax →
    IsLeast {m | c.effectiveAlignment ∣ m ∧ n ≤ m} (c.roundUp n)
  /-- A truncation of a stream whose capacity is a machine word takes the capacity down to the
  aligned length exactly when it exceeds both twice the length and the floor. The capacity is
  then within the larger of these bounds, and the bytes before the cursor stay. -/
  truncate_capacity : ∀ g : GrowableStream, g.config = c → g.Inv → g.capacity ≤ usizeMax →
    g.truncate.capacity =
      (if 2 * g.pos < g.capacity ∧ c.shrinkFloor < g.capacity then
        min g.capacity (c.roundUp g.pos) else g.capacity) ∧
    g.truncate.capacity ≤ max (2 * g.pos) (max c.shrinkFloor (c.roundUp g.pos)) ∧
    g.truncate.bytes = g.bytes.extract 0 g.pos

/-- Every configuration whose alignment is at most `2 ^ 63` keeps the bounds of the sizing
policy, whatever its linear step and floor, and also for an alignment of zero or one that is no
power of two. -/
theorem sizing_within_bounds {c : StreamConfig} (halign : c.alignment ≤ 2 ^ 63) :
    c.KeepsBounds where
  grow_step cap target hlt htarget := ⟨c.lt_grow cap, c.grow_le_usizeMax (by omega)⟩
  write_capacity g hc d := by
    subst hc
    rw [GrowableStream.capacity_writeBytes]
    exact ⟨g.config.growTo_eq_iterate _ _, g.config.le_growTo _ _, g.config.growTo_le_max _ _⟩
  roundUp_least n hn := StreamConfig.roundUp_isLeast halign hn
  truncate_capacity g hc hg hcap := by
    subst hc
    exact ⟨GrowableStream.capacity_truncate_of_le hcap,
      GrowableStream.capacity_truncate_le_max hcap,
      GrowableStream.bytes_truncate_of_le hg
        (GrowableStream.pos_le_capacity_truncate hg halign hcap)⟩

/-- A configuration with no linear step, no floor and an alignment of 24, which is in effect
as 32, keeps the bounds. -/
theorem unaligned_config_keeps_bounds :
    ({ linearGrowth := 0, alignment := 24, shrinkFloor := 0 } : StreamConfig).alignment ≤ 2 ^ 63 ∧
      ({ linearGrowth := 0, alignment := 24, shrinkFloor := 0 } : StreamConfig).KeepsBounds :=
  ⟨by decide, sizing_within_bounds (by decide)⟩

end RecordWire
