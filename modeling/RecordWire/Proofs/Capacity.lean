import RecordWire.Proofs.StreamCursor
/-!
# Aligned capacities

The sizing policy of a growable stream means its physical size to be a multiple of the
alignment in effect. Rounding makes multiples, and both the shrink of a truncation and the
capacity of a clone come from rounding up, so they keep that. A growth step rounds down and
then takes at least one byte more than before. From an aligned capacity the rounded size has
moved on exactly when the step before rounding reaches the next multiple; the step grows with
the capacity, so this holds everywhere as soon as it holds for the smallest step, the linear
step and half of it from an empty buffer (`StreamConfig.firstStep`).

So the capacity stays a multiple of the alignment through every run of a stream made with a
configuration exactly when the alignment is in effect, at most `2 ^ 63`, and the first step
reaches it (`capacity_aligned_iff`). With a shorter first step the first write leaves a
capacity of one byte, and a wider alignment wraps to zero, of which one byte is no multiple
either. Runs are bounded as for the cursor: at most `2 ^ 63` bytes written.
-/

namespace RecordWire

namespace StreamConfig

variable (c : StreamConfig)

/-- The growth from an empty buffer before rounding: the linear step and half of it. -/
def firstStep : Nat := max c.linearGrowth 1 + max c.linearGrowth 1 / 2

/-- The alignment is in effect and the first growth step reaches it, so that no growth step
from an aligned capacity falls back on the one byte it adds at least. -/
structure GrowsAligned : Prop where
  align : c.alignment ≤ 2 ^ 63
  step : c.effectiveAlignment ≤ c.firstStep

instance : Decidable c.GrowsAligned :=
  decidable_of_iff (c.alignment ≤ 2 ^ 63 ∧ c.effectiveAlignment ≤ c.firstStep)
    ⟨fun h => ⟨h.1, h.2⟩, fun h => ⟨h.align, h.step⟩⟩

theorem dvd_alignDown (n : Nat) : c.effectiveAlignment ∣ c.alignDown n :=
  Nat.dvd_mul_left _ _

theorem dvd_roundUp (n : Nat) : c.effectiveAlignment ∣ c.roundUp n :=
  c.dvd_alignDown _

theorem le_alignDown {m n : Nat} (hm : c.effectiveAlignment ∣ m) (h : m ≤ n) :
    m ≤ c.alignDown n := by
  obtain ⟨q, rfl⟩ := hm
  rcases Nat.eq_zero_or_pos c.effectiveAlignment with h0 | hpos
  · simp [h0]
  · have hq : q ≤ n / c.effectiveAlignment :=
      (Nat.le_div_iff_mul_le hpos).2 (by rw [Nat.mul_comm]; exact h)
    calc c.effectiveAlignment * q = q * c.effectiveAlignment := Nat.mul_comm _ _
      _ ≤ n / c.effectiveAlignment * c.effectiveAlignment := Nat.mul_le_mul_right _ hq

theorem grow_eq (cap : Nat) :
    c.grow cap = max (c.alignDown (satAdd (satAdd cap (max c.linearGrowth 1))
      (satAdd cap (max c.linearGrowth 1) / 2))) (cap + 1) := rfl

/-- From an aligned capacity below `2 ^ 63`, a growth step lands on a multiple of the
alignment when the first step reaches it. -/
theorem dvd_grow {c : StreamConfig} (hc : c.GrowsAligned) {cap : Nat}
    (hcap : c.effectiveAlignment ∣ cap) (hlt : cap < 2 ^ 63) :
    c.effectiveAlignment ∣ c.grow cap := by
  obtain ⟨hpos, hle⟩ := effectiveAlignment_pos_le hc.align
  -- before rounding the step reaches the next multiple, also where it saturates
  have hreach : cap + c.effectiveAlignment ≤ satAdd (satAdd cap (max c.linearGrowth 1))
      (satAdd cap (max c.linearGrowth 1) / 2) := by
    have hstep := hc.step
    have hmax := usizeMax_succ
    simp only [firstStep] at hstep
    simp only [satAdd]
    omega
  have hdown := c.le_alignDown (Nat.dvd_add hcap (Nat.dvd_refl _)) hreach
  rw [grow_eq, max_eq_left (by omega)]
  exact c.dvd_alignDown _

/-- Growing from an aligned capacity towards at most `2 ^ 63` bytes ends aligned. -/
theorem dvd_growTo {c : StreamConfig} (hc : c.GrowsAligned) {cap target : Nat}
    (hcap : c.effectiveAlignment ∣ cap) (htarget : target ≤ 2 ^ 63) :
    c.effectiveAlignment ∣ c.growTo cap target := by
  fun_induction c.growTo cap target with
  | case1 cap hlt _ ih => exact ih (dvd_grow hc hcap (by omega))
  | case2 cap _ => exact hcap

theorem growTo_of_le {cap target : Nat} (h : target ≤ cap) : c.growTo cap target = cap := by
  rw [growTo, if_neg (by omega)]

theorem growTo_of_lt {cap target : Nat} (h : cap < target) :
    c.growTo cap target = c.growTo (c.grow cap) target := by
  rw [growTo, if_pos h]

/-- A configuration whose alignment is not in effect, or whose first step falls short of it,
grows an empty buffer to a single byte. -/
theorem grow_zero_of_not_growsAligned {c : StreamConfig} (hc : ¬ c.GrowsAligned) :
    c.grow 0 = 1 ∧ ¬ c.effectiveAlignment ∣ 1 := by
  by_cases halign : c.alignment ≤ 2 ^ 63
  · obtain ⟨-, hle⟩ := effectiveAlignment_pos_le halign
    have hshort : c.firstStep < c.effectiveAlignment := by
      by_contra hge
      exact hc ⟨halign, by omega⟩
    -- the first step stays below the alignment, so rounding takes all of it back
    have hsat : satAdd (satAdd 0 (max c.linearGrowth 1)) (satAdd 0 (max c.linearGrowth 1) / 2) =
        c.firstStep := by
      have hmax := usizeMax_succ
      simp only [firstStep] at hshort ⊢
      simp only [satAdd]
      omega
    have hzero : c.alignDown c.firstStep = 0 := by
      rw [alignDown, Nat.div_eq_of_lt hshort, Nat.zero_mul]
    refine ⟨by rw [grow_eq, hsat, hzero]; rfl, fun hdvd => ?_⟩
    have hone := Nat.le_of_dvd Nat.one_pos hdvd
    simp only [firstStep] at hshort
    omega
  · -- a wider alignment wraps to zero, and rounding to zero gives nothing
    have hA := effectiveAlignment_eq_zero (Nat.lt_of_not_le halign)
    refine ⟨by rw [grow_eq, alignDown, hA, Nat.mul_zero]; rfl, ?_⟩
    rw [hA, Nat.zero_dvd]
    exact Nat.one_ne_zero

end StreamConfig

namespace GrowableStream

/-- The capacity is a multiple of the alignment in effect. -/
def Aligned (g : GrowableStream) : Prop := g.config.effectiveAlignment ∣ g.capacity

theorem Aligned.truncate {g : GrowableStream} (hg : g.Aligned) : g.truncate.Aligned := by
  unfold Aligned
  rw [config_truncate, capacity_truncate]
  split_ifs
  · rcases Nat.le_total g.capacity (g.config.roundUp g.pos) with h | h
    · rw [min_eq_left h]; exact hg
    · rw [min_eq_right h]; exact g.config.dvd_roundUp _
  · exact hg

section Steps

variable {g : GrowableStream} {op : GrowOp} {ops : List GrowOp}

/-- Every call keeps the capacity aligned, when the configuration grows aligned and the calls
stay within the budget. -/
theorem Aligned.call (hfit : Fits (op :: ops) g) (hc : g.config.GrowsAligned) (hg : g.Aligned) :
    (g.call op).2.Aligned := by
  rcases op with ((d | n | q) | _ | _ | _)
  · -- a write grows towards its end, which lies within the budget
    have hbudget := hfit.size
    have hpos := hfit.inv.pos_le
    simp only [List.map_cons, List.sum_cons, GrowOp.written] at hbudget
    rw [call_write, Aligned, config_writeBytes, capacity_writeBytes]
    exact StreamConfig.dvd_growTo hc hg (by rw [List.size_toByteArray]; omega)
  · rw [GrowableStream.call, ByteStream.call_read_state]
    split_ifs <;> exact hg
  · rw [GrowableStream.call, ByteStream.call_seek_state]
    split_ifs <;> exact hg
  · exact hg.truncate
  · exact hg
  · -- a clone's buffer is the aligned length, which covers the bytes
    have hround := g.config.le_roundUp hc.align (by simpa using hfit.size_le)
    show g.config.effectiveAlignment ∣ g.clone.capacity
    rw [capacity_clone, Nat.add_sub_cancel' hround]
    exact g.config.dvd_roundUp _

end Steps

end GrowableStream

open GrowableStream in
/-- A stream made with a configuration keeps its capacity a multiple of the alignment in effect
through every run of writes, reads, seeks, truncations, clears and clones that writes at most
`2 ^ 63` bytes, exactly when the alignment is at most `2 ^ 63` and the linear step with half
of it again reaches the alignment in effect. -/
theorem capacity_aligned_iff (c : StreamConfig) :
    (∀ ops : List GrowOp, (ops.map GrowOp.written).sum ≤ 2 ^ 63 →
      c.effectiveAlignment ∣ (runOps GrowableStream.call (withConfig c) ops).2.capacity) ↔
    c.GrowsAligned := by
  constructor
  · -- one byte written grows an empty buffer by one step, to a single byte
    intro hall
    by_contra hc
    obtain ⟨hgrow, hnot⟩ := StreamConfig.grow_zero_of_not_growsAligned hc
    have hcap :
        (runOps GrowableStream.call (withConfig c) [.stream (.write [0])]).2.capacity = 1 := by
      show ((withConfig c).writeBytes [(0 : UInt8)].toByteArray).capacity = 1
      rw [capacity_writeBytes, List.size_toByteArray]
      show c.growTo 0 (0 + 1) = 1
      rw [c.growTo_of_lt (by decide), hgrow, c.growTo_of_le (by decide)]
    exact hnot (hcap ▸ hall [.stream (.write [0])] (by decide))
  · -- the budget, the configuration and the alignment are kept call by call
    intro hc ops hfit
    let P : List GrowOp → GrowableStream → Prop := fun ops g =>
      Fits ops g ∧ g.config = c ∧ g.Aligned
    have hstep : ∀ g op ops, P (op :: ops) g → P ops (g.call op).2 := by
      rintro g op ops ⟨hfits, rfl, hg⟩
      exact ⟨hfits.call, config_call op, hg.call hfits hc⟩
    have hstart : P ops (withConfig c) :=
      ⟨⟨(Fresh.withConfig c).inv, hc.align, by simpa [withConfig] using hfit⟩, rfl,
        Nat.dvd_zero _⟩
    obtain ⟨-, hconfig, hal⟩ := runOps_invariant P hstep hstart
    rw [Aligned, hconfig] at hal
    exact hal

/-- A plain new stream, aligned to 32 bytes with a linear step of 64, keeps its capacity a
multiple of 32; with a linear step of one byte, a step and a half of it falls short of 32 and it
does not. -/
theorem new_stream_capacity_aligned :
    (∀ ops : List GrowOp, (ops.map GrowOp.written).sum ≤ 2 ^ 63 →
      32 ∣ (runOps GrowableStream.call (GrowableStream.withConfig {}) ops).2.capacity) ∧
    ¬ (∀ ops : List GrowOp, (ops.map GrowOp.written).sum ≤ 2 ^ 63 →
      32 ∣ (runOps GrowableStream.call (GrowableStream.withConfig { linearGrowth := 1 })
        ops).2.capacity) := by
  have hnew : ({} : StreamConfig).effectiveAlignment = 32 := by decide +kernel
  have hshort : ({ linearGrowth := 1 } : StreamConfig).effectiveAlignment = 32 := by decide +kernel
  constructor
  · have h := (capacity_aligned_iff {}).2 (by decide +kernel)
    rwa [hnew] at h
  · intro hall
    have h : ({ linearGrowth := 1 } : StreamConfig).GrowsAligned :=
      (capacity_aligned_iff _).1 (by rw [hshort]; exact hall)
    revert h
    decide +kernel

end RecordWire
