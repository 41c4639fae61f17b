import GameService.Lib.FixedWidth
import GameService.Lib.Run
import Mathlib.Data.Int.ModEq

/-!
# Interval timers

`IntervalTimer` of `Timer.h` adds up what is passed to `Update`, and `Reset` takes
whole intervals off, by a remainder, so that what is over counts for the next
interval.  The remainder is taken when `_current >= _interval`, which is so of a
timer whose interval is `0`, as it is before the first `SetInterval`: `Reset` then
divides by zero.

`InPhase` is what the timer is for, and `inPhase_iff` says that a run of operations
from a new timer keeps to it if and only if no `Reset` in it finds an interval of
`0`.  Intervals and differences are not negative here; a sum that overflows `time_t`
ends a run.
-/

namespace GameService

open Lib

structure IntervalTimer where
  interval : ℤ := 0
  current : ℤ := 0
  deriving DecidableEq

namespace IntervalTimer

def new : IntervalTimer := {}

def update (diff : ℤ) (t : IntervalTimer) : Option IntervalTimer := do
  let current ← checked64 (t.current + diff)
  return { t with current := if current < 0 then 0 else current }

/-- `Reset`, undefined when it divides by zero. -/
def reset (t : IntervalTimer) : Option IntervalTimer :=
  if t.current ≥ t.interval then
    if t.interval = 0 then none else some { t with current := t.current.tmod t.interval }
  else some t

def setInterval (interval : ℤ) (t : IntervalTimer) : IntervalTimer := { t with interval }

inductive Operation
  | setInterval (interval : ℕ)
  | update (diff : ℕ)
  | reset
  deriving DecidableEq

def step (t : IntervalTimer) : Operation → Option IntervalTimer
  | .setInterval interval => some (t.setInterval interval)
  | .update diff => t.update diff
  | .reset => t.reset

def Operation.diff : Operation → ℤ
  | .update diff => diff
  | _ => 0

def Operation.Keeps (interval : ℤ) (op : Operation) : Prop :=
  ∀ i : ℕ, op = .setInterval i → i = interval

/-- **What the timer is for.**  `Reset` never divides by zero; wherever the interval is
not changed, `GetCurrent` changes by the sum of the differences, up to whole intervals;
and after a `Reset` it is less than one. -/
structure InPhase (ops : List Operation) : Prop where
  defined : AtEach step (fun t op => op = .reset → (step t op).isSome) new ops
  phase : ∀ before part after t t', ops = before ++ part ++ after →
    run step new before = some t → run step t part = some t' →
    (∀ op ∈ part, op.Keeps t.interval) →
    t'.current - t.current ≡ (part.map Operation.diff).sum [ZMOD t.interval]
  reset : Along step
    (fun _ op t' => op = .reset → 0 ≤ t'.current ∧ t'.current < t'.interval) new ops

/-- What holds of a timer in every run. -/
structure Sound (t : IntervalTimer) : Prop where
  interval : 0 ≤ t.interval
  current : 0 ≤ t.current

variable {t t' : IntervalTimer} {op : Operation} {diff : ℕ}

theorem sound_new : Sound new := ⟨le_refl 0, le_refl 0⟩

/-! ### One operation -/

theorem update_eq_some (h : Sound t) (hs : t.update diff = some t') :
    t' = { t with current := t.current + diff } := by
  obtain ⟨current, hc, ht⟩ := Option.bind_eq_some_iff.mp hs
  obtain ⟨-, rfl⟩ := checked64_eq_some.mp hc
  have hpos : ¬ t.current + diff < 0 := by
    have := h.current
    omega
  rw [if_neg hpos] at ht
  exact (Option.some.inj ht).symm

/-- **`Reset`** is defined if and only if the interval is not `0`. -/
theorem isSome_reset_iff (h : Sound t) : t.reset.isSome ↔ t.interval ≠ 0 := by
  have hcurrent := h.current
  rw [reset]
  split
  · split <;> simp_all
  · simp only [Option.isSome_some, true_iff]
    omega

theorem reset_eq_some (h : Sound t) (hs : t.reset = some t') :
    t.interval ≠ 0 ∧ t' = { t with current := t.current % t.interval } := by
  have hne : t.interval ≠ 0 := (isSome_reset_iff h).mp (hs ▸ rfl)
  refine ⟨hne, ?_⟩
  rw [reset, if_neg hne] at hs
  by_cases hge : t.current ≥ t.interval
  · rw [if_pos hge, Option.some.injEq, Int.tmod_eq_emod_of_nonneg h.current] at hs
    exact hs.symm
  · rw [if_neg hge, Option.some.injEq] at hs
    rw [Int.emod_eq_of_lt h.current (not_le.mp hge)]
    exact hs.symm

theorem reset_lt (h : Sound t) (hs : t.reset = some t') :
    0 ≤ t'.current ∧ t'.current < t'.interval := by
  obtain ⟨hne, rfl⟩ := reset_eq_some h hs
  have hpos : 0 < t.interval := lt_of_le_of_ne h.interval (Ne.symm hne)
  exact ⟨Int.emod_nonneg _ hne, Int.emod_lt_of_pos _ hpos⟩

theorem Sound.of_step (h : Sound t) (hs : step t op = some t') : Sound t' := by
  cases op with
  | setInterval i =>
    cases hs
    exact ⟨Int.natCast_nonneg i, h.current⟩
  | update diff =>
    rw [update_eq_some h hs]
    exact ⟨h.interval, add_nonneg h.current (Int.natCast_nonneg diff)⟩
  | reset =>
    have hlt := reset_lt h hs
    obtain ⟨-, rfl⟩ := reset_eq_some h hs
    exact ⟨h.interval, hlt.1⟩

/-- **An operation keeps the phase.** -/
theorem step_phase (h : Sound t) (hs : step t op = some t') (hk : op.Keeps t.interval) :
    t'.interval = t.interval ∧ t'.current ≡ t.current + op.diff [ZMOD t.interval] := by
  cases op with
  | setInterval i =>
    cases hs
    refine ⟨hk i rfl, ?_⟩
    show t.current ≡ t.current + 0 [ZMOD t.interval]
    rw [add_zero]
  | update diff =>
    rw [update_eq_some h hs]
    exact ⟨rfl, Int.ModEq.refl _⟩
  | reset =>
    obtain ⟨-, rfl⟩ := reset_eq_some h hs
    refine ⟨rfl, ?_⟩
    show t.current % t.interval ≡ t.current + 0 [ZMOD t.interval]
    rw [add_zero]
    exact Int.mod_modEq _ _

/-! ### Runs -/

theorem always_sound (ops : List Operation) : Always step Sound new ops :=
  always_of_step (fun _ _ _ h hs => h.of_step hs) ops new sound_new

theorem run_phase : ∀ (part : List Operation) (t t' : IntervalTimer), Sound t →
    run step t part = some t' → (∀ op ∈ part, op.Keeps t.interval) →
    t'.current - t.current ≡ (part.map Operation.diff).sum [ZMOD t.interval] := by
  intro part
  induction part with
  | nil =>
    intro t t' _ hr _
    cases hr
    rw [sub_self]
    rfl
  | cons op part ih =>
    intro t t' h hr hk
    obtain ⟨u, hu, hr⟩ := Option.bind_eq_some_iff.mp hr
    obtain ⟨hinterval, hphase⟩ := step_phase h hu (hk op List.mem_cons_self)
    have hrest := ih u t' (h.of_step hu) hr fun op' hop => by
      rw [hinterval]
      exact hk op' (List.mem_cons_of_mem op hop)
    rw [hinterval] at hrest
    rw [List.map_cons, List.sum_cons]
    have hsum : t'.current - u.current + u.current ≡
        (part.map Operation.diff).sum + (t.current + op.diff) [ZMOD t.interval] :=
      hrest.add hphase
    calc t'.current - t.current = t'.current - u.current + u.current - t.current := by omega
      _ ≡ (part.map Operation.diff).sum + (t.current + op.diff) - t.current [ZMOD t.interval] :=
          hsum.sub_right _
      _ = op.diff + (part.map Operation.diff).sum := by omega

/-- **When the timer keeps to its phase.**  In a run of operations on a new timer, if
and only if no `Reset` finds an interval of `0`. -/
theorem inPhase_iff (ops : List Operation) :
    InPhase ops ↔ AtEach step (fun t op => op = .reset → t.interval ≠ 0) new ops := by
  have hiff : ∀ t op, Sound t →
      ((op = .reset → (step t op).isSome) ↔ (op = .reset → t.interval ≠ 0)) := by
    intro t op h
    refine forall_congr' ?_
    rintro rfl
    exact isSome_reset_iff h
  have hkeep : ∀ t op t', Sound t → (op = .reset → (step t op).isSome) → step t op = some t' →
      Sound t' := fun _ _ _ h _ hs => h.of_step hs
  rw [← atEach_congr_of_base hiff hkeep ops new sound_new]
  refine ⟨InPhase.defined, fun h => ⟨h, ?_, ?_⟩⟩
  · intro before part after t t' _ hbefore hpart hk
    exact run_phase part t t' ((always_sound before).last _ _ hbefore) hpart hk
  · refine along_of_always (fun t op t' ht hs _ hop => ?_) ops new (always_sound ops)
    subst hop
    exact reset_lt ht hs

theorem fresh_not_inPhase : ¬ InPhase [.reset] := by
  intro h
  exact absurd (h.defined.1 rfl) (by decide)

end IntervalTimer

end GameService
