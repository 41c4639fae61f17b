import GameService.Timer

/-!
# How long the loop sleeps

`WorldUpdateLoop` is to go round once in `const_world_sleep` milliseconds.  The
difference between two readings of the clock has the previous sleep in it, so an
iteration adds that to `const_world_sleep` and sleeps for what the difference
leaves of both.  Nothing keeps this below `const_world_sleep`: a difference that is
smaller than the previous sleep makes the next one longer.  The clock is
`system_clock`, which can be put back; `GetTimeDiff` takes that for the end of its
range, and its unsigned result becomes a negative `int32_t`.

`rests_iff` is the condition on one iteration and `rests_iff_slept` the one on a
run: the sleeps are in range if and only if the clock never shows less than the loop
has slept.
-/

namespace GameService.WorldUpdateLoop

open Lib

/-- What an iteration passes to `sleep_for`, when it sleeps. -/
def sleepFor (s : WorldUpdateLoop) (now : ℤ) : Option ℤ := do
  let diff ← getTimeDiff s.prevTime (getTime now)
  let limit ← checked32 (constWorldSleep + s.prevSleepTime)
  if diff ≤ limit then checked32 (limit - diff) else none

/-- A sleep of `0` to `const_world_sleep` milliseconds. -/
def InRange (milliseconds : ℤ) : Prop := 0 ≤ milliseconds ∧ milliseconds ≤ constWorldSleep

/-- **What is asked of an iteration**: that it is defined, requests no sleep out of
range, and leaves `prev_sleep_time` in range. -/
def Rests (s : WorldUpdateLoop) (now : ℤ) : Prop :=
  ∃ s', iterate s now = some s' ∧ InRange s'.prevSleepTime ∧
    ∀ milliseconds, s.sleepFor now = some milliseconds → InRange milliseconds

/-- The clock shows that at least the previous sleep has passed. -/
def Slept (s : WorldUpdateLoop) (now : ℤ) : Prop :=
  ∃ diff, getTimeDiff s.prevTime (getTime now) = some diff ∧ s.prevSleepTime ≤ diff

variable {s s' : WorldUpdateLoop} {now diff : ℤ}

/-- **What an iteration sleeps**, for a difference and a limit that are defined: what
the difference leaves of the limit, or nothing when it is past it. -/
theorem iterate_prevSleepTime (hdiff : getTimeDiff s.prevTime (getTime now) = some diff)
    (hlimit : InInt32 (constWorldSleep + s.prevSleepTime)) :
    (iterate s now).map (·.prevSleepTime) =
        (if diff ≤ constWorldSleep + s.prevSleepTime then
          checked32 (constWorldSleep + s.prevSleepTime - diff) else some 0) ∧
      s.sleepFor now = if diff ≤ constWorldSleep + s.prevSleepTime then
        checked32 (constWorldSleep + s.prevSleepTime - diff) else none := by
  have hchecked := checked32_eq_some.mpr ⟨hlimit, rfl⟩
  constructor
  · simp only [iterate, hdiff, Option.bind_eq_bind, Option.bind_some, hchecked]
    split
    · cases checked32 (constWorldSleep + s.prevSleepTime - diff) <;> rfl
    · rfl
  · simp only [sleepFor, hdiff, Option.bind_eq_bind, Option.bind_some, hchecked]

/-- **One iteration** from a state in range is as it should be if and only if the
clock shows that the previous sleep has passed. -/
theorem rests_iff (hs : InRange s.prevSleepTime) : Rests s now ↔ Slept s now := by
  have hconst : constWorldSleep = 50 := rfl
  obtain ⟨h0, h50⟩ := hs
  cases hdiff : getTimeDiff s.prevTime (getTime now) with
  | none =>
    refine iff_of_false ?_ ?_
    · rintro ⟨s', hs', -⟩
      obtain ⟨diff, hd, -⟩ := iterate_eq_some hs'
      rw [hdiff] at hd
      cases hd
    · rintro ⟨diff, hd, -⟩
      rw [hdiff] at hd
      cases hd
  | some diff =>
    have hlimit : InInt32 (constWorldSleep + s.prevSleepTime) := ⟨by omega, by omega⟩
    obtain ⟨hprev, hsleep⟩ := iterate_prevSleepTime hdiff hlimit
    have hslept : Slept s now ↔ s.prevSleepTime ≤ diff := by
      simp only [Slept, hdiff, Option.some.injEq, exists_eq_left']
    rw [hslept]
    by_cases hle : diff ≤ constWorldSleep + s.prevSleepTime
    · rw [if_pos hle] at hprev hsleep
      constructor
      · rintro ⟨s', hs', ⟨-, hmax⟩, -⟩
        rw [hs', Option.map_some, eq_comm, checked32_eq_some] at hprev
        omega
      · intro hge
        have hin : InInt32 (constWorldSleep + s.prevSleepTime - diff) := ⟨by omega, by omega⟩
        have hrange : InRange (constWorldSleep + s.prevSleepTime - diff) := ⟨by omega, by omega⟩
        rw [checked32_eq_some.mpr ⟨hin, rfl⟩] at hprev hsleep
        obtain ⟨s', hs', hsleep'⟩ := Option.map_eq_some_iff.mp hprev
        refine ⟨s', hs', hsleep' ▸ hrange, fun milliseconds h => ?_⟩
        rw [hsleep, Option.some.injEq] at h
        exact h ▸ hrange
    · -- the iteration took longer than it may: it does not sleep
      rw [if_neg hle] at hprev hsleep
      obtain ⟨s', hs', hzero⟩ := Option.map_eq_some_iff.mp hprev
      refine iff_of_true ⟨s', hs', ?_, fun milliseconds h => ?_⟩ (by omega)
      · exact hzero ▸ ⟨le_refl 0, by omega⟩
      · rw [hsleep] at h
        cases h

theorem inRange_start (began : ℤ) : InRange (start began).prevSleepTime := by
  show 0 ≤ (0 : ℤ) ∧ (0 : ℤ) ≤ constWorldSleep
  decide

/-- **When the sleeps are in range.**  In a run with any readings of the clock, every
iteration is defined, requests a sleep between `0` and `const_world_sleep` if any,
and leaves `prev_sleep_time` there, if and only if at each the clock shows that at
least the previous sleep has passed. -/
theorem rests_iff_slept (began : ℤ) (times : List ℤ) :
    AtEach iterate Rests (start began) times ↔ AtEach iterate Slept (start began) times := by
  have hkeep : ∀ (s : WorldUpdateLoop) now s', InRange s.prevSleepTime → Rests s now →
      iterate s now = some s' → InRange s'.prevSleepTime := by
    rintro s now s' - ⟨s'', hs'', hrange, -⟩ hs'
    obtain rfl : s'' = s' := Option.some.inj (hs''.symm.trans hs')
    exact hrange
  have hiff : ∀ (s : WorldUpdateLoop) now, InRange s.prevSleepTime → (Rests s now ↔ Slept s now) :=
    fun _ _ hs => rests_iff hs
  exact atEach_congr_of_base hiff hkeep times (start began) (inRange_start began)

/-- The clock is put back by `10` milliseconds between the first two readings, and
the loop sleeps for `61`. -/
theorem putBack_not_rests : (start 1000).sleepFor 990 = some 61 ∧
    ¬ AtEach iterate Rests (start 1000) [990] := by
  refine ⟨by decide, fun h => ?_⟩
  obtain ⟨diff, hdiff, hle⟩ := (rests_iff (inRange_start 1000)).mp h.1
  have hback : getTimeDiff (start 1000).prevTime (getTime 990) = some (-11) := by decide
  rw [hback, Option.some.injEq] at hdiff
  subst hdiff
  exact absurd hle (by decide)

end GameService.WorldUpdateLoop
