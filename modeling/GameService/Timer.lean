import GameService.Lib.FixedWidth
import GameService.Lib.Run

/-!
# The world's clock

`Timer.h` and the loop of `Main.cpp`.  `GetTime` gives the milliseconds since the
start as an `int32_t`, which goes round after 2^32 of them, for the first time
after some 25 days.  `GetTimeDiff` takes a new time that is smaller than the old
one for a sign that this has happened, and then adds what is left to `0xFFFFFFFF`
and the new time.  From the old time to `0xFFFFFFFF` and on to the new one it is
one millisecond more than that: the step from `0xFFFFFFFF` to `0` is not counted.

`getTimeDiff_eq` says what the difference is on either side, and
`exact_iff_unwrapped` adds this up over the iterations of the loop.
-/

namespace GameService

open Lib

/-- `GetTime`, when `milliseconds` have passed since the start. -/
def getTime (milliseconds : ℤ) : ℤ := wrap32 milliseconds

/-- `GetTimeDiff`.  The constant is unsigned and makes the branch unsigned. -/
def getTimeDiff (oldTime newTime : ℤ) : Option ℤ :=
  if oldTime > newTime then
    some (wrap32 (wrapU32 (wrapU32 (0xFFFFFFFF - wrapU32 oldTime) + wrapU32 newTime)))
  else checked32 (newTime - oldTime)

def constWorldSleep : ℤ := 50

/-- `WorldUpdateLoop` between two iterations.  Beside its variables it has the
true times at which the loop began and at which it last read the clock, and the
differences passed to `World::Update`. -/
structure WorldUpdateLoop where
  prevTime : ℤ
  prevSleepTime : ℤ := 0
  began : ℤ
  now : ℤ
  diffs : List ℤ := []
  deriving DecidableEq

/-- **The difference**, for times less than 2^31 milliseconds apart: right if the
clock has not gone round between them, and one too small otherwise. -/
theorem getTimeDiff_eq {t₁ t₂ : ℤ} (h : t₁ ≤ t₂) (hlt : t₂ - t₁ < 2 ^ 31) :
    getTimeDiff (getTime t₁) (getTime t₂) =
      some (if getTime t₁ ≤ getTime t₂ then t₂ - t₁ else t₂ - t₁ - 1) := by
  have hsub := wrap32_sub h hlt
  rw [← getTime, ← getTime] at hsub
  rw [getTimeDiff]
  by_cases hle : getTime t₁ ≤ getTime t₂
  · rw [if_neg (not_lt.mpr hle), if_pos hle, checked32_eq_some]
    rw [if_pos hle] at hsub
    exact ⟨hsub ▸ ⟨by omega, by omega⟩, hsub⟩
  · rw [if_pos (not_le.mp hle), if_neg hle, Option.some.injEq]
    rw [if_neg hle] at hsub
    have hmod : wrapU32 (wrapU32 (0xFFFFFFFF - wrapU32 (getTime t₁)) + wrapU32 (getTime t₂)) %
        2 ^ 32 = (t₂ - t₁ - 1) % 2 ^ 32 := by
      rw [wrapU32, wrapU32, wrapU32, wrapU32]
      omega
    rw [wrap32_congr hmod]
    -- the two times differ, since the clock shows different ones
    have hne : t₁ ≠ t₂ := fun heq => hle (heq ▸ le_refl _)
    exact wrap32_eq ⟨by omega, by omega⟩

theorem getTimeDiff_eq_iff {t₁ t₂ : ℤ} (h : t₁ ≤ t₂) (hlt : t₂ - t₁ < 2 ^ 31) :
    getTimeDiff (getTime t₁) (getTime t₂) = some (t₂ - t₁) ↔ getTime t₁ ≤ getTime t₂ := by
  rw [getTimeDiff_eq h hlt, Option.some.injEq]
  split
  · rename_i hle
    exact iff_of_true rfl hle
  · rename_i hle
    exact iff_of_false (by omega) hle

namespace WorldUpdateLoop

def start (now : ℤ) : WorldUpdateLoop :=
  { prevTime := getTime now, began := now, now := now }

def iterate (s : WorldUpdateLoop) (now : ℤ) : Option WorldUpdateLoop := do
  let currTime := getTime now
  let diff ← getTimeDiff s.prevTime currTime
  let s := { s with prevTime := currTime, now := now, diffs := s.diffs ++ [diff] }
  let limit ← checked32 (constWorldSleep + s.prevSleepTime)
  if diff ≤ limit then
    return { s with prevSleepTime := ← checked32 (limit - diff) }
  else return { s with prevSleepTime := 0 }

/-- The differences add up to the time that has passed. -/
def Exact (s : WorldUpdateLoop) : Prop := s.diffs.sum = s.now - s.began

/-- Time does not go back, and less than 2^31 milliseconds have passed. -/
def Short (s : WorldUpdateLoop) (now : ℤ) (_ : WorldUpdateLoop) : Prop :=
  s.now ≤ now ∧ now - s.now < 2 ^ 31

/-- The clock has not gone round. -/
def Unwrapped (s : WorldUpdateLoop) (now : ℤ) (_ : WorldUpdateLoop) : Prop :=
  getTime s.now ≤ getTime now

instance : DecidablePred Exact := fun s => inferInstanceAs (Decidable (s.diffs.sum = _))

instance (s : WorldUpdateLoop) (now : ℤ) (s' : WorldUpdateLoop) : Decidable (Short s now s') :=
  inferInstanceAs (Decidable (_ ∧ _))

instance (s : WorldUpdateLoop) (now : ℤ) (s' : WorldUpdateLoop) :
    Decidable (Unwrapped s now s') := inferInstanceAs (Decidable (_ ≤ _))

/-- The loop shows the time at which it last read the clock. -/
def InStep (s : WorldUpdateLoop) : Prop := s.prevTime = getTime s.now

variable {s s' : WorldUpdateLoop} {now : ℤ}

/-- **An iteration** passes on the difference of the two readings. -/
theorem iterate_eq_some (h : iterate s now = some s') :
    ∃ diff, getTimeDiff s.prevTime (getTime now) = some diff ∧ s'.prevTime = getTime now ∧
      s'.now = now ∧ s'.began = s.began ∧ s'.diffs = s.diffs ++ [diff] := by
  rw [iterate, Option.bind_eq_bind, Option.bind_eq_some_iff] at h
  obtain ⟨diff, hdiff, h⟩ := h
  obtain ⟨limit, _, h⟩ := Option.bind_eq_some_iff.mp h
  refine ⟨diff, hdiff, ?_⟩
  split at h
  · obtain ⟨sleep, _, h⟩ := Option.bind_eq_some_iff.mp h
    cases h
    exact ⟨rfl, rfl, rfl, rfl⟩
  · cases h
    exact ⟨rfl, rfl, rfl, rfl⟩

theorem exact_iterate (hb : InStep s) (hi : Exact s) (h : iterate s now = some s')
    (hshort : Short s now s') : InStep s' ∧ (Exact s' ↔ Unwrapped s now s') := by
  obtain ⟨diff, hdiff, hprev, hnow, hbegan, hdiffs⟩ := iterate_eq_some h
  rw [hb, getTimeDiff_eq hshort.1 hshort.2, Option.some.injEq] at hdiff
  refine ⟨hprev.trans (congrArg getTime hnow.symm), ?_⟩
  rw [Exact, hdiffs, List.sum_append, List.sum_singleton, hi, hnow, hbegan, ← hdiff, Unwrapped]
  split
  · rename_i hle
    exact iff_of_true (by omega) hle
  · rename_i hle
    exact iff_of_false (by omega) hle

end WorldUpdateLoop

/-- **When the loop's time is right.**  Of two times less than 2^31 milliseconds
apart the difference is right if and only if the clock has not gone round between
them; and over a run of such iterations the differences add up to the time that
has passed, in every state, if and only if it has not gone round in any. -/
theorem exact_iff_unwrapped (t₁ t₂ : ℤ) (h : t₁ ≤ t₂) (hlt : t₂ - t₁ < 2 ^ 31) (began : ℤ)
    (times : List ℤ)
    (hshort : Along WorldUpdateLoop.iterate WorldUpdateLoop.Short (.start began) times) :
    (getTimeDiff (getTime t₁) (getTime t₂) = some (t₂ - t₁) ↔ getTime t₁ ≤ getTime t₂) ∧
    (Always WorldUpdateLoop.iterate WorldUpdateLoop.Exact (.start began) times ↔
      Along WorldUpdateLoop.iterate WorldUpdateLoop.Unwrapped (.start began) times) := by
  refine ⟨getTimeDiff_eq_iff h hlt, ?_⟩
  have hstep : ∀ (s : WorldUpdateLoop) (now : ℤ) (s' : WorldUpdateLoop), s.InStep → s.Exact →
      s.iterate now = some s' → s.Short now s' → s'.InStep ∧ (s'.Exact ↔ s.Unwrapped now s') :=
    fun _ _ _ hb hi h hs => WorldUpdateLoop.exact_iterate hb hi h hs
  exact always_iff_along_under hstep times (.start began) rfl (sub_self began).symm hshort

theorem early_exact : getTimeDiff (getTime 0) (getTime 50) = some (50 - 0) ∧
    Always WorldUpdateLoop.iterate WorldUpdateLoop.Exact (.start 0) [50, 101] := by
  have hiff := exact_iff_unwrapped 0 50 (by decide) (by decide) 0 [50, 101] (by decide)
  exact ⟨hiff.1.mpr (by decide), hiff.2.mpr (by decide)⟩

/-- An iteration of `50` milliseconds during which the clock goes round counts
`49`. -/
theorem late_not_exact : (2 ^ 31 - 1 : ℤ) ≤ 2 ^ 31 + 49 ∧
    getTimeDiff (getTime (2 ^ 31 - 1)) (getTime (2 ^ 31 + 49)) = some 49 ∧
    Along WorldUpdateLoop.iterate WorldUpdateLoop.Short (.start (2 ^ 31 - 1)) [2 ^ 31 + 49] ∧
    ¬ Always WorldUpdateLoop.iterate WorldUpdateLoop.Exact (.start (2 ^ 31 - 1)) [2 ^ 31 + 49] := by
  refine ⟨by decide, by decide, by decide, fun h => ?_⟩
  exact absurd h.all_run (by decide)

end GameService
