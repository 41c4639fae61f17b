import GameService.Lib.FixedWidth
import GameService.Lib.Run

/-!
# Periodic timers

`PeriodicTimer` of `Timer.h` counts the expire time down, and when it is reached adds the
period, or the last difference if that is larger.  The expire time is then what it was
before the call in the second case and at most the period in the first, however long the
call was late, so it stays positive and below the larger of the start time and the period.

Each call that returns `true` adds at least a period to the expire time, and only the
differences are taken off: that bounds their number (`Paced.paid`).  `TUpdate`, `TPassed`
and `TReset` do the same in three calls (`update_eq_track`).
-/

namespace GameService

open Lib

structure PeriodicTimer where
  period : ℤ
  expireTime : ℤ
  deriving DecidableEq

namespace PeriodicTimer

/-- `Update`: what it returns, and the timer after it. -/
def update (diff : ℤ) (t : PeriodicTimer) : Option (Bool × PeriodicTimer) := do
  let t := { t with expireTime := ← checked32 (t.expireTime - diff) }
  if t.expireTime > 0 then return (false, t)
  else
    let added := if t.period > diff then t.period else diff
    return (true, { t with expireTime := ← checked32 (t.expireTime + added) })

/-! ### The tracker interface -/

def tUpdate (diff : ℤ) (t : PeriodicTimer) : Option PeriodicTimer := do
  return { t with expireTime := ← checked32 (t.expireTime - diff) }

def tPassed (t : PeriodicTimer) : Bool := t.expireTime ≤ 0

def tReset (diff period : ℤ) (t : PeriodicTimer) : Option PeriodicTimer := do
  let added := if period > diff then period else diff
  return { t with expireTime := ← checked32 (t.expireTime + added) }

/-- `TUpdate`, `TPassed` and, when it has passed, `TReset`. -/
def track (period diff : ℤ) (t : PeriodicTimer) : Option (Bool × PeriodicTimer) := do
  let t ← t.tUpdate diff
  if t.tPassed then return (true, ← t.tReset diff period)
  else return (false, t)

/-- A timer with the number of the calls that returned `true` and the sum of the
differences. -/
structure Ticking where
  timer : PeriodicTimer
  passed : ℕ := 0
  total : ℤ := 0
  deriving DecidableEq

def start (period startTime : ℤ) : Ticking := { timer := ⟨period, startTime⟩ }

def tick (s : Ticking) (diff : ℤ) : Option Ticking := do
  let (passed, timer) ← s.timer.update diff
  return { timer, passed := s.passed + passed.toNat, total := s.total + diff }

/-- **The bounds**: of the expire time, and of the number of the calls that returned
`true`. -/
structure InBounds (period startTime : ℤ) (s : Ticking) : Prop where
  expireTime : 0 < s.timer.expireTime ∧ s.timer.expireTime ≤ max startTime period
  passed : (s.passed : ℤ) ≤ (max startTime period - startTime + s.total) / period

/-- `Update` is the same as the calls of the tracker interface. -/
def Tracks (period : ℤ) (s : Ticking) (diff : ℤ) : Prop :=
  s.timer.update diff = s.timer.track period diff

/-- What holds of a timer in every run. -/
structure Paced (period startTime : ℤ) (s : Ticking) : Prop where
  same : s.timer.period = period
  pos : 0 < s.timer.expireTime
  le : s.timer.expireTime ≤ max startTime period
  paid : s.passed * period + startTime ≤ s.timer.expireTime + s.total

variable {t t' : PeriodicTimer} {s s' : Ticking} {period startTime diff : ℤ} {passed : Bool}

/-! ### One call -/

/-- **`Update`** takes the difference off, and adds the period or the difference when the
time is up. -/
theorem update_cases (h : t.update diff = some (passed, t')) : t'.period = t.period ∧
    ((passed = false ∧ 0 < t'.expireTime ∧ t'.expireTime = t.expireTime - diff) ∨
      passed = true ∧ t.expireTime ≤ diff ∧
        t'.expireTime = t.expireTime - diff + max t.period diff) := by
  obtain ⟨left, hleft, h⟩ := Option.bind_eq_some_iff.mp h
  obtain ⟨-, rfl⟩ := checked32_eq_some.mp hleft
  dsimp only at h
  split at h
  · rename_i hpos
    cases h
    exact ⟨rfl, Or.inl ⟨rfl, hpos, rfl⟩⟩
  · rename_i hup
    obtain ⟨expireTime, hadded, h⟩ := Option.bind_eq_some_iff.mp h
    obtain ⟨-, rfl⟩ := checked32_eq_some.mp hadded
    cases h
    refine ⟨rfl, Or.inr ⟨rfl, by omega, ?_⟩⟩
    dsimp only
    split <;> omega

/-- **The two interfaces** do the same to every timer. -/
theorem update_eq_track (t : PeriodicTimer) (diff : ℤ) :
    t.update diff = t.track t.period diff := by
  rw [update, track, tUpdate]
  cases checked32 (t.expireTime - diff) with
  | none => rfl
  | some left =>
    by_cases hpos : left > 0
    · simp [tPassed, hpos]
    · have hle : left ≤ 0 := not_lt.mp hpos
      simp only [tPassed, tReset, Option.pure_def, Option.bind_eq_bind, Option.bind_some, hpos,
        hle, if_false, if_true, decide_true]
      cases checked32 (left + if t.period > diff then t.period else diff) <;> rfl

theorem isSome_update (hperiod : InInt32 t.period) (hexpire : InInt32 t.expireTime)
    (hpos : 0 < t.expireTime) (hdiff : InInt32 diff) (h0 : 0 ≤ diff) :
    (t.update diff).isSome := by
  obtain ⟨-, hp⟩ := hperiod
  obtain ⟨-, he⟩ := hexpire
  obtain ⟨-, hd⟩ := hdiff
  have hleft : InInt32 (t.expireTime - diff) := ⟨by omega, by omega⟩
  rw [update, checked32, if_pos hleft]
  dsimp only [Option.bind_eq_bind, Option.bind_some]
  split
  · rfl
  · rename_i hup
    have hadded : InInt32
        (t.expireTime - diff + if t.period > diff then t.period else diff) := by
      constructor <;> split <;> omega
    rw [checked32, if_pos hadded]
    rfl

theorem tick_eq_some (h : tick s diff = some s') : ∃ passed,
    s.timer.update diff = some (passed, s'.timer) ∧
      s'.passed = s.passed + passed.toNat ∧ s'.total = s.total + diff := by
  obtain ⟨⟨passed, timer⟩, hupdate, h⟩ := Option.bind_eq_some_iff.mp h
  cases h
  exact ⟨passed, hupdate, rfl, rfl⟩

/-! ### Runs -/

theorem paced_start (hstart : 0 < startTime) :
    Paced period startTime (start period startTime) where
  same := rfl
  pos := hstart
  le := le_max_left _ _
  paid := by simp [start]

/-- A call that returns `true` pays for itself: at least a period is added to the expire
time, and only the difference, which `total` takes in, is taken off. -/
theorem Paced.tick (hs : Paced period startTime s) (hdiff : 0 ≤ diff)
    (h : tick s diff = some s') : Paced period startTime s' := by
  obtain ⟨hsame, hpos, hle, hpaid⟩ := hs
  obtain ⟨passed, hupdate, hpassed, htotal⟩ := tick_eq_some h
  obtain ⟨hperiod, ⟨rfl, hleft, hexpire⟩ | ⟨rfl, hup, hexpire⟩⟩ := update_cases hupdate
  · refine ⟨hperiod.trans hsame, hleft, by omega, ?_⟩
    rw [hpassed, htotal, hexpire, Bool.toNat_false, Nat.add_zero]
    omega
  · refine ⟨hperiod.trans hsame, by omega, by omega, ?_⟩
    have hcount : (s'.passed : ℤ) * period = s.passed * period + period := by
      rw [hpassed, Bool.toNat_true, Nat.cast_succ, add_one_mul]
    omega

/-- The bound of the number of passed calls is what was paid, divided. -/
theorem Paced.inBounds (hs : Paced period startTime s) (hperiod : 0 < period) :
    InBounds period startTime s where
  expireTime := ⟨hs.pos, hs.le⟩
  passed := by
    apply Int.le_ediv_of_mul_le hperiod
    have hpaid := hs.paid
    have hle := hs.le
    omega

theorem Paced.isSome_tick (hs : Paced period startTime s) (hperiod : InInt32 period)
    (hstart : InInt32 startTime) (hdiff : InInt32 diff) (h0 : 0 ≤ diff) :
    (PeriodicTimer.tick s diff).isSome := by
  have hexpire : InInt32 s.timer.expireTime := by
    have hpos := hs.pos
    have hle := hs.le
    obtain ⟨-, hp⟩ := hperiod
    obtain ⟨-, hst⟩ := hstart
    exact ⟨by omega, by omega⟩
  have hupdate : (s.timer.update diff).isSome :=
    isSome_update (hs.same.symm ▸ hperiod) hexpire hs.pos hdiff h0
  obtain ⟨⟨passed, timer⟩, hupdate⟩ := Option.isSome_iff_exists.mp hupdate
  rw [PeriodicTimer.tick, hupdate]
  rfl

/-- **Periodic timers**: the expire time stays positive and at most the larger of the start
time and the period, the calls that return `true` are no more than the differences pay for,
and `Update` does what the tracker interface does.  No call overflows. -/
theorem punctual (period startTime : ℤ) (hperiod : 0 < period) (hstart : 0 < startTime)
    (diffs : List ℤ) (hdiffs : ∀ diff ∈ diffs, 0 ≤ diff) :
    Always tick (InBounds period startTime) (start period startTime) diffs ∧
      AtEach tick (Tracks period) (start period startTime) diffs ∧
      (InInt32 period → InInt32 startTime → (∀ diff ∈ diffs, InInt32 diff) →
        AtEach tick (fun s diff => (tick s diff).isSome) (start period startTime) diffs) := by
  have hpaced : Paced period startTime (start period startTime) := paced_start hstart
  have hsteps : Along tick (fun _ diff _ => 0 ≤ diff) (start period startTime) diffs :=
    along_of_forall diffs _ hdiffs
  refine ⟨?_, ?_, fun hp hs hd => ?_⟩
  · have halways := always_of_along (fun _ _ _ hs h h0 => hs.tick h0 h) diffs _ hpaced hsteps
    exact halways.mono (fun _ hs => hs.inBounds hperiod)
  · refine atEach_of_forall (fun s diff hs _ => ?_) (fun _ _ _ hs h0 => hs.tick h0) diffs _
      hdiffs hpaced
    exact hs.same ▸ update_eq_track s.timer diff
  · have hboth : ∀ diff ∈ diffs, InInt32 diff ∧ 0 ≤ diff :=
      fun diff h => ⟨hd diff h, hdiffs diff h⟩
    exact atEach_of_forall (fun _ _ hpaced h => hpaced.isSome_tick hp hs h.1 h.2)
      (fun _ _ _ hpaced h => hpaced.tick h.2) diffs _ hboth hpaced

theorem punctual_late :
    Always tick (InBounds 100 30) (start 100 30) [20, 500, 9, 1] ∧
      AtEach tick (Tracks 100) (start 100 30) [20, 500, 9, 1] ∧
      AtEach tick (fun s diff => (tick s diff).isSome) (start 100 30) [20, 500, 9, 1] :=
  have h := punctual 100 30 (by decide) (by decide) [20, 500, 9, 1] (by decide)
  ⟨h.1, h.2.1, h.2.2 (by decide) (by decide) (by decide)⟩

/-- The periods it missed are not made up for. -/
example : run tick (start 100 30) [20, 500, 9, 1] =
    some { timer := ⟨100, 100⟩, passed := 2, total := 530 } := by decide

end PeriodicTimer

end GameService
