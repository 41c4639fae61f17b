import Mathlib.Data.List.Basic
import Mathlib.Data.Option.Basic

/-!
# Runs of a partial step function

A step function `step : σ → ε → Option σ` takes a state and an event and gives
the next state, or `none` where the program has no defined behaviour.  `run`
folds it over a list of events.

Two ways of speaking about a run are used everywhere else.  `Always step Q s es`
says that `Q` holds of the start and of every state the run goes through.
`Along step P s es` says that every step the run takes meets the condition `P`,
which sees the state before the step, the event and the state after it.  A step
that is not defined ends both: nothing is said past it.  `AtEach step B s es` is
for properties of a step that include that it is defined: `B` holds of each state
the run reaches and the event that comes next.

`always_of_along` is the invariant rule: what one step keeps under the
condition, a run keeps whose steps all meet it.  `along_of_always` goes the
other way, and `always_iff_along` puts the two together into an exact
condition.
-/

namespace GameService.Lib

variable {σ ε : Type*} {step : σ → ε → Option σ} {s s' : σ} {e : ε} {es es' : List ε}

/-- The state a run ends in, when every one of its steps is defined. -/
def run (step : σ → ε → Option σ) : σ → List ε → Option σ
  | s, [] => some s
  | s, e :: es => (step s e).bind fun s' => run step s' es

@[simp] theorem run_nil : run step s [] = some s := rfl

theorem run_cons : run step s (e :: es) = (step s e).bind fun s' => run step s' es := rfl

theorem run_cons_of_step (h : step s e = some s') : run step s (e :: es) = run step s' es := by
  rw [run_cons, h, Option.bind_some]

/-- `Q` holds of the start and of every state the run goes through. -/
def Always (step : σ → ε → Option σ) (Q : σ → Prop) : σ → List ε → Prop
  | s, [] => Q s
  | s, e :: es => Q s ∧ ∀ s', step s e = some s' → Always step Q s' es

/-- Every step the run takes meets `P`. -/
def Along (step : σ → ε → Option σ) (P : σ → ε → σ → Prop) : σ → List ε → Prop
  | _, [] => True
  | s, e :: es => ∀ s', step s e = some s' → P s e s' ∧ Along step P s' es

/-- `B` holds of each state the run reaches together with the next event, whether
or not the step is defined. -/
def AtEach (step : σ → ε → Option σ) (B : σ → ε → Prop) : σ → List ε → Prop
  | _, [] => True
  | s, e :: es => B s e ∧ ∀ s', step s e = some s' → AtEach step B s' es

theorem atEach_congr {B B' : σ → ε → Prop} (hB : ∀ s e, B s e ↔ B' s e) :
    ∀ (es : List ε) (s : σ), AtEach step B s es ↔ AtEach step B' s es := by
  intro es
  induction es with
  | nil => intro _; exact Iff.rfl
  | cons e es ih => intro s; exact and_congr (hB s e) (forall₂_congr fun s' _ => ih s')

/-- The same for properties that agree in the states of an invariant which a step
that has the property keeps. -/
theorem atEach_congr_of_base {Base : σ → Prop} {B B' : σ → ε → Prop}
    (hB : ∀ s e, Base s → (B s e ↔ B' s e))
    (hkeep : ∀ s e s', Base s → B s e → step s e = some s' → Base s') :
    ∀ (es : List ε) (s : σ), Base s → (AtEach step B s es ↔ AtEach step B' s es) := by
  intro es
  induction es with
  | nil => intro _ _; exact Iff.rfl
  | cons e es ih =>
    intro s hb
    constructor
    · rintro ⟨h, hrest⟩
      exact ⟨(hB s e hb).mp h, fun s' hs => (ih s' (hkeep s e s' hb h hs)).mp (hrest s' hs)⟩
    · rintro ⟨h, hrest⟩
      have h' := (hB s e hb).mpr h
      exact ⟨h', fun s' hs => (ih s' (hkeep s e s' hb h' hs)).mpr (hrest s' hs)⟩

/-- What follows from an invariant and from what all events have, when such a step keeps
the invariant. -/
theorem atEach_of_forall {Base : σ → Prop} {p : ε → Prop} {B : σ → ε → Prop}
    (hB : ∀ s e, Base s → p e → B s e)
    (hkeep : ∀ s e s', Base s → p e → step s e = some s' → Base s') :
    ∀ (es : List ε) (s : σ), (∀ e ∈ es, p e) → Base s → AtEach step B s es := by
  intro es
  induction es with
  | nil => intro _ _ _; exact trivial
  | cons e es ih =>
    intro s hp hb
    have he := hp e List.mem_cons_self
    exact ⟨hB s e hb he, fun s' hs => ih s' (fun e' he' => hp e' (List.mem_cons_of_mem e he'))
      (hkeep s e s' hb he hs)⟩

variable {P P' : σ → ε → σ → Prop} {Q Q' Inv : σ → Prop}

theorem along_cons_of_step (h : step s e = some s') :
    Along step P s (e :: es) ↔ P s e s' ∧ Along step P s' es := by
  constructor
  · intro ha; exact ha s' h
  · intro hp t ht
    rw [h, Option.some.injEq] at ht
    exact ht ▸ hp

instance Along.instDecidable [∀ s e s', Decidable (P s e s')] : ∀ (es : List ε) (s : σ),
    Decidable (Along step P s es)
  | [], _ => isTrue trivial
  | e :: es, s =>
    match h : step s e with
    | none => isTrue fun s' hs => by rw [h] at hs; cases hs
    | some t =>
      have := Along.instDecidable es t
      decidable_of_iff _ (along_cons_of_step h).symm

theorem Always.start : ∀ {es : List ε}, Always step Q s es → Q s
  | [], h => h
  | _ :: _, h => h.1

theorem Always.mono (hQ : ∀ s, Q s → Q' s) : ∀ (es : List ε) (s : σ),
    Always step Q s es → Always step Q' s es := by
  intro es
  induction es with
  | nil => intro s h; exact hQ s h
  | cons e es ih => intro s h; exact ⟨hQ s h.1, fun s' hs => ih s' (h.2 s' hs)⟩

/-- The last state of a run is one of the states it goes through. -/
theorem Always.last : ∀ (es : List ε) (s : σ), Always step Q s es →
    ∀ {s'}, run step s es = some s' → Q s' := by
  intro es
  induction es with
  | nil => intro s h s' hr; rw [run_nil, Option.some.injEq] at hr; exact hr ▸ h
  | cons e es ih =>
    intro s h s' hr
    cases hs : step s e with
    | none => simp [run_cons, hs] at hr
    | some t => rw [run_cons_of_step hs] at hr; exact ih t (h.2 t hs) hr

/-- A run that ends in a state without the property is one that does not always
have it. -/
theorem Always.all_run [DecidablePred Q] (h : Always step Q s es) :
    (run step s es).all (fun s' => decide (Q s')) = true := by
  cases hr : run step s es with
  | none => rfl
  | some s' => exact decide_eq_true (h.last es s hr)

theorem Along.mono (hP : ∀ s e s', P s e s' → P' s e s') : ∀ (es : List ε) (s : σ),
    Along step P s es → Along step P' s es := by
  intro es
  induction es with
  | nil => intro _ _; exact trivial
  | cons e es ih => intro s h s' hs; exact ⟨hP s e s' (h s' hs).1, ih s' (h s' hs).2⟩

theorem along_congr (hP : ∀ s e s', step s e = some s' → (P s e s' ↔ P' s e s')) :
    ∀ (es : List ε) (s : σ), Along step P s es ↔ Along step P' s es := by
  intro es
  induction es with
  | nil => intro _; exact Iff.rfl
  | cons e es ih =>
    intro s
    exact forall₂_congr fun s' hs => and_congr (hP s e s' hs) (ih s')

/-- The same for steps from the states of an invariant that every step keeps. -/
theorem along_congr_of_base {Base : σ → Prop}
    (hP : ∀ s e s', Base s → step s e = some s' → Base s' ∧ (P s e s' ↔ P' s e s')) :
    ∀ (es : List ε) (s : σ), Base s → (Along step P s es ↔ Along step P' s es) := by
  intro es
  induction es with
  | nil => intro _ _; exact Iff.rfl
  | cons e es ih =>
    intro s hb
    refine forall₂_congr fun s' hs => ?_
    obtain ⟨hb', hiff⟩ := hP s e s' hb hs
    exact and_congr hiff (ih s' hb')

/-- The step a run takes after a prefix of its events. -/
theorem Along.at_step : ∀ (pre : List ε) (s : σ), Along step P s (pre ++ e :: es) →
    ∀ {t t'}, run step s pre = some t → step t e = some t' → P t e t' := by
  intro pre
  induction pre with
  | nil =>
    intro s h t t' hr hs
    rw [run_nil, Option.some.injEq] at hr
    subst hr
    exact (h t' hs).1
  | cons e' pre ih =>
    intro s h t t' hr hs
    obtain ⟨u, hu, hr⟩ := Option.bind_eq_some_iff.mp hr
    exact ih u (h u hu).2 hr hs

theorem along_of_forall {p : ε → Prop} : ∀ (es : List ε) (s : σ), (∀ e ∈ es, p e) →
    Along step (fun _ e _ => p e) s es := by
  intro es
  induction es with
  | nil => intro _ _; exact trivial
  | cons e es ih =>
    intro s h s' _
    exact ⟨h e List.mem_cons_self, ih s' fun e' he => h e' (List.mem_cons_of_mem e he)⟩

theorem along_of_step (hP : ∀ s e s', step s e = some s' → P s e s') : ∀ (es : List ε) (s : σ),
    Along step P s es := by
  intro es
  induction es with
  | nil => intro _; exact trivial
  | cons e es ih => intro s s' hs; exact ⟨hP s e s' hs, ih s'⟩

/-- **The invariant rule.**  An invariant that each step keeps when it meets the
condition holds throughout a run whose steps all meet it. -/
theorem always_of_along (hstep : ∀ s e s', Inv s → step s e = some s' → P s e s' → Inv s') :
    ∀ (es : List ε) (s : σ), Inv s → Along step P s es → Always step Inv s es := by
  intro es
  induction es with
  | nil => intro s hi _; exact hi
  | cons e es ih =>
    intro s hi ha
    exact ⟨hi, fun s' hs => ih s' (hstep s e s' hi hs (ha s' hs).1) (ha s' hs).2⟩

/-- The same for an invariant that every step keeps. -/
theorem always_of_step (hstep : ∀ s e s', Inv s → step s e = some s' → Inv s') (es : List ε)
    (s : σ) (hi : Inv s) : Always step Inv s es := by
  have hkeep : ∀ s e s', Inv s → step s e = some s' → True → Inv s' :=
    fun s e s' hi hs _ => hstep s e s' hi hs
  exact always_of_along hkeep es s hi (along_of_step (fun _ _ _ _ => trivial) es s)

/-- A property of single steps that follows from an invariant holds along every
run that keeps it. -/
theorem along_of_always (hP : ∀ s e s', Inv s → step s e = some s' → Inv s' → P s e s') :
    ∀ (es : List ε) (s : σ), Always step Inv s es → Along step P s es := by
  intro es
  induction es with
  | nil => intro _ _; exact trivial
  | cons e es ih =>
    intro s h s' hs
    exact ⟨hP s e s' h.1 hs (h.2 s' hs).start, ih s' (h.2 s' hs)⟩

/-- **The exact condition.**  When a step from a good state leads to a good state
if and only if it meets the condition, a run stays good if and only if all its
steps meet it. -/
theorem always_iff_along
    (hstep : ∀ s e s', Inv s → step s e = some s' → (Inv s' ↔ P s e s'))
    (es : List ε) (s : σ) (hi : Inv s) : Always step Inv s es ↔ Along step P s es :=
  ⟨along_of_always (fun s e s' h hs h' => (hstep s e s' h hs).mp h') es s,
    always_of_along (fun s e s' h hs h' => (hstep s e s' h hs).mpr h') es s hi⟩

/-- The same for a property of states together with one of steps, and with a
second invariant that every step from a good state keeps, whether or not it meets
the condition. -/
theorem always_and_along_iff_of_base {Base : σ → Prop} {T : σ → ε → σ → Prop}
    (hstep : ∀ s e s', Base s → Inv s → step s e = some s' →
      Base s' ∧ (Inv s' ∧ T s e s' ↔ P s e s')) :
    ∀ (es : List ε) (s : σ), Base s → Inv s →
      (Always step Inv s es ∧ Along step T s es ↔ Along step P s es) := by
  intro es
  induction es with
  | nil => intro s _ hi; exact ⟨fun _ => trivial, fun _ => ⟨hi, trivial⟩⟩
  | cons e es ih =>
    intro s hb hi
    constructor
    · rintro ⟨ha, ht⟩ s' hs
      have hi' := (ha.2 s' hs).start
      obtain ⟨hb', hiff⟩ := hstep s e s' hb hi hs
      exact ⟨hiff.mp ⟨hi', (ht s' hs).1⟩, (ih s' hb' hi').mp ⟨ha.2 s' hs, (ht s' hs).2⟩⟩
    · intro h
      have hgood : ∀ s', step s e = some s' → Inv s' ∧ T s e s' ∧ Always step Inv s' es ∧
          Along step T s' es := by
        intro s' hs
        obtain ⟨hb', hiff⟩ := hstep s e s' hb hi hs
        obtain ⟨hp, ha⟩ := h s' hs
        obtain ⟨hi', ht⟩ := hiff.mpr hp
        exact ⟨hi', ht, (ih s' hb' hi').mpr ha⟩
      exact ⟨⟨hi, fun s' hs => (hgood s' hs).2.2.1⟩,
        fun s' hs => ⟨(hgood s' hs).2.1, (hgood s' hs).2.2.2⟩⟩

theorem always_and_along_iff {T : σ → ε → σ → Prop}
    (hstep : ∀ s e s', Inv s → step s e = some s' → (Inv s' ∧ T s e s' ↔ P s e s'))
    (es : List ε) (s : σ) (hi : Inv s) :
    Always step Inv s es ∧ Along step T s es ↔ Along step P s es := by
  have hbase : ∀ s e s', True → Inv s → step s e = some s' →
      True ∧ (Inv s' ∧ T s e s' ↔ P s e s') :=
    fun s e s' _ hi hs => ⟨trivial, hstep s e s' hi hs⟩
  exact always_and_along_iff_of_base hbase es s trivial hi

theorem always_iff_along_of_base {Base : σ → Prop}
    (hstep : ∀ s e s', Base s → Inv s → step s e = some s' → Base s' ∧ (Inv s' ↔ P s e s'))
    (es : List ε) (s : σ) (hb : Base s) (hi : Inv s) :
    Always step Inv s es ↔ Along step P s es := by
  have h := always_and_along_iff_of_base (T := fun _ _ _ => True)
    (fun s e s' hb hi hs => ⟨(hstep s e s' hb hi hs).1,
      (and_iff_left trivial).trans (hstep s e s' hb hi hs).2⟩) es s hb hi
  rwa [and_iff_left (along_of_step (fun _ _ _ _ => trivial) es s)] at h

/-- The same for runs whose steps all meet a second condition. -/
theorem always_iff_along_under {Base : σ → Prop} {C : σ → ε → σ → Prop}
    (hstep : ∀ s e s', Base s → Inv s → step s e = some s' → C s e s' →
      Base s' ∧ (Inv s' ↔ P s e s')) :
    ∀ (es : List ε) (s : σ), Base s → Inv s → Along step C s es →
      (Always step Inv s es ↔ Along step P s es) := by
  intro es
  induction es with
  | nil => intro s _ hi _; exact iff_of_true hi trivial
  | cons e es ih =>
    intro s hb hi hc
    constructor
    · intro ha s' hs
      have hi' := (ha.2 s' hs).start
      obtain ⟨hc₁, hc₂⟩ := hc s' hs
      obtain ⟨hb', hiff⟩ := hstep s e s' hb hi hs hc₁
      exact ⟨hiff.mp hi', (ih s' hb' hi' hc₂).mp (ha.2 s' hs)⟩
    · intro ha
      refine ⟨hi, fun s' hs => ?_⟩
      obtain ⟨hc₁, hc₂⟩ := hc s' hs
      obtain ⟨hb', hiff⟩ := hstep s e s' hb hi hs hc₁
      obtain ⟨hp, ha'⟩ := ha s' hs
      exact (ih s' hb' (hiff.mpr hp) hc₂).mpr ha'

/-- An invariant and a property of steps, for runs whose steps all meet a
condition. -/
theorem always_and_along_under {C T : σ → ε → σ → Prop}
    (hstep : ∀ s e s', Inv s → step s e = some s' → C s e s' → Inv s' ∧ T s e s') :
    ∀ (es : List ε) (s : σ), Inv s → Along step C s es →
      Always step Inv s es ∧ Along step T s es := by
  intro es
  induction es with
  | nil => intro s hi _; exact ⟨hi, trivial⟩
  | cons e es ih =>
    intro s hi hc
    have hgood : ∀ s', step s e = some s' → T s e s' ∧ Always step Inv s' es ∧
        Along step T s' es := by
      intro s' hs
      obtain ⟨hce, hc'⟩ := hc s' hs
      obtain ⟨hi', ht⟩ := hstep s e s' hi hs hce
      exact ⟨ht, ih s' hi' hc'⟩
    exact ⟨⟨hi, fun s' hs => (hgood s' hs).2.1⟩, fun s' hs => ⟨(hgood s' hs).1, (hgood s' hs).2.2⟩⟩

end GameService.Lib
