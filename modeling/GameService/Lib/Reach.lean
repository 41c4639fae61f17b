import GameService.Lib.Run

/-!
# Runs of another step function

`Reaches step p s s'` says that some run from `s` ends in `s'` whose events are all
of a kind `p`.  Such runs chain, and what every event of the kind keeps, they keep.

A step function simulates another one along a map of the states when each of its
steps is such a run of the other (`Simulates`); then each of its runs is
(`Simulates.reaches`).  A big step is a list of small ones, and a step that does not
touch the part that the map shows is the empty list.
-/

namespace GameService.Lib

variable {σ τ ε δ : Type*} {step : σ → ε → Option σ} {s s' s'' : σ} {e : ε} {p q : ε → Prop}

theorem run_append : ∀ (es es' : List ε) (s : σ),
    run step s (es ++ es') = (run step s es).bind fun s' => run step s' es' := by
  intro es
  induction es with
  | nil => intro _ _; rfl
  | cons e es ih =>
    intro es' s
    rw [List.cons_append, run_cons, run_cons, Option.bind_assoc]
    exact congrArg _ (funext fun t => ih es' t)

/-- Some run of events of a kind goes from one state to the other. -/
def Reaches (step : σ → ε → Option σ) (p : ε → Prop) (s s' : σ) : Prop :=
  ∃ es, (∀ e ∈ es, p e) ∧ run step s es = some s'

namespace Reaches

theorem refl (s : σ) : Reaches step p s s := ⟨[], fun _ he => absurd he List.not_mem_nil, rfl⟩

theorem single (hp : p e) (h : step s e = some s') : Reaches step p s s' := by
  refine ⟨[e], fun e' he' => List.mem_singleton.mp he' ▸ hp, ?_⟩
  rw [run_cons_of_step h, run_nil]

theorem trans (h : Reaches step p s s') (h' : Reaches step p s' s'') : Reaches step p s s'' := by
  obtain ⟨es, hes, hr⟩ := h
  obtain ⟨es', hes', hr'⟩ := h'
  refine ⟨es ++ es', fun e he => ?_, ?_⟩
  · exact (List.mem_append.mp he).elim (hes e) (hes' e)
  · rw [run_append, hr, Option.bind_some, hr']

theorem mono (hpq : ∀ e, p e → q e) (h : Reaches step p s s') : Reaches step q s s' := by
  obtain ⟨es, hes, hr⟩ := h
  exact ⟨es, fun e he => hpq e (hes e he), hr⟩

theorem keeps {Q : σ → Prop} (hstep : ∀ s e s', Q s → p e → step s e = some s' → Q s')
    (h : Reaches step p s s') (hs : Q s) : Q s' := by
  obtain ⟨es, hes, hr⟩ := h
  have hkeep : ∀ s e s', Q s → step s e = some s' → p e → Q s' :=
    fun s e s' hq hs hp => hstep s e s' hq hp hs
  exact (always_of_along hkeep es s hs (along_of_forall es s hes)).last es s hr

/-- A reflexive and transitive relation that holds across every event of the kind. -/
theorem relates {R : σ → σ → Prop} (hrefl : ∀ s, R s s) (htrans : ∀ a b c, R a b → R b c → R a c)
    (hstep : ∀ s e s', p e → step s e = some s' → R s s') (h : Reaches step p s s') : R s s' :=
  h.keeps (Q := fun t => R s t)
    (fun t e t' hq hp hs => htrans s t t' hq (hstep t e t' hp hs)) (hrefl s)

end Reaches

/-- **Simulation**: along `f`, from the states of an invariant, each step is a run of
the other step function with events of a kind. -/
structure Simulates (Inv : σ → Prop) (step : σ → ε → Option σ) (f : σ → τ)
    (step' : τ → δ → Option τ) (p : δ → Prop) : Prop where
  keeps : ∀ s e s', Inv s → step s e = some s' → Inv s'
  steps : ∀ s e s', Inv s → step s e = some s' → Reaches step' p (f s) (f s')

/-- **What a run reaches** is reached by the other step function. -/
theorem Simulates.reaches {Inv : σ → Prop} {f : σ → τ} {step' : τ → δ → Option τ} {p : δ → Prop}
    (h : Simulates Inv step f step' p) (hs : Inv s) (es : List ε) :
    Always step (fun t => Inv t ∧ Reaches step' p (f s) (f t)) s es := by
  refine always_of_step (fun t e t' ht hstep => ?_) es s ⟨hs, .refl (f s)⟩
  exact ⟨h.keeps t e t' ht.1 hstep, ht.2.trans (h.steps t e t' ht.1 hstep)⟩

end GameService.Lib
