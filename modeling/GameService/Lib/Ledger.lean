import GameService.Lib.Run
import Mathlib.Data.Set.Insert

/-!
# Ledgers

A set that is written by putting elements in and taking them out is known from
its ledger: an element is in it exactly if the last entry about it is a put
(`mem_balance`).  Each step of a system writes entries that depend on the state
it is made in; `ledger` is what a whole run writes, and `run_balance` carries
the correspondence from one step to the run.
-/

namespace GameService.Lib

variable {κ σ ε : Type*}

/-- An entry of a ledger. -/
inductive Entry (κ : Type*)
  | put (k : κ)
  | take (k : κ)
  deriving DecidableEq

def Entry.apply (s : Set κ) : Entry κ → Set κ
  | put k => {i | i = k ∨ i ∈ s}
  | take k => {i | i ≠ k ∧ i ∈ s}

/-- A set after the entries of a ledger. -/
def balance (s : Set κ) (l : List (Entry κ)) : Set κ := l.foldl Entry.apply s

def LastPut (l : List (Entry κ)) (k : κ) : Prop :=
  ∃ before after, l = before ++ Entry.put k :: after ∧ Entry.take k ∉ after

variable {s : Set κ} {l l' : List (Entry κ)} {k i : κ}

@[simp] theorem balance_cons (s : Set κ) (e : Entry κ) (l : List (Entry κ)) :
    balance s (e :: l) = balance (e.apply s) l := rfl

theorem balance_append (s : Set κ) (l l' : List (Entry κ)) :
    balance s (l ++ l') = balance (balance s l) l' := List.foldl_append

theorem mem_apply_put : i ∈ (Entry.put k).apply s ↔ i = k ∨ i ∈ s := Iff.rfl

theorem mem_apply_take : i ∈ (Entry.take k).apply s ↔ i ≠ k ∧ i ∈ s := Iff.rfl

theorem LastPut.cons (h : LastPut l k) (e : Entry κ) : LastPut (e :: l) k := by
  obtain ⟨before, after, rfl, hafter⟩ := h
  exact ⟨e :: before, after, rfl, hafter⟩

/-- The first entry counts if it is a put and nothing takes its element later. -/
theorem lastPut_cons {e : Entry κ} :
    LastPut (e :: l) k ↔ LastPut l k ∨ e = Entry.put k ∧ Entry.take k ∉ l := by
  constructor
  · rintro ⟨before, after, heq, hafter⟩
    cases before with
    | nil =>
      obtain ⟨rfl, rfl⟩ := List.cons_eq_cons.mp heq
      exact Or.inr ⟨rfl, hafter⟩
    | cons e' before =>
      obtain ⟨rfl, rfl⟩ := List.cons_eq_cons.mp heq
      exact Or.inl ⟨before, after, rfl, hafter⟩
  · rintro (h | ⟨rfl, hl⟩)
    · exact h.cons e
    · exact ⟨[], l, rfl, hl⟩

/-- **What a ledger amounts to**: the elements whose last entry is a put, and
those of the set that no entry takes. -/
theorem mem_balance : ∀ (l : List (Entry κ)) (s : Set κ),
    k ∈ balance s l ↔ LastPut l k ∨ k ∈ s ∧ Entry.take k ∉ l := by
  intro l
  induction l with
  | nil =>
    intro s
    refine ⟨fun h => Or.inr ⟨h, List.not_mem_nil⟩, ?_⟩
    rintro (⟨before, after, heq, _⟩ | ⟨h, _⟩)
    · exact absurd heq.symm (List.append_ne_nil_of_right_ne_nil _ (List.cons_ne_nil _ _))
    · exact h
  | cons e l ih =>
    intro s
    rw [balance_cons, ih, lastPut_cons, List.mem_cons, or_assoc]
    refine or_congr_right ?_
    cases e with
    | put i =>
      rw [mem_apply_put, Entry.put.injEq]
      constructor
      · rintro ⟨rfl | hk, hl⟩
        · exact Or.inl ⟨rfl, hl⟩
        · exact Or.inr ⟨hk, fun h => h.elim (fun h => by cases h) hl⟩
      · rintro (⟨rfl, hl⟩ | ⟨hk, hl⟩)
        · exact ⟨Or.inl rfl, hl⟩
        · exact ⟨Or.inr hk, fun h => hl (Or.inr h)⟩
    | take i =>
      rw [mem_apply_take, Entry.take.injEq]
      constructor
      · rintro ⟨⟨hne, hk⟩, hl⟩
        exact Or.inr ⟨hk, fun h => h.elim hne hl⟩
      · rintro (⟨h, _⟩ | ⟨hk, hl⟩)
        · cases h
        · exact ⟨⟨fun h => hl (Or.inl h), hk⟩, fun h => hl (Or.inr h)⟩

/-! ### The ledger of a run -/

/-- What the steps of a run write, in order; `entries` gives what one step
writes. -/
def ledger (step : σ → ε → Option σ) (entries : σ → ε → List (Entry κ)) :
    σ → List ε → List (Entry κ)
  | _, [] => []
  | s, e :: es => entries s e ++ (step s e).elim [] fun s' => ledger step entries s' es

variable {step : σ → ε → Option σ} {entries : σ → ε → List (Entry κ)}

theorem ledger_cons {s s' : σ} {e : ε} (es : List ε) (h : step s e = some s') :
    ledger step entries s (e :: es) = entries s e ++ ledger step entries s' es := by
  rw [ledger, h]
  rfl

/-- **The ledger rule.**  When each step writes to a set what its entries say,
the set after a run is the set before it with the ledger of the run. -/
theorem run_balance {Base : σ → Prop} {content : σ → Set κ}
    (hstep : ∀ s e s', Base s → step s e = some s' →
      Base s' ∧ content s' = balance (content s) (entries s e)) :
    ∀ (es : List ε) (s : σ), Base s → ∀ {s'}, run step s es = some s' →
      content s' = balance (content s) (ledger step entries s es) := by
  intro es
  induction es with
  | nil =>
    intro s _ s' hr
    rw [run_nil, Option.some.injEq] at hr
    rw [hr]
    rfl
  | cons e es ih =>
    intro s hb s' hr
    rw [run_cons, Option.bind_eq_some_iff] at hr
    obtain ⟨t, ht, hr⟩ := hr
    obtain ⟨hb', hcontent⟩ := hstep s e t hb ht
    rw [ih t hb' hr, hcontent, ← balance_append, ledger_cons es ht]

end GameService.Lib
