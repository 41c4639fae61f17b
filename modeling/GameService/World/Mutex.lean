import GameService.World.Entity

/-!
# The mutex of the registry

`EntityManager::Erase` removes an entry while it holds `_mutex`.  The entry is a
`shared_ptr`; when it is the last one, the object is destroyed there and then,
and `~Entity` calls `Erase` again, on the same thread and with the mutex still
held.  The mutex is not recursive.

A `Registry` is what `Erase` sees of the program: the entries, the `_ID` and the
use count of every object, and whether the calling thread holds the mutex.  A
call either returns or comes to lock a mutex its own thread holds (`Locking`).
Another thread that holds the mutex only delays the call.
-/

namespace GameService

open Lib

/-- A call returns, or its thread tries to lock a mutex it already holds. -/
inductive Locking (σ : Type)
  | returned (state : σ)
  | relocked

def Locking.Completes {σ : Type} : Locking σ → Prop
  | .returned _ => True
  | .relocked => False

structure Registry where
  entities : UnorderedMap ℤ Ref := ∅
  id : Ref → ℤ
  useCount : Ref → ℕ
  locked : Bool := false

namespace Registry

/-- The entry of an id goes, and with it one `shared_ptr` to its object. -/
def remove (s : Registry) (id : ℤ) (r : Ref) : Registry :=
  { s with
    entities := s.entities.erase id
    useCount := fun r' => if r' = r then s.useCount r - 1 else s.useCount r' }

mutual

def erase (s : Registry) (id : ℤ) : Locking Registry :=
  if s.locked then .relocked
  else
    match s.entities.find id with
    | none => .returned s
    | some r =>
      let t := { s with locked := true }.remove id r
      if t.useCount r = 0 then
        match t.destroy r with
        | .relocked => .relocked
        | .returned t => .returned { t with locked := false }
      else .returned { t with locked := false }
termination_by (if s.locked then 0 else 1, 0)
decreasing_by simp_all [remove, Prod.lex_def]

def destroy (s : Registry) (r : Ref) : Locking Registry := s.erase (s.id r)
termination_by (if s.locked then 0 else 1, 1)

end

def onDeath (s : Registry) (r : Ref) : Locking Registry := s.erase (s.id r)

variable {s : Registry} {id : ℤ} {r : Ref}

@[simp] theorem useCount_remove (s : Registry) (id : ℤ) (r : Ref) :
    (s.remove id r).useCount r = s.useCount r - 1 := if_pos rfl

theorem erase_of_locked (h : s.locked = true) : s.erase id = .relocked := by
  rw [erase, if_pos h]

theorem erase_of_none (hl : s.locked = false) (h : s.entities.find id = none) :
    s.erase id = .returned s := by
  rw [erase, hl, h]
  rfl

theorem erase_of_shared (hl : s.locked = false) (h : s.entities.find id = some r)
    (hr : 1 < s.useCount r) : s.erase id = .returned (s.remove id r) := by
  have hcount : ({ s with locked := true }.remove id r).useCount r ≠ 0 := by
    rw [useCount_remove]
    show s.useCount r - 1 ≠ 0
    omega
  rw [erase, if_neg (by rw [hl]; decide), h]
  dsimp only
  rw [if_neg hcount, remove, remove, hl]

/-- The registry holds the last `shared_ptr`: the destructor runs inside
`Erase`, with the mutex held. -/
theorem erase_of_last (hl : s.locked = false) (h : s.entities.find id = some r)
    (hr : s.useCount r ≤ 1) : s.erase id = .relocked := by
  have hcount : ({ s with locked := true }.remove id r).useCount r = 0 := by
    rw [useCount_remove]
    show s.useCount r - 1 = 0
    omega
  rw [erase, if_neg (by rw [hl]; decide), h]
  dsimp only
  rw [if_pos hcount, destroy, erase_of_locked rfl]

theorem completes_erase (hl : s.locked = false) (id : ℤ) :
    (s.erase id).Completes ↔ ∀ r, s.entities.find id = some r → 1 < s.useCount r := by
  cases h : s.entities.find id with
  | none =>
    rw [erase_of_none hl h]
    exact ⟨fun _ _ hr => absurd hr (by simp), fun _ => trivial⟩
  | some r =>
    by_cases hr : 1 < s.useCount r
    · rw [erase_of_shared hl h hr]
      exact ⟨fun _ r' hr' => Option.some.inj hr' ▸ hr, fun _ => trivial⟩
    · rw [erase_of_last hl h (not_lt.mp hr)]
      exact ⟨fun hc => hc.elim, fun hall => hr (hall r rfl)⟩

/-- **When erasing completes.**  `Erase` and `OnDeath` come to an end exactly if
no entry is removed or somebody else shares the object it holds. -/
theorem erase_completes_iff (hl : s.locked = false) :
    (∀ id, (s.erase id).Completes ↔ ∀ r, s.entities.find id = some r → 1 < s.useCount r) ∧
    ∀ r, (s.onDeath r).Completes ↔
      ∀ r', s.entities.find (s.id r) = some r' → 1 < s.useCount r' :=
  ⟨completes_erase hl, fun r => completes_erase hl (s.id r)⟩

/-- One object with id 7 at address 1, and `n` pointers to it with that of the
registry. -/
def single (n : ℕ) : Registry where
  entities := (∅ : UnorderedMap ℤ Ref).insertAt 7 1
  id := fun _ => 7
  useCount := fun _ => n

theorem single_completes :
    ((∀ id, ((single 2).erase id).Completes ↔
        ∀ r, (single 2).entities.find id = some r → 1 < (single 2).useCount r) ∧
      ∀ r, ((single 2).onDeath r).Completes ↔
        ∀ r', (single 2).entities.find ((single 2).id r) = some r' → 1 < (single 2).useCount r') ∧
      1 < (single 2).useCount 1 :=
  ⟨erase_completes_iff rfl, by decide⟩

theorem single_relocks : (single 1).locked = false ∧ (single 1).erase 7 = .relocked ∧
    (single 1).onDeath 1 = .relocked ∧ ¬ ((single 1).erase 7).Completes := by
  have h : (single 1).erase 7 = .relocked := erase_of_last rfl rfl (le_refl 1)
  exact ⟨rfl, h, h, by rw [h]; exact fun hc => hc⟩

end Registry

end GameService
