import GameService.Lib.Unordered

/-!
# Maps that are iterated over

`FiniteMap κ ν` is a `std::unordered_map` together with the set of its keys, which
is what an iteration goes through, in the order an `Enumeration` of the keys
gives.  The map and its keys belong together (`mem_keys`), so only an operation
that keeps them so is one of the map.
-/

namespace GameService.Lib

structure FiniteMap (κ ν : Type*) where
  map : UnorderedMap κ ν
  keys : Finset κ
  mem_keys : ∀ k, k ∈ keys ↔ map.find k ≠ none

namespace FiniteMap

variable {κ ν : Type*} {m m' : FiniteMap κ ν} {k : κ}

def find (m : FiniteMap κ ν) (k : κ) : Option ν := m.map.find k

theorem mem_keys_iff : k ∈ m.keys ↔ m.find k ≠ none := m.mem_keys k

@[ext] theorem ext (h : ∀ k, m.find k = m'.find k) : m = m' := by
  obtain ⟨map, keys, hk⟩ := m
  obtain ⟨map', keys', hk'⟩ := m'
  obtain rfl : map = map' := UnorderedMap.ext h
  obtain rfl : keys = keys' := Finset.ext fun k => (hk k).trans (hk' k).symm
  rfl

def empty : FiniteMap κ ν := ⟨∅, ∅, fun k => iff_of_false (Finset.notMem_empty k) fun h => h rfl⟩

instance : EmptyCollection (FiniteMap κ ν) := ⟨empty⟩

def filter (p : κ → ν → Bool) (m : FiniteMap κ ν) : FiniteMap κ ν where
  map := m.map.filter p
  keys := m.keys.filter fun k => (m.find k).any (p k)
  mem_keys k := by
    rw [Finset.mem_filter, mem_keys_iff]
    show _ ↔ (m.find k).filter (p k) ≠ none
    cases m.find k with
    | none => exact iff_of_false (fun h => h.1 rfl) fun h => h rfl
    | some v => by_cases hp : p k v = true <;> simp [hp]

theorem find_filter (p : κ → ν → Bool) (m : FiniteMap κ ν) (k : κ) :
    (m.filter p).find k = (m.find k).filter (p k) := rfl

variable [DecidableEq κ]

def erase (m : FiniteMap κ ν) (k : κ) : FiniteMap κ ν where
  map := m.map.erase k
  keys := m.keys.erase k
  mem_keys k' := by
    rw [Finset.mem_erase, m.mem_keys]
    by_cases h : k' = k
    · rw [h, UnorderedMap.find_erase_self]
      exact iff_of_false (fun hand => hand.1 rfl) fun hne => hne rfl
    · rw [UnorderedMap.find_erase_ne _ h]
      exact and_iff_right h

theorem find_erase (m : FiniteMap κ ν) (k k' : κ) :
    (m.erase k).find k' = if k' = k then none else m.find k' := rfl

def emplace (m : FiniteMap κ ν) (k : κ) (v : ν) : FiniteMap κ ν where
  map := m.map.emplace k v
  keys := insert k m.keys
  mem_keys k' := by
    rw [Finset.mem_insert, m.mem_keys, UnorderedMap.find_emplace]
    by_cases h : k' = k
    · rw [if_pos h]
      exact iff_of_true (Or.inl h) (Option.some_ne_none _)
    · rw [if_neg h]
      exact or_iff_right h

theorem find_emplace (m : FiniteMap κ ν) (k k' : κ) (v : ν) :
    (m.emplace k v).find k' = if k' = k then some ((m.find k).getD v) else m.find k' :=
  UnorderedMap.find_emplace m.map k k' v

end FiniteMap

end GameService.Lib
