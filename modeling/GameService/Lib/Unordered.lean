import Mathlib.Data.Finset.Sort
import Mathlib.Data.Finset.Union
import Mathlib.Data.Int.Order.Basic

/-!
# Unordered containers

`UnorderedMap κ ν` is a `std::unordered_map` as far as a program can tell that
does not iterate over it: which keys it has, and with which values.  `emplace`
keeps the value of a key that is there; `insertAt` is what `m[k] = v` leaves.

An `std::unordered_set` is a `Finset`, since nothing about its contents depends
on the order of the elements.  Iterating over it does.  An `Enumeration` gives,
for each set, the list of its elements in the order in which an iterator meets
them; the standard says nothing about that order, so a program is correct only
if it is for every enumeration.  `sorted` is one, and `patch` changes an
enumeration at one set.

An `UnorderedMap` whose values are sets is used through `bucket`, which takes a
missing key for an empty set: `m[k]` creates the set when it is not there.
-/

namespace GameService.Lib

def UnorderedMap (κ ν : Type*) := κ → Option ν

namespace UnorderedMap

variable {κ ν : Type*}

@[ext] theorem ext {m m' : UnorderedMap κ ν} (h : ∀ k, m k = m' k) : m = m' := funext h

def empty : UnorderedMap κ ν := fun _ => none

instance : EmptyCollection (UnorderedMap κ ν) := ⟨empty⟩

instance : Inhabited (UnorderedMap κ ν) := ⟨empty⟩

/-- The value of a key; nothing stands for `end()`. -/
def find (m : UnorderedMap κ ν) (k : κ) : Option ν := m k

def filter (p : κ → ν → Bool) (m : UnorderedMap κ ν) : UnorderedMap κ ν :=
  fun k => (m.find k).filter (p k)

theorem find_filter (p : κ → ν → Bool) (m : UnorderedMap κ ν) (k : κ) :
    (m.filter p).find k = (m.find k).filter (p k) := rfl

section Update

variable [DecidableEq κ]

def insertAt (m : UnorderedMap κ ν) (k : κ) (v : ν) : UnorderedMap κ ν :=
  fun k' => if k' = k then some v else m k'

def erase (m : UnorderedMap κ ν) (k : κ) : UnorderedMap κ ν :=
  fun k' => if k' = k then none else m k'

/-- `emplace` does nothing when the key is there. -/
def emplace (m : UnorderedMap κ ν) (k : κ) (v : ν) : UnorderedMap κ ν :=
  match m.find k with
  | some _ => m
  | none => m.insertAt k v

theorem find_insertAt (m : UnorderedMap κ ν) (k k' : κ) (v : ν) :
    (m.insertAt k v).find k' = if k' = k then some v else m.find k' := rfl

@[simp] theorem find_insertAt_self (m : UnorderedMap κ ν) (k : κ) (v : ν) :
    (m.insertAt k v).find k = some v := if_pos rfl

@[simp] theorem find_insertAt_ne (m : UnorderedMap κ ν) {k k' : κ} (h : k' ≠ k) (v : ν) :
    (m.insertAt k v).find k' = m.find k' := if_neg h

/-- A key that is there keeps its value. -/
theorem find_emplace (m : UnorderedMap κ ν) (k k' : κ) (v : ν) :
    (m.emplace k v).find k' = if k' = k then some ((m.find k).getD v) else m.find k' := by
  rw [emplace]
  cases hk : m.find k with
  | none => exact find_insertAt m k k' v
  | some w =>
    dsimp only
    by_cases h : k' = k
    · rw [if_pos h, h, hk, Option.getD_some]
    · rw [if_neg h]

theorem find_emplace_of_some {m : UnorderedMap κ ν} {k k' : κ} {v v' : ν}
    (h : m.find k' = some v') : (m.emplace k v).find k' = some v' := by
  rw [find_emplace]
  split
  · rename_i hk
    rw [← hk, h, Option.getD_some]
  · exact h

theorem find_emplace_of_none {m : UnorderedMap κ ν} {k : κ} (h : m.find k = none) (v : ν) :
    (m.emplace k v).find k = some v := by
  rw [find_emplace, if_pos rfl, h, Option.getD_none]

@[simp] theorem find_erase_self (m : UnorderedMap κ ν) (k : κ) : (m.erase k).find k = none :=
  if_pos rfl

@[simp] theorem find_erase_ne (m : UnorderedMap κ ν) {k k' : κ} (h : k' ≠ k) :
    (m.erase k).find k' = m.find k' := if_neg h

/-- A turn of a loop that enters the elements of a list, those that have a key. -/
def enter (key : ν → Option κ) (m : UnorderedMap κ ν) (v : ν) : UnorderedMap κ ν :=
  match key v with
  | none => m
  | some k => m.emplace k v

/-- **The loop**: each key has the first element that it was entered for. -/
theorem find_foldl_enter (key : ν → Option κ) (k : κ) : ∀ (l : List ν) (m : UnorderedMap κ ν),
    (l.foldl (enter key) m).find k = (m.find k).or (l.find? fun v => key v = some k) := by
  intro l
  induction l with
  | nil => intro m; rw [List.foldl_nil, List.find?_nil, Option.or_none]
  | cons v l ih =>
    intro m
    have hturn : (enter key m v).find k =
        (m.find k).or (if key v = some k then some v else none) := by
      rw [enter]
      cases key v with
      | none => rw [if_neg nofun, Option.or_none]
      | some k' =>
        dsimp only
        rw [find_emplace]
        by_cases h : k = k'
        · rw [if_pos h, if_pos (congrArg some h.symm), ← h]
          cases m.find k <;> rfl
        · rw [if_neg h, if_neg fun hs => h (Option.some.inj hs).symm, Option.or_none]
    rw [List.foldl_cons, ih, hturn, Option.or_assoc, List.find?_cons]
    by_cases h : key v = some k
    · rw [if_pos h, decide_eq_true h, Option.some_or]
    · rw [if_neg h, decide_eq_false h, Option.none_or]

end Update

/-! ### Sets of buckets -/

variable {α : Type*}

/-- The set that `m[k]` refers to. -/
def bucket (m : UnorderedMap κ (Finset α)) (k : κ) : Finset α := (m.find k).getD ∅

variable [DecidableEq κ]

theorem bucket_insertAt (m : UnorderedMap κ (Finset α)) (k k' : κ) (s : Finset α) :
    (m.insertAt k s).bucket k' = if k' = k then s else m.bucket k' := by
  rw [bucket, find_insertAt]
  split <;> rfl

/-- `m[k]` with nothing done to the set. -/
def touch (m : UnorderedMap κ (Finset α)) (k : κ) : UnorderedMap κ (Finset α) :=
  m.insertAt k (m.bucket k)

@[simp] theorem bucket_touch (m : UnorderedMap κ (Finset α)) (k k' : κ) :
    (m.touch k).bucket k' = m.bucket k' := by
  rw [touch, bucket_insertAt]
  split
  · rename_i h; rw [h]
  · rfl

variable [DecidableEq α]

/-- `m[k].insert(a)`. -/
def insertIn (m : UnorderedMap κ (Finset α)) (k : κ) (a : α) : UnorderedMap κ (Finset α) :=
  m.insertAt k (insert a (m.bucket k))

def eraseIn (m : UnorderedMap κ (Finset α)) (k : κ) (a : α) : UnorderedMap κ (Finset α) :=
  m.insertAt k ((m.bucket k).erase a)

theorem mem_insertIn {m : UnorderedMap κ (Finset α)} {k k' : κ} {a b : α} :
    b ∈ (m.insertIn k a).bucket k' ↔ (k' = k ∧ b = a) ∨ b ∈ m.bucket k' := by
  rw [insertIn, bucket_insertAt]
  split
  · rename_i h; rw [Finset.mem_insert, h]; simp
  · rename_i h; simp [h]

theorem mem_eraseIn {m : UnorderedMap κ (Finset α)} {k k' : κ} {a b : α} :
    b ∈ (m.eraseIn k a).bucket k' ↔ ¬ (k' = k ∧ b = a) ∧ b ∈ m.bucket k' := by
  rw [eraseIn, bucket_insertAt]
  split
  · rename_i h; rw [Finset.mem_erase, h]; simp
  · rename_i h; simp [h]

end UnorderedMap

/-! ### Lists of elements with a key -/

section Keyed

variable {α κ : Type*} [DecidableEq κ] (key : α → κ)

/-- Every element is the first with its key if and only if the keys are distinct. -/
theorem findIdx?_eq_some_iff_nodup (l : List α) :
    (∀ p a, l[p]? = some a → l.findIdx? (fun b => key b = key a) = some p) ↔
      (l.map key).Nodup := by
  constructor
  · intro h
    rw [List.nodup_iff_getElem?_ne_getElem?]
    intro i j hij hj heq
    rw [List.length_map] at hj
    have hi := List.getElem?_eq_getElem (hij.trans hj)
    have hj := List.getElem?_eq_getElem hj
    rw [List.getElem?_map, List.getElem?_map, hi, hj, Option.map_some, Option.map_some,
      Option.some.injEq] at heq
    have hfirst := h i _ hi
    rw [heq, h j _ hj, Option.some.injEq] at hfirst
    exact hij.ne hfirst.symm
  · intro h p a ha
    obtain ⟨hp, rfl⟩ := List.getElem?_eq_some_iff.mp ha
    refine List.findIdx?_eq_some_iff_getElem.mpr ⟨hp, decide_eq_true rfl, fun j hj hkey => ?_⟩
    have heq := of_decide_eq_true hkey
    have hne := List.nodup_iff_getElem?_ne_getElem?.mp h j p hj (by rwa [List.length_map])
    rw [List.getElem?_map, List.getElem?_map, List.getElem?_eq_getElem (hj.trans hp), ha,
      Option.map_some, Option.map_some, heq] at hne
    exact hne rfl

theorem find?_eq_some_iff_mem {l : List α} (hn : (l.map key).Nodup) {k : κ} {a : α} :
    l.find? (fun b => key b = k) = some a ↔ a ∈ l ∧ key a = k := by
  constructor
  · intro h
    have hkey := List.find?_some h
    exact ⟨List.mem_of_find?_eq_some h, of_decide_eq_true hkey⟩
  · rintro ⟨hmem, rfl⟩
    cases hf : l.find? fun b => key b = key a with
    | none => exact absurd (decide_eq_true rfl) (List.find?_eq_none.mp hf a hmem)
    | some b =>
      have hkey := List.find?_some hf
      have hb := List.mem_of_find?_eq_some hf
      rw [List.inj_on_of_nodup_map hn hb hmem (of_decide_eq_true hkey)]

/-- With distinct keys, what a search finds does not depend on the order. -/
theorem find?_perm {l l' : List α} (hn : (l.map key).Nodup) (hperm : l.Perm l') (k : κ) :
    l.find? (fun b => key b = k) = l'.find? (fun b => key b = k) := by
  have hn' : (l'.map key).Nodup := (hperm.map key).nodup_iff.mp hn
  refine Option.ext fun a => ?_
  rw [find?_eq_some_iff_mem key hn, find?_eq_some_iff_mem key hn', hperm.mem_iff]

end Keyed

/-! ### Enumerations -/

/-- The order in which each set is iterated over. -/
structure Enumeration (α : Type*) where
  order : Finset α → List α
  nodup : ∀ s, (order s).Nodup
  mem_order : ∀ s a, a ∈ order s ↔ a ∈ s

namespace Enumeration

variable {α : Type*} (o : Enumeration α)

def sorted (α : Type*) [LinearOrder α] : Enumeration α :=
  ⟨fun s => s.sort (· ≤ ·), fun s => s.sort_nodup (· ≤ ·), fun s _ => s.mem_sort (· ≤ ·)⟩

theorem pairwise_sorted {α : Type*} [LinearOrder α] (s : Finset α) :
    ((sorted α).order s).Pairwise (· < ·) := (Finset.sortedLT_sort s).pairwise

/-- The order of `o`, but `l` for the set of its elements. -/
def patch [DecidableEq α] (l : List α) (hl : l.Nodup) : Enumeration α :=
  ⟨fun s => if s = l.toFinset then l else o.order s,
    fun s => by split <;> [exact hl; exact o.nodup s],
    fun s a => by
      split
      · rename_i h; rw [h, List.mem_toFinset]
      · exact o.mem_order s a⟩

end Enumeration

end GameService.Lib
