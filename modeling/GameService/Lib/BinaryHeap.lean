import Mathlib.Data.List.Perm.Basic
import Mathlib.Data.List.GetD
import Mathlib.Tactic.Common

/-!
# The binary heap of a C++ `std::priority_queue`

A `std::priority_queue` keeps its elements in a vector, slot `0` being the
greatest one for `operator<`.  The standard fixes that much; the order in which
the remaining elements lie is decided by the library's `push_heap` and
`pop_heap`, which this file follows in the form libstdc++ gives them.

`siftUp` is `__push_heap`: it moves a hole towards the root, pulling each
smaller parent down, and puts the value where it stops.  `siftDown` is the loop
of `__adjust_heap`: it moves a hole from the root to a leaf, always pulling up
the greater child and the right one when they are equal.  `pop` takes the last
element out, sinks the hole left by the old top to a leaf and sifts that element
up from there.

`push_perm` and `pop_perm` say that no element is lost or made up.
`Ordered.push` and `Ordered.pop` say that both keep the heap ordered, and
`Ordered.top_max` that slot `0` of an ordered heap is a greatest element.  The
two sifts share `HoleOrder`, the order of a heap that ignores the hole.
-/

namespace GameService.Lib

/-- An `operator<` that C++ accepts for ordering: a strict weak order. -/
class LessThan (α : Type*) where
  less : α → α → Bool
  asymm : ∀ {a b : α}, less a b = true → less b a = false
  negTrans : ∀ {a b c : α}, less a b = false → less b c = false → less a c = false

namespace BinaryHeap

open List LessThan

variable {α : Type*} {l : List α} {hole i : ℕ} {value : α}

/-! ### Slots -/

theorem cons_set_perm (a : α) (h : i < l.length) : l[i] :: l.set i a ~ a :: l :=
  ((List.set_perm_cons_eraseIdx h a).cons _).trans
    ((List.Perm.swap _ _ _).trans ((List.getElem_cons_eraseIdx_perm h).cons a))

/-- Filling the hole from another slot moves the hole there. -/
theorem set_set_perm {j : ℕ} (a : α) (hi : i < l.length) (hj : j < l.length) (hij : i ≠ j) :
    (l.set i l[j]).set j a ~ l.set i a := by
  have h1 : l[j] :: (l.set i l[j]).set j a ~ a :: l.set i l[j] := by
    have := cons_set_perm (l := l.set i l[j]) (i := j) a (by simpa using hj)
    rwa [List.getElem_set_ne hij] at this
  have h2 := cons_set_perm (l := l) l[j] hi
  have h3 := cons_set_perm (l := l) a hi
  refine ((List.perm_cons l[j]).mp ((List.perm_cons l[i]).mp ?_))
  calc l[i] :: l[j] :: (l.set i l[j]).set j a
      _ ~ l[i] :: a :: l.set i l[j] := h1.cons _
      _ ~ a :: l[i] :: l.set i l[j] := List.Perm.swap _ _ _
      _ ~ a :: l[j] :: l := h2.cons _
      _ ~ l[j] :: a :: l := List.Perm.swap _ _ _
      _ ~ l[j] :: l[i] :: l.set i a := (h3.symm).cons _
      _ ~ l[i] :: l[j] :: l.set i a := List.Perm.swap _ _ _

theorem getD_eq_getElem (value : α) (h : i < l.length) : l.getD i value = l[i] :=
  List.getD_eq_getElem l value h

/-! ### The sifts -/

variable [LessThan α]

/-- `__push_heap`: the hole moves up while its parent is less than the value. -/
def siftUp (l : List α) (hole : ℕ) (value : α) : List α :=
  if 0 < hole ∧ less (l.getD ((hole - 1) / 2) value) value = true then
    siftUp (l.set hole (l.getD ((hole - 1) / 2) value)) ((hole - 1) / 2) value
  else l.set hole value
termination_by hole
decreasing_by omega

/-- The child `__adjust_heap` pulls up when there are two: the right one, unless
it is less than the left one. -/
def greaterChild (l : List α) (hole : ℕ) (value : α) : ℕ :=
  if less (l.getD (2 * (hole + 1)) value) (l.getD (2 * (hole + 1) - 1) value) = true then
    2 * (hole + 1) - 1
  else 2 * (hole + 1)

theorem greaterChild_eq (l : List α) (hole : ℕ) (value : α) :
    greaterChild l hole value = 2 * hole + 1 ∨ greaterChild l hole value = 2 * hole + 2 := by
  unfold greaterChild
  split <;> omega

/-- The loop of `__adjust_heap`: the hole sinks to a leaf.  The last branch but
one is the lone left child at the end of a heap of even length. -/
def siftDown (l : List α) (hole : ℕ) (value : α) : List α × ℕ :=
  if hole < (l.length - 1) / 2 then
    siftDown (l.set hole (l.getD (greaterChild l hole value) value))
      (greaterChild l hole value) value
  else if l.length % 2 = 0 ∧ hole = (l.length - 2) / 2 then
    (l.set hole (l.getD (2 * (hole + 1) - 1) value), 2 * (hole + 1) - 1)
  else (l, hole)
termination_by l.length - hole
decreasing_by
  rename_i h
  rw [List.length_set]
  have := greaterChild_eq l hole value
  omega

/-- `push_heap` after a `push_back`. -/
def push (l : List α) (value : α) : List α :=
  siftUp (l ++ [value]) l.length value

/-- `__adjust_heap` from the root. -/
def adjust (l : List α) (value : α) : List α :=
  siftUp (siftDown l 0 value).1 (siftDown l 0 value).2 value

/-- `pop_heap` followed by `pop_back`.  With a single element `pop_heap` does
nothing; with more, the last element is put back into the heap of the others
with a hole at the root. -/
def pop : List α → List α
  | [] => []
  | [_] => []
  | a :: b :: l => adjust (a :: b :: l).dropLast ((b :: l).getLast (List.cons_ne_nil b l))

/-! ### The elements stay the same -/

theorem siftUp_perm : ∀ (l : List α) (hole : ℕ) (value : α), hole < l.length →
    siftUp l hole value ~ l.set hole value := by
  intro l hole
  induction hole using Nat.strongRecOn generalizing l with
  | ind hole ih =>
    intro value hl
    rw [siftUp]
    split
    · rename_i h
      have hp : (hole - 1) / 2 < l.length := by omega
      rw [getD_eq_getElem _ hp]
      exact (ih _ (by omega) _ value (by simpa using hp)).trans
        (set_set_perm value hl hp (by omega))
    · exact List.Perm.refl _

/-- What the sinking loop leaves: the same elements once the hole is filled, in
a list of the same length, with the hole inside it. -/
theorem siftDown_spec : ∀ (n : ℕ) (l : List α) (hole : ℕ) (value : α), l.length - hole = n →
    hole < l.length →
    (siftDown l hole value).1.set (siftDown l hole value).2 value ~ l.set hole value ∧
      (siftDown l hole value).1.length = l.length ∧ (siftDown l hole value).2 < l.length := by
  intro n
  induction n using Nat.strongRecOn with
  | ind n ih =>
    intro l hole value hn hl
    have hc := greaterChild_eq l hole value
    rw [siftDown]
    split
    · have hcl : greaterChild l hole value < l.length := by omega
      rw [getD_eq_getElem _ hcl]
      obtain ⟨h1, h2, h3⟩ := ih (l.length - greaterChild l hole value) (by omega)
        (l.set hole l[greaterChild l hole value]) (greaterChild l hole value) value
        (by rw [List.length_set]) (by rwa [List.length_set])
      rw [List.length_set] at h2 h3
      exact ⟨h1.trans (set_set_perm value hl hcl (by omega)), h2, h3⟩
    · split
      · have hcl : 2 * (hole + 1) - 1 < l.length := by omega
        rw [getD_eq_getElem _ hcl]
        exact ⟨set_set_perm value hl hcl (by omega), List.length_set, hcl⟩
      · exact ⟨List.Perm.refl _, rfl, hl⟩

theorem push_perm (l : List α) (value : α) : push l value ~ value :: l := by
  refine (siftUp_perm _ _ value (by simp)).trans ?_
  rw [List.set_append_right _ _ (Nat.le_refl _), Nat.sub_self, List.set_cons_zero]
  exact List.perm_append_singleton value l

theorem adjust_perm (a value : α) (l : List α) : adjust (a :: l) value ~ value :: l := by
  obtain ⟨h1, h2, h3⟩ := siftDown_spec _ (a :: l) 0 value rfl (by simp)
  exact (siftUp_perm _ _ value (h2.symm ▸ h3)).trans (by rwa [List.set_cons_zero] at h1)

theorem pop_perm : ∀ (a : α) (l : List α), a :: pop (a :: l) ~ a :: l
  | _, [] => List.Perm.refl _
  | a, b :: l => by
    refine List.Perm.cons a ?_
    rw [pop, List.dropLast_cons_cons]
    refine (adjust_perm _ _ _).trans ?_
    calc (b :: l).getLast (List.cons_ne_nil b l) :: (b :: l).dropLast
        _ ~ (b :: l).dropLast ++ [(b :: l).getLast (List.cons_ne_nil b l)] :=
          (List.perm_append_singleton _ _).symm
        _ = b :: l := List.dropLast_append_getLast _

theorem length_push (l : List α) (value : α) : (push l value).length = l.length + 1 :=
  (push_perm l value).length_eq

/-! ### Small heaps -/

theorem push_nil (v : α) : push [] v = [v] := by
  rw [push, siftUp, if_neg]
  · rfl
  · rintro ⟨h, _⟩; exact absurd h (Nat.lt_irrefl 0)

theorem push_one (a v : α) (h : less a v = false) : push [a] v = [a, v] := by
  rw [push, siftUp, if_neg]
  · rfl
  · simp [h]

theorem push_two (a b v : α) (h : less a v = false) : push [a, b] v = [a, b, v] := by
  rw [push, siftUp, if_neg]
  · rfl
  · simp [h]

theorem pop_three (a b c : α) (h : less b c = false) : pop [a, b, c] = [b, c] := by
  show adjust [a, b] c = [b, c]
  rw [adjust, siftDown, if_neg (by simp), if_pos (by simp), siftUp, if_neg]
  · rfl
  · simp [h]

/-! ### The order -/

def Ordered (l : List α) : Prop :=
  ∀ i p c, 0 < i → l[(i - 1) / 2]? = some p → l[i]? = some c → less p c = false

/-- A heap with a hole: the pairs that do not touch the hole are in order, and
so are the hole's parent and its children. -/
structure HoleOrder (l : List α) (hole : ℕ) : Prop where
  except : ∀ i p c, 0 < i → i ≠ hole → (i - 1) / 2 ≠ hole →
    l[(i - 1) / 2]? = some p → l[i]? = some c → less p c = false
  grand : 0 < hole → ∀ i p c, 0 < i → (i - 1) / 2 = hole →
    l[(hole - 1) / 2]? = some p → l[i]? = some c → less p c = false

/-- The value is not less than any child of the hole. -/
def Above (l : List α) (hole : ℕ) (value : α) : Prop :=
  ∀ i c, 0 < i → (i - 1) / 2 = hole → l[i]? = some c → less value c = false

theorem less_irrefl (a : α) : less a a = false := by
  cases h : less a a with
  | false => rfl
  | true => rw [← h]; exact asymm h

theorem HoleOrder.up {p : α} (h : HoleOrder l hole) (h0 : 0 < hole) (hl : hole < l.length)
    (hp : l[(hole - 1) / 2]? = some p) : HoleOrder (l.set hole p) ((hole - 1) / 2) := by
  constructor
  · intro i q c hi hne hpne hq hc
    by_cases hih : i = hole
    · exact absurd (congrArg (fun n => (n - 1) / 2) hih) hpne
    · rw [List.getElem?_set_ne (Ne.symm hih)] at hc
      by_cases hph : (i - 1) / 2 = hole
      · rw [hph, List.getElem?_set_self hl, Option.some.injEq] at hq
        exact hq ▸ h.grand h0 i p c hi hph hp hc
      · rw [List.getElem?_set_ne (Ne.symm hph)] at hq
        exact h.except i q c hi hih hph hq hc
  · intro hpos i q c hi hpi hq hc
    rw [List.getElem?_set_ne (by omega)] at hq
    have hqp : less q p = false := h.except _ q p hpos (by omega) (by omega) hq hp
    by_cases hih : i = hole
    · rw [hih, List.getElem?_set_self hl, Option.some.injEq] at hc
      exact hc ▸ hqp
    · rw [List.getElem?_set_ne (Ne.symm hih)] at hc
      exact negTrans hqp (h.except i p c hi hih (by omega) (hpi ▸ hp) hc)

theorem Above.up {p : α} (h : HoleOrder l hole) (h0 : 0 < hole) (hl : hole < l.length)
    (hp : l[(hole - 1) / 2]? = some p) (hless : less p value = true) :
    Above (l.set hole p) ((hole - 1) / 2) value := by
  intro i c hi hpi hc
  by_cases hih : i = hole
  · rw [hih, List.getElem?_set_self hl, Option.some.injEq] at hc
    exact hc ▸ asymm hless
  · rw [List.getElem?_set_ne (Ne.symm hih)] at hc
    exact negTrans (asymm hless) (h.except i p c hi hih (by omega) (hpi ▸ hp) hc)

/-- Filling the hole with a value that fits between its parent and its children
gives an ordered heap. -/
theorem HoleOrder.fill (h : HoleOrder l hole) (ha : Above l hole value) (hl : hole < l.length)
    (hp : 0 < hole → ∀ p, l[(hole - 1) / 2]? = some p → less p value = false) :
    Ordered (l.set hole value) := by
  intro i p c hi hpi hc
  by_cases hih : i = hole
  · rw [hih, List.getElem?_set_self hl, Option.some.injEq] at hc
    rw [hih, List.getElem?_set_ne (by omega)] at hpi
    exact hc ▸ hp (by omega) p hpi
  · rw [List.getElem?_set_ne (Ne.symm hih)] at hc
    by_cases hph : (i - 1) / 2 = hole
    · rw [hph, List.getElem?_set_self hl, Option.some.injEq] at hpi
      exact hpi ▸ ha i c hi hph hc
    · rw [List.getElem?_set_ne (Ne.symm hph)] at hpi
      exact h.except i p c hi hih hph hpi hc

theorem siftUp_ordered : ∀ (l : List α) (hole : ℕ) (value : α), hole < l.length →
    HoleOrder l hole → Above l hole value → Ordered (siftUp l hole value) := by
  intro l hole
  induction hole using Nat.strongRecOn generalizing l with
  | ind hole ih =>
    intro value hl h ha
    have hp : (hole - 1) / 2 < l.length := by omega
    have hget : l[(hole - 1) / 2]? = some l[(hole - 1) / 2] := List.getElem?_eq_getElem hp
    rw [siftUp, getD_eq_getElem _ hp]
    split
    · rename_i hc
      exact ih _ (by omega) _ value (by simpa using hp) (h.up hc.1 hl hget)
        (Above.up h hc.1 hl hget hc.2)
    · rename_i hc
      refine h.fill ha hl fun h0 p hpe => ?_
      rw [hget, Option.some.injEq] at hpe
      cases hless : less p value with
      | false => rfl
      | true => exact absurd ⟨h0, hpe ▸ hless⟩ hc

theorem Ordered.push (h : Ordered l) (value : α) : Ordered (push l value) := by
  refine siftUp_ordered _ _ value (by simp) ⟨fun i p c hi hne hpne hp hc => ?_, ?_⟩ ?_
  · have hlt : i < l.length := by
      have := (List.getElem?_eq_some_iff.mp hc).1
      simp only [List.length_append, List.length_singleton] at this
      omega
    rw [List.getElem?_append_left (by omega)] at hp hc
    exact h i p c hi hp hc
  · intro _ i p c hi hpi _ hc
    have := (List.getElem?_eq_some_iff.mp hc).1
    simp only [List.length_append, List.length_singleton] at this
    omega
  · intro i c hi hpi hc
    have := (List.getElem?_eq_some_iff.mp hc).1
    simp only [List.length_append, List.length_singleton] at this
    omega

/-- Pulling up a child that no other child of the hole exceeds moves the hole
to it. -/
theorem HoleOrder.down {k : ℕ} {c : α} (h : HoleOrder l hole) (hk0 : 0 < k)
    (hk : (k - 1) / 2 = hole) (hkc : l[k]? = some c) (hl : hole < l.length)
    (hmax : ∀ i d, 0 < i → (i - 1) / 2 = hole → l[i]? = some d → less c d = false) :
    HoleOrder (l.set hole c) k := by
  constructor
  · intro i p d hi hne hpne hp hd
    by_cases hih : i = hole
    · rw [hih, List.getElem?_set_ne (by omega)] at hp
      rw [hih, List.getElem?_set_self hl, Option.some.injEq] at hd
      exact hd ▸ h.grand (by omega) k p c hk0 hk hp hkc
    · rw [List.getElem?_set_ne (Ne.symm hih)] at hd
      by_cases hph : (i - 1) / 2 = hole
      · rw [hph, List.getElem?_set_self hl, Option.some.injEq] at hp
        exact hp ▸ hmax i d hi hph hd
      · rw [List.getElem?_set_ne (Ne.symm hph)] at hp
        exact h.except i p d hi hih hph hp hd
  · intro _ i p d hi hpi hp hd
    rw [hk, List.getElem?_set_self hl, Option.some.injEq] at hp
    rw [List.getElem?_set_ne (by omega)] at hd
    exact hp ▸ h.except i c d hi (by omega) (by omega) (hpi ▸ hkc) hd

theorem greaterChild_max :
    ∀ i d, 0 < i → (i - 1) / 2 = hole → l[i]? = some d →
      less (l.getD (greaterChild l hole value) value) d = false := by
  intro i d hi hpi hd
  obtain ⟨hlt, rfl⟩ := List.getElem?_eq_some_iff.mp hd
  have hi2 : i = 2 * (hole + 1) - 1 ∨ i = 2 * (hole + 1) := by omega
  rw [← getD_eq_getElem value hlt]
  unfold greaterChild
  split
  · rename_i hless
    rcases hi2 with rfl | rfl
    · exact less_irrefl _
    · exact asymm hless
  · rename_i hless
    rcases hi2 with rfl | rfl
    · simpa using hless
    · exact less_irrefl _

theorem siftDown_ordered : ∀ (n : ℕ) (l : List α) (hole : ℕ) (value : α), l.length - hole = n →
    hole < l.length → HoleOrder l hole →
    HoleOrder (siftDown l hole value).1 (siftDown l hole value).2 ∧
      Above (siftDown l hole value).1 (siftDown l hole value).2 value := by
  intro n
  induction n using Nat.strongRecOn with
  | ind n ih =>
    intro l hole value hn hl h
    have hc := greaterChild_eq l hole value
    rw [siftDown]
    split
    · have hcl : greaterChild l hole value < l.length := by omega
      refine ih (l.length - greaterChild l hole value) (by omega) _ _ value
        (by rw [List.length_set]) (by rwa [List.length_set]) ?_
      refine h.down (by omega) (by omega) ?_ hl greaterChild_max
      rw [getD_eq_getElem _ hcl, List.getElem?_eq_getElem hcl]
    · split
      · rename_i heven
        have hcl : 2 * (hole + 1) - 1 < l.length := by omega
        rw [getD_eq_getElem _ hcl]
        refine ⟨h.down (by omega) (by omega) (List.getElem?_eq_getElem hcl) hl ?_, ?_⟩
        · intro i d hi hpi hd
          obtain ⟨hlt, rfl⟩ := List.getElem?_eq_some_iff.mp hd
          obtain rfl : i = 2 * (hole + 1) - 1 := by omega
          exact less_irrefl _
        · intro i d hi hpi hd
          have := (List.getElem?_eq_some_iff.mp hd).1
          rw [List.length_set] at this
          omega
      · refine ⟨h, fun i d hi hpi hd => ?_⟩
        have hlt : i < l.length := (List.getElem?_eq_some_iff.mp hd).1
        omega

theorem Ordered.holeOrder_zero (h : Ordered l) : HoleOrder l 0 :=
  ⟨fun i p c hi _ _ hp hc => h i p c hi hp hc, fun h0 => absurd h0 (by omega)⟩

theorem Ordered.dropLast (h : Ordered l) : Ordered l.dropLast := by
  intro i p c hi hp hc
  rw [List.getElem?_dropLast] at hp hc
  exact h i p c hi (by split at hp <;> simp_all) (by split at hc <;> simp_all)

theorem Ordered.adjust {a : α} (h : Ordered (a :: l)) (value : α) :
    Ordered (adjust (a :: l) value) := by
  obtain ⟨_, h2, h3⟩ := siftDown_spec _ (a :: l) 0 value rfl (by simp)
  obtain ⟨h4, h5⟩ := siftDown_ordered _ (a :: l) 0 value rfl (by simp) h.holeOrder_zero
  exact siftUp_ordered _ _ value (h2.symm ▸ h3) h4 h5

theorem Ordered.nil : Ordered ([] : List α) := by
  intro i p c _ hp _; simp at hp

theorem Ordered.pop : ∀ {l : List α}, Ordered l → Ordered (pop l)
  | [], _ => Ordered.nil
  | [_], _ => Ordered.nil
  | a :: b :: l, h => by
    have := h.dropLast
    rw [List.dropLast_cons_cons] at this
    rw [BinaryHeap.pop, List.dropLast_cons_cons]
    exact this.adjust _

/-- **The top is a greatest element.**  The induction climbs from a slot to the
root. -/
theorem Ordered.top_max {a : α} (h : Ordered (a :: l)) : ∀ x ∈ a :: l, less a x = false := by
  have key : ∀ (i : ℕ) (x : α), (a :: l)[i]? = some x → less a x = false := by
    intro i
    induction i using Nat.strongRecOn with
    | ind i ih =>
      intro x hx
      by_cases h0 : i = 0
      · subst h0
        simp only [List.getElem?_cons_zero, Option.some.injEq] at hx
        exact hx ▸ less_irrefl _
      · have hlt := (List.getElem?_eq_some_iff.mp hx).1
        have hp : (i - 1) / 2 < (a :: l).length := by omega
        have hget := List.getElem?_eq_getElem hp
        exact negTrans (ih _ (by omega) _ hget) (h i _ x (by omega) hget hx)
  intro x hx
  obtain ⟨i, hi⟩ := List.getElem?_of_mem hx
  exact key i x hi

end BinaryHeap

end GameService.Lib
