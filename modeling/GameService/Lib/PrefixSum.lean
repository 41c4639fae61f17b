import Mathlib.Algebra.BigOperators.Group.List.Basic
import Mathlib.Algebra.Order.BigOperators.Group.List
import Mathlib.Algebra.Order.Ring.Int
import Mathlib.Data.Int.ConditionallyCompleteOrder
import Mathlib.Data.Int.Interval
import Mathlib.Order.ConditionallyCompleteLattice.Basic
import Mathlib.Order.Interval.Finset.Basic

/-!
# Prefix sums

A list of weights cuts the numbers from `0` up to its sum into intervals, one for each
weight and as long as it: the number `r` is `InSlot` at `i` when it lies between the
sum of the first `i` weights and that of the first `i + 1`.  When no weight is negative,
every number below the sum is in exactly one slot (`exists_inSlot`, `InSlot.unique`),
and a slot has as many numbers as its weight (`card_inSlot`); `forall_inSlot_lt_iff`
says when the slots of the first few weights are all there are.
-/

namespace GameService.Lib

def prefixSum (ws : List ℤ) (i : ℕ) : ℤ := (ws.take i).sum

/-- The number falls to the weight at position `i`. -/
def InSlot (ws : List ℤ) (i : ℕ) (r : ℤ) : Prop := prefixSum ws i ≤ r ∧ r < prefixSum ws (i + 1)

instance (ws : List ℤ) (i : ℕ) (r : ℤ) : Decidable (InSlot ws i r) :=
  inferInstanceAs (Decidable (_ ∧ _))

variable {ws : List ℤ} {w r : ℤ} {i j : ℕ}

@[simp] theorem prefixSum_zero (ws : List ℤ) : prefixSum ws 0 = 0 := rfl

@[simp] theorem prefixSum_cons_succ (w : ℤ) (ws : List ℤ) (i : ℕ) :
    prefixSum (w :: ws) (i + 1) = w + prefixSum ws i := by
  simp [prefixSum]

theorem prefixSum_of_length_le (h : ws.length ≤ i) : prefixSum ws i = ws.sum := by
  rw [prefixSum, List.take_of_length_le h]

theorem prefixSum_succ (h : i < ws.length) : prefixSum ws (i + 1) = prefixSum ws i + ws[i] := by
  rw [prefixSum, prefixSum, List.sum_take_succ ws i h]

@[simp] theorem inSlot_cons_zero : InSlot (w :: ws) 0 r ↔ 0 ≤ r ∧ r < w := by
  simp [InSlot]

@[simp] theorem inSlot_cons_succ : InSlot (w :: ws) (i + 1) r ↔ InSlot ws i (r - w) := by
  simp only [InSlot, prefixSum_cons_succ]
  omega

section Nonnegative

variable (hnn : ∀ w ∈ ws, 0 ≤ w)

include hnn

theorem prefixSum_mono : Monotone (prefixSum ws) := by
  refine monotone_nat_of_le_succ fun i => ?_
  by_cases h : i < ws.length
  · rw [prefixSum_succ h]
    have := hnn _ (List.getElem_mem h)
    omega
  · rw [prefixSum_of_length_le (not_lt.mp h), prefixSum_of_length_le (by omega)]

theorem prefixSum_nonneg (i : ℕ) : 0 ≤ prefixSum ws i := prefixSum_mono hnn (Nat.zero_le i)

theorem prefixSum_le_sum (i : ℕ) : prefixSum ws i ≤ ws.sum := by
  rw [← prefixSum_of_length_le (le_max_left ws.length i)]
  exact prefixSum_mono hnn (le_max_right ws.length i)

/-- **A number is in one slot only.** -/
theorem InSlot.unique (h : InSlot ws i r) (h' : InSlot ws j r) : i = j := by
  have hno : ∀ {i j}, InSlot ws i r → InSlot ws j r → ¬ i < j := by
    intro i j h h' hlt
    have := prefixSum_mono hnn (Nat.succ_le_of_lt hlt)
    have := h.2
    have := h'.1
    simp only [Nat.succ_eq_add_one] at *
    omega
  have := hno h h'
  have := hno h' h
  omega

/-- **Every number below the sum is in a slot.** -/
theorem exists_inSlot (h0 : 0 ≤ r) (hr : r < ws.sum) : ∃ i, InSlot ws i r := by
  induction ws generalizing r with
  | nil =>
    rw [List.sum_nil] at hr
    omega
  | cons w ws ih =>
    rw [List.sum_cons] at hr
    by_cases hw : r < w
    · exact ⟨0, inSlot_cons_zero.mpr ⟨h0, hw⟩⟩
    · obtain ⟨i, hi⟩ := ih (fun w' hw' => hnn w' (List.mem_cons_of_mem w hw'))
        (show 0 ≤ r - w by omega) (by omega)
      exact ⟨i + 1, inSlot_cons_succ.mpr hi⟩

/-- A slot is that of a weight which is not `0`, and within the sum. -/
theorem InSlot.bounds (h : InSlot ws i r) : i < ws.length ∧ 0 ≤ r ∧ r < ws.sum := by
  have hlo := prefixSum_nonneg hnn i
  have hhi := prefixSum_le_sum hnn (i + 1)
  obtain ⟨h1, h2⟩ := h
  refine ⟨?_, by omega, by omega⟩
  by_contra hge
  rw [prefixSum_of_length_le (not_lt.mp hge), prefixSum_of_length_le (by omega)] at *
  omega

/-- **A slot has as many numbers as its weight.** -/
theorem card_inSlot (h : i < ws.length) :
    (((Finset.Ico 0 ws.sum).filter (InSlot ws i)).card : ℤ) = ws[i] := by
  have hslot : (Finset.Ico 0 ws.sum).filter (InSlot ws i) =
      Finset.Ico (prefixSum ws i) (prefixSum ws (i + 1)) := by
    ext r
    rw [Finset.mem_filter, Finset.mem_Ico, Finset.mem_Ico]
    exact ⟨fun hr => hr.2, fun hr => ⟨(InSlot.bounds hnn hr).2, hr⟩⟩
  have hw := hnn _ (List.getElem_mem h)
  rw [hslot, Int.card_Ico, prefixSum_succ h]
  omega

/-- **Numbers fall to the first `n` weights only** if and only if the others are `0`. -/
theorem forall_inSlot_lt_iff (n : ℕ) :
    (∀ i r, InSlot ws i r → i < n) ↔ ∀ v ∈ ws.drop n, v = 0 := by
  constructor
  · intro h v hv
    obtain ⟨k, hk, rfl⟩ := List.mem_iff_getElem.mp hv
    rw [List.length_drop] at hk
    rw [List.getElem_drop]
    have hlen : n + k < ws.length := by omega
    have hge := hnn _ (List.getElem_mem hlen)
    by_contra hne
    -- the first number of the slot
    have hslot : InSlot ws (n + k) (prefixSum ws (n + k)) := by
      refine ⟨le_refl _, ?_⟩
      rw [prefixSum_succ hlen]
      omega
    have := h _ _ hslot
    omega
  · intro h i r hr
    by_contra hge
    have hlen := (InSlot.bounds hnn hr).1
    have hzero : ws[i] = 0 := by
      refine h _ (List.mem_iff_getElem.mpr ⟨i - n, ?_, ?_⟩)
      · rw [List.length_drop]
        omega
      · rw [List.getElem_drop]
        congr 1
        omega
    obtain ⟨h1, h2⟩ := hr
    rw [prefixSum_succ hlen, hzero] at h2
    omega

end Nonnegative

end GameService.Lib
