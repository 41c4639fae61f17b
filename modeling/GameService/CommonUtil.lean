import GameService.Lib.FixedWidth
import GameService.Lib.PrefixSum

/-!
# Choosing by weight

`RandomByWeight` and `RandomItorByWeight` of `CommonUtil.h` draw a number below the sum
of the weights and walk through the elements, taking each weight off it, up to the
element whose weight is larger than what is left.  One returns the index of the element
and the other an iterator to it; an iterator is the rest of the sequence here, and the
draw an argument.

The index is counted in a `size_t` and returned as an `int`, which is not the same from
2^31 on.  `weighted_iff` says that this is all that goes wrong when no weight is
negative, and that with a sum that is not positive nothing does unless it overflows on
the way.
-/

namespace GameService.CommonUtil

open Lib

variable {α : Type}

/-- `Random`, when the generator gives this number; there is none if the bounds are
the wrong way round. -/
def random (min max draw : ℤ) : Option ℤ := if min ≤ draw ∧ draw ≤ max then some draw else none

/-- The first loop, from the sum so far. -/
def sumFrom (w : α → ℤ) : ℤ → List α → Option ℤ
  | sum, [] => some sum
  | sum, x :: l => (checked32 (sum + w x)).bind fun sum => sumFrom w sum l

/-- The second loop of `RandomByWeight`, from an index. -/
def walk (w : α → ℤ) : List α → ℕ → ℤ → Option ℤ
  | [], _, _ => some (-1)
  | x :: l, index, rnd =>
    if rnd < w x then some (wrap32 index)
    else (checked32 (rnd - w x)).bind fun rnd => walk w l (index + 1) rnd

def randomByWeight (w : α → ℤ) (l : List α) (rnd : ℤ) : Option ℤ := do
  let sum ← sumFrom w 0 l
  if sum ≤ 0 then return -1
  else walk w l 0 rnd

def walkItor (w : α → ℤ) : List α → ℤ → Option (List α)
  | [], _ => some []
  | x :: l, rnd =>
    if rnd < w x then some (x :: l)
    else (checked32 (rnd - w x)).bind fun rnd => walkItor w l rnd

def randomItorByWeight (w : α → ℤ) (l : List α) (rnd : ℤ) : Option (List α) := do
  let sum ← sumFrom w 0 l
  if sum ≤ 0 then return []
  else walkItor w l rnd

/-- **What the choice is to be**, over all draws: the element in whose slot the draw
falls, by its index and by an iterator, so that each is chosen for as many draws as its
weight, one of weight `0` never, and some element always. -/
structure Weighted (w : α → ℤ) (l : List α) : Prop where
  chooses : ∀ rnd, 0 ≤ rnd → rnd < (l.map w).sum → ∃ i : ℕ,
    InSlot (l.map w) i rnd ∧ (∀ j, InSlot (l.map w) j rnd → j = i) ∧
    randomByWeight w l rnd = some (i : ℤ) ∧ randomItorByWeight w l rnd = some (l.drop i)
  counts : ∀ (i : ℕ) (x : α), l[i]? = some x →
    (((Finset.Ico 0 (l.map w).sum).filter fun rnd =>
      randomByWeight w l rnd = some (i : ℤ)).card : ℤ) = w x
  never : ∀ rnd, 0 ≤ rnd → rnd < (l.map w).sum → randomByWeight w l rnd ≠ some (-1) ∧
    ∀ (i : ℕ) (x : α), randomByWeight w l rnd = some (i : ℤ) → l[i]? = some x → w x ≠ 0

variable {w : α → ℤ} {l : List α} {rnd sum : ℤ} {i : ℕ}

/-! ### The loops -/

/-- **The first loop** gives the sum, unless a sum on the way to it is no `int`. -/
theorem sumFrom_eq_some : ∀ (l : List α) (start sum : ℤ), sumFrom w start l = some sum ↔
    sum = start + (l.map w).sum ∧
      ∀ i < l.length, InInt32 (start + prefixSum (l.map w) (i + 1)) := by
  intro l
  induction l with
  | nil =>
    intro start sum
    simp [sumFrom, eq_comm]
  | cons x l ih =>
    intro start sum
    rw [sumFrom, Option.bind_eq_some_iff]
    constructor
    · rintro ⟨next, hnext, hrest⟩
      obtain ⟨hin, rfl⟩ := checked32_eq_some.mp hnext
      obtain ⟨rfl, hall⟩ := (ih _ _).mp hrest
      refine ⟨by simp [add_assoc], fun i hi => ?_⟩
      rw [List.map_cons, prefixSum_cons_succ, ← add_assoc]
      cases i with
      | zero => simpa using hin
      | succ i => exact hall i (by simpa using hi)
    · rintro ⟨rfl, hall⟩
      have hin := hall 0 (by simp)
      rw [List.map_cons, prefixSum_cons_succ, prefixSum_zero, add_zero] at hin
      refine ⟨start + w x, checked32_eq_some.mpr ⟨hin, rfl⟩, (ih _ _).mpr ⟨by simp [add_assoc], ?_⟩⟩
      intro i hi
      have := hall (i + 1) (by simpa using hi)
      rwa [List.map_cons, prefixSum_cons_succ, ← add_assoc] at this

section Nonnegative

variable (hnn : ∀ x ∈ l, 0 ≤ w x)

include hnn

theorem map_nonneg : ∀ v ∈ l.map w, 0 ≤ v := by
  intro v hv
  obtain ⟨x, hx, rfl⟩ := List.mem_map.mp hv
  exact hnn x hx

/-- The sum of weights that are not negative is an `int` if all of it is. -/
theorem sumFrom_of_nonneg (hlt : (l.map w).sum < 2 ^ 31) : sumFrom w 0 l = some (l.map w).sum := by
  refine (sumFrom_eq_some l 0 _).mpr ⟨(zero_add _).symm, fun i _ => ?_⟩
  have hlo := prefixSum_nonneg (map_nonneg hnn) (i + 1)
  have hhi := prefixSum_le_sum (map_nonneg hnn) (i + 1)
  rw [zero_add]
  exact ⟨by omega, by omega⟩

/-- **The second loop** stops at the slot of the number. -/
theorem walk_eq (h : InSlot (l.map w) i rnd) (hlt : rnd < 2 ^ 31) (index : ℕ) :
    walk w l index rnd = some (wrap32 ((index + i : ℕ) : ℤ)) ∧
      walkItor w l rnd = some (l.drop i) := by
  induction l generalizing i rnd index with
  | nil =>
    have := (InSlot.bounds (map_nonneg hnn) h).1
    simp at this
  | cons x l ih =>
    have hbounds := (InSlot.bounds (map_nonneg hnn) h).2
    have hnn' : ∀ y ∈ l, 0 ≤ w y := fun y hy => hnn y (List.mem_cons_of_mem x hy)
    rw [List.map_cons] at h
    cases i with
    | zero =>
      have hw := (inSlot_cons_zero.mp h).2
      rw [walk, walkItor, if_pos hw, if_pos hw]
      exact ⟨rfl, rfl⟩
    | succ i =>
      have hrest := inSlot_cons_succ.mp h
      have hpos := (InSlot.bounds (map_nonneg hnn') hrest).2.1
      have hw := hnn x List.mem_cons_self
      have hin : checked32 (rnd - w x) = some (rnd - w x) :=
        checked32_eq_some.mpr ⟨⟨by omega, by omega⟩, rfl⟩
      obtain ⟨hwalk, hitor⟩ := ih hnn' hrest (by omega) (index + 1)
      rw [walk, walkItor, if_neg (by omega), if_neg (by omega), hin, Option.bind_some,
        Option.bind_some, hwalk, hitor]
      refine ⟨?_, rfl⟩
      congr 2
      push_cast
      omega

/-- **The choice**, for a draw in a slot. -/
theorem randomByWeight_eq (h : InSlot (l.map w) i rnd) (hlt : (l.map w).sum < 2 ^ 31) :
    randomByWeight w l rnd = some (wrap32 i) ∧ randomItorByWeight w l rnd = some (l.drop i) := by
  obtain ⟨-, h0, hr⟩ := InSlot.bounds (map_nonneg hnn) h
  obtain ⟨hwalk, hitor⟩ := walk_eq hnn h (by omega) 0
  have hpos : ¬ (l.map w).sum ≤ 0 := by omega
  rw [randomByWeight, randomItorByWeight, sumFrom_of_nonneg hnn hlt]
  simp only [Option.bind_eq_bind, Option.bind_some, if_neg hpos]
  rw [zero_add] at hwalk
  exact ⟨hwalk, hitor⟩

end Nonnegative

/-! ### When the choice is right -/

section Positive

variable (hnn : ∀ x ∈ l, 0 ≤ w x) (hlt : (l.map w).sum < 2 ^ 31)

include hnn hlt

/-- With every slot among the first 2^31, the index returned is the one of the slot. -/
theorem randomByWeight_eq_iff (hall : ∀ i r, InSlot (l.map w) i r → i < 2 ^ 31) (h0 : 0 ≤ rnd)
    (hr : rnd < (l.map w).sum) {value : ℤ} : randomByWeight w l rnd = some value ↔
      ∃ i : ℕ, InSlot (l.map w) i rnd ∧ (i : ℤ) = value := by
  obtain ⟨i, hi⟩ := exists_inSlot (map_nonneg hnn) h0 hr
  rw [(randomByWeight_eq hnn hi hlt).1, (wrap32_natCast i).mpr (hall i rnd hi),
    Option.some.injEq]
  constructor
  · intro h
    exact ⟨i, hi, h⟩
  · rintro ⟨j, hj, rfl⟩
    rw [InSlot.unique (map_nonneg hnn) hi hj]

theorem Weighted.of_forall_lt (hall : ∀ i r, InSlot (l.map w) i r → i < 2 ^ 31) :
    Weighted w l := by
  have hslot : ∀ rnd, 0 ≤ rnd → rnd < (l.map w).sum → ∀ i : ℕ,
      randomByWeight w l rnd = some (i : ℤ) ↔ InSlot (l.map w) i rnd := by
    intro rnd h0 hr i
    rw [randomByWeight_eq_iff hnn hlt hall h0 hr]
    constructor
    · rintro ⟨j, hj, hji⟩
      rwa [← Nat.cast_inj.mp hji]
    · intro h
      exact ⟨i, h, rfl⟩
  constructor
  · intro rnd h0 hr
    obtain ⟨i, hi⟩ := exists_inSlot (map_nonneg hnn) h0 hr
    refine ⟨i, hi, fun j hj => InSlot.unique (map_nonneg hnn) hj hi, (hslot rnd h0 hr i).mpr hi, ?_⟩
    exact (randomByWeight_eq hnn hi hlt).2
  · intro i x hx
    obtain ⟨hlen, rfl⟩ := List.getElem?_eq_some_iff.mp hx
    have hlen' : i < (l.map w).length := by rwa [List.length_map]
    have hcard := card_inSlot (map_nonneg hnn) hlen'
    rw [List.getElem_map] at hcard
    rw [← hcard]
    congr 2
    refine Finset.filter_congr fun rnd hrnd => ?_
    obtain ⟨h0, hr⟩ := Finset.mem_Ico.mp hrnd
    exact hslot rnd h0 hr i
  · intro rnd h0 hr
    constructor
    · intro h
      obtain ⟨i, -, hi⟩ := (randomByWeight_eq_iff hnn hlt hall h0 hr).mp h
      omega
    · intro i x h hx hw
      obtain ⟨hlen, rfl⟩ := List.getElem?_eq_some_iff.mp hx
      have hlen' : i < (l.map w).length := by rwa [List.length_map]
      obtain ⟨h1, h2⟩ := (hslot rnd h0 hr i).mp h
      rw [prefixSum_succ hlen', List.getElem_map, hw] at h2
      omega

/-- A draw in a slot from 2^31 on is given a wrong index. -/
theorem Weighted.forall_lt (h : Weighted w l) : ∀ i r, InSlot (l.map w) i r → i < 2 ^ 31 := by
  intro i r hslot
  obtain ⟨-, h0, hr⟩ := InSlot.bounds (map_nonneg hnn) hslot
  obtain ⟨j, -, hunique, hchosen, -⟩ := h.chooses r h0 hr
  rw [(randomByWeight_eq hnn hslot hlt).1, ← hunique i hslot, Option.some.injEq] at hchosen
  exact (wrap32_natCast i).mp hchosen

end Positive

/-- **When the choice is right.**  For weights that are not negative, with a positive
sum that is an `int`: if and only if the elements after the first 2^31 have weight `0`.
And for any weights whose sum is not positive, `-1` and `end` are returned if and only if
no sum on the way is beyond `int`. -/
theorem weighted_iff (w : α → ℤ) (l : List α) :
    ((∀ x ∈ l, 0 ≤ w x) → 0 < (l.map w).sum → (l.map w).sum < 2 ^ 31 →
      (Weighted w l ↔ ∀ x ∈ l.drop (2 ^ 31), w x = 0)) ∧
    ((l.map w).sum ≤ 0 →
      ((∀ rnd, randomByWeight w l rnd = some (-1) ∧ randomItorByWeight w l rnd = some []) ↔
        ∀ i < l.length, InInt32 (prefixSum (l.map w) (i + 1)))) := by
  constructor
  · intro hnn _ hlt
    have hdrop : (∀ x ∈ l.drop (2 ^ 31), w x = 0) ↔ ∀ v ∈ (l.map w).drop (2 ^ 31), v = 0 := by
      rw [← List.map_drop, List.forall_mem_map]
    rw [hdrop, ← forall_inSlot_lt_iff (map_nonneg hnn)]
    exact ⟨Weighted.forall_lt hnn hlt, Weighted.of_forall_lt hnn hlt⟩
  · intro hsum
    have hdefined := sumFrom_eq_some (w := w) l 0 (l.map w).sum
    simp only [zero_add, true_and] at hdefined
    rw [← hdefined]
    constructor
    · intro h
      have hreturns := (h 0).1
      rw [randomByWeight, Option.bind_eq_bind, Option.bind_eq_some_iff] at hreturns
      obtain ⟨sum, hs, -⟩ := hreturns
      rw [hs, ((sumFrom_eq_some l 0 sum).mp hs).1, zero_add]
    · intro hs rnd
      simp only [randomByWeight, randomItorByWeight, hs, Option.bind_eq_bind, Option.bind_some,
        if_pos hsum]
      exact ⟨rfl, rfl⟩

theorem fewWeights_weighted : Weighted id [0, 2, 3, 0] ∧
    ∀ rnd, randomByWeight id [0, -1] rnd = some (-1) ∧
      randomItorByWeight id [0, -1] rnd = some [] := by
  have hfew := (weighted_iff id [0, 2, 3, 0]).1 (by decide) (by decide) (by decide)
  have hnone := (weighted_iff id [0, -1]).2 (by decide)
  refine ⟨hfew.mpr ?_, hnone.mpr (by decide)⟩
  have hdrop : ([0, 2, 3, 0] : List ℤ).drop (2 ^ 31) = [] :=
    List.drop_eq_nil_of_le (show 4 ≤ 2 ^ 31 by norm_num)
  rw [hdrop]
  exact fun x hx => absurd hx List.not_mem_nil

def lastOnly (n : ℕ) : List ℤ := List.replicate n 0 ++ [1]

theorem lastOnly_nonneg (n : ℕ) : ∀ x ∈ lastOnly n, 0 ≤ id x := by
  intro x hx
  rcases List.mem_append.mp hx with hx | hx
  · rw [List.eq_of_mem_replicate hx, id_eq]
  · rw [List.mem_singleton.mp hx]
    decide

theorem sum_lastOnly (n : ℕ) : ((lastOnly n).map id).sum = 1 := by
  rw [List.map_id, lastOnly, List.sum_append, List.sum_replicate, nsmul_zero, zero_add,
    List.sum_singleton]

theorem inSlot_lastOnly (n : ℕ) : InSlot ((lastOnly n).map id) n 0 := by
  have hlen : ((lastOnly n).map id).length ≤ n + 1 := by
    rw [List.map_id, lastOnly, List.length_append, List.length_replicate, List.length_singleton]
  have hzero : prefixSum ((lastOnly n).map id) n = 0 := by
    rw [List.map_id, lastOnly, prefixSum, List.take_left' List.length_replicate,
      List.sum_replicate, nsmul_zero]
  rw [InSlot, hzero, prefixSum_of_length_le hlen, sum_lastOnly]
  decide

/-- The element with index 2^31 is the only one that can be chosen, and the index
returned is negative. -/
theorem late_not_weighted : (∀ x ∈ lastOnly (2 ^ 31), 0 ≤ id x) ∧
    ((lastOnly (2 ^ 31)).map id).sum = 1 ∧
    randomByWeight id (lastOnly (2 ^ 31)) 0 = some (-2 ^ 31) ∧
    ¬ Weighted id (lastOnly (2 ^ 31)) := by
  have hnn := lastOnly_nonneg (2 ^ 31)
  have hsum := sum_lastOnly (2 ^ 31)
  have hslot := inSlot_lastOnly (2 ^ 31)
  have hlt : ((lastOnly (2 ^ 31)).map id).sum < 2 ^ 31 := by
    rw [hsum]
    norm_num
  refine ⟨hnn, hsum, ?_, fun h => ?_⟩
  · rw [(randomByWeight_eq hnn hslot hlt).1]
    decide
  · exact lt_irrefl _ (h.forall_lt hnn hlt _ _ hslot)

end GameService.CommonUtil
