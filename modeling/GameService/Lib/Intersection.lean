import Mathlib.Data.List.Nodup
import Mathlib.Order.Lattice
import Mathlib.Tactic.Common

/-!
# `std::set_intersection`

The merge of two ranges that keeps the elements both have.  It is specified for
sorted ranges; on others it is still defined, and loses elements.

`mem_setIntersection` and `nodup_setIntersection` hold for all ranges: what the
merge gives is common to both, and no element comes twice.  For ranges without
repetition `complete_iff_aligned` says when nothing is lost.  The two ranges
have to be `Aligned`: they have their common elements in the same order, and in
each of them every other element is smaller than the next common one
(`Climbs`).  Sorted ranges are aligned (`aligned_of_sorted`).
-/

namespace GameService.Lib

open List

variable {α : Type*} [LinearOrder α]

/-- `std::set_intersection(xs.begin(), xs.end(), zs.begin(), zs.end(), out)`. -/
def setIntersection : List α → List α → List α
  | [], _ => []
  | _, [] => []
  | x :: xs, z :: zs =>
    if x < z then setIntersection xs (z :: zs)
    else if z < x then setIntersection (x :: xs) zs
    else x :: setIntersection xs zs
termination_by xs zs => xs.length + zs.length

theorem setIntersection_nil_right (xs : List α) : setIntersection xs [] = [] := by
  cases xs <;> simp [setIntersection]

theorem setIntersection_of_lt {x z : α} (h : x < z) (xs zs : List α) :
    setIntersection (x :: xs) (z :: zs) = setIntersection xs (z :: zs) := by
  rw [setIntersection, if_pos h]

theorem setIntersection_of_gt {x z : α} (h : z < x) (xs zs : List α) :
    setIntersection (x :: xs) (z :: zs) = setIntersection (x :: xs) zs := by
  rw [setIntersection, if_neg h.asymm, if_pos h]

theorem setIntersection_self (x : α) (xs zs : List α) :
    setIntersection (x :: xs) (x :: zs) = x :: setIntersection xs zs := by
  rw [setIntersection, if_neg (lt_irrefl x), if_neg (lt_irrefl x)]

theorem merge_induction {motive : List α → List α → Prop} (nil_left : ∀ zs, motive [] zs)
    (nil_right : ∀ xs, motive xs [])
    (lt : ∀ x xs z zs, x < z → motive xs (z :: zs) → motive (x :: xs) (z :: zs))
    (gt : ∀ x xs z zs, z < x → motive (x :: xs) zs → motive (x :: xs) (z :: zs))
    (eq : ∀ x xs zs, motive xs zs → motive (x :: xs) (x :: zs)) :
    ∀ xs zs, motive xs zs := by
  intro xs zs
  induction xs, zs using setIntersection.induct with
  | case1 zs => exact nil_left zs
  | case2 xs => exact nil_right xs
  | case3 x xs z zs h ih => exact lt x xs z zs h ih
  | case4 x xs z zs h h' ih => exact gt x xs z zs h' ih
  | case5 x xs z zs h h' ih =>
    obtain rfl := le_antisymm (not_lt.mp h') (not_lt.mp h)
    exact eq x xs zs ih

theorem setIntersection_sublist (xs zs : List α) :
    setIntersection xs zs <+ xs ∧ setIntersection xs zs <+ zs := by
  refine merge_induction (motive := fun xs zs => setIntersection xs zs <+ xs ∧
    setIntersection xs zs <+ zs) ?_ ?_ ?_ ?_ ?_ xs zs
  · intro zs; rw [setIntersection]; exact ⟨List.nil_sublist _, List.nil_sublist _⟩
  · intro xs
    rw [setIntersection_nil_right]
    exact ⟨List.nil_sublist _, List.nil_sublist _⟩
  · intro x xs z zs h ih
    rw [setIntersection_of_lt h]
    exact ⟨ih.1.cons x, ih.2⟩
  · intro x xs z zs h ih
    rw [setIntersection_of_gt h]
    exact ⟨ih.1, ih.2.cons z⟩
  · intro x xs zs ih
    rw [setIntersection_self]
    exact ⟨ih.1.cons_cons x, ih.2.cons_cons x⟩

theorem mem_setIntersection {xs zs : List α} {c : α} (h : c ∈ setIntersection xs zs) :
    c ∈ xs ∧ c ∈ zs :=
  ⟨(setIntersection_sublist xs zs).1.subset h, (setIntersection_sublist xs zs).2.subset h⟩

theorem nodup_setIntersection {xs : List α} (h : xs.Nodup) (zs : List α) :
    (setIntersection xs zs).Nodup := (setIntersection_sublist xs zs).1.nodup h

/-! ### When nothing is lost -/

/-- Every element outside `common` is smaller than the next one in it. -/
def Climbs (common : List α) : List α → Prop
  | [] => True
  | a :: l => (a ∉ common → ∀ c, l.find? (· ∈ common) = some c → a < c) ∧ Climbs common l

/-- The common elements come in the same order, and every other element is
smaller than the next common one of its range. -/
structure Aligned (xs zs : List α) : Prop where
  same : xs.filter (· ∈ zs) = zs.filter (· ∈ xs)
  left : Climbs zs xs
  right : Climbs xs zs

def Complete (xs zs : List α) : Prop := ∀ c, c ∈ xs → c ∈ zs → c ∈ setIntersection xs zs

theorem setIntersection_comm (xs zs : List α) : setIntersection xs zs = setIntersection zs xs := by
  refine merge_induction (motive := fun xs zs => setIntersection xs zs = setIntersection zs xs)
    ?_ ?_ ?_ ?_ ?_ xs zs
  · intro zs; rw [setIntersection_nil_right, setIntersection]
  · intro xs; rw [setIntersection_nil_right, setIntersection]
  · intro x xs z zs h ih; rw [setIntersection_of_lt h, setIntersection_of_gt h, ih]
  · intro x xs z zs h ih; rw [setIntersection_of_gt h, setIntersection_of_lt h, ih]
  · intro x xs zs ih; rw [setIntersection_self, setIntersection_self, ih]

variable {x z : α} {xs zs : List α}

theorem Complete.symm (h : Complete xs zs) : Complete zs xs :=
  fun c hz hx => setIntersection_comm xs zs ▸ h c hx hz

theorem Aligned.symm (h : Aligned xs zs) : Aligned zs xs := ⟨h.same.symm, h.right, h.left⟩

theorem Aligned.first (h : Aligned xs zs) : xs.find? (· ∈ zs) = zs.find? (· ∈ xs) := by
  rw [← List.head?_filter, ← List.head?_filter, h.same]

theorem climbs_congr {common common' : List α} : ∀ {l : List α},
    (∀ a ∈ l, a ∈ common ↔ a ∈ common') → (Climbs common l ↔ Climbs common' l) := by
  intro l
  induction l with
  | nil => intro _; exact Iff.rfl
  | cons a l ih =>
    intro h
    have hl : ∀ b ∈ l, b ∈ common ↔ b ∈ common' := fun b hb => h b (List.mem_cons_of_mem a hb)
    have hf : l.find? (· ∈ common) = l.find? (· ∈ common') := by
      rw [← List.head?_filter, ← List.head?_filter]
      exact congrArg List.head? (List.filter_congr fun b hb => decide_eq_decide.mpr (hl b hb))
    rw [Climbs, Climbs, hf, h a List.mem_cons_self, ih hl]

theorem climbs_nil : ∀ l : List α, Climbs [] l := by
  intro l
  induction l with
  | nil => exact trivial
  | cons a l ih => exact ⟨fun _ c hc => absurd (List.find?_some hc) (by simp), ih⟩

theorem aligned_nil_left (zs : List α) : Aligned [] zs :=
  ⟨by simp, trivial, climbs_nil zs⟩

/-- An element outside the other range has to be below the next common one. -/
theorem aligned_cons_left (hx : x ∉ zs) :
    Aligned (x :: xs) zs ↔ Aligned xs zs ∧ ∀ c, xs.find? (· ∈ zs) = some c → x < c := by
  have hmem : ∀ a ∈ zs, a ∈ x :: xs ↔ a ∈ xs := fun a ha => by
    rw [List.mem_cons, or_iff_right]
    rintro rfl
    exact hx ha
  have hfl : (x :: xs).filter (· ∈ zs) = xs.filter (· ∈ zs) :=
    List.filter_cons_of_neg (by simpa using hx)
  have hfr : zs.filter (· ∈ x :: xs) = zs.filter (· ∈ xs) :=
    List.filter_congr fun a ha => decide_eq_decide.mpr (hmem a ha)
  constructor
  · intro h
    refine ⟨⟨?_, h.left.2, (climbs_congr hmem).mp h.right⟩, h.left.1 hx⟩
    rw [← hfl, ← hfr]
    exact h.same
  · rintro ⟨h, hlt⟩
    refine ⟨?_, ⟨fun _ => hlt, h.left⟩, (climbs_congr hmem).mpr h.right⟩
    rw [hfl, hfr]
    exact h.same

theorem aligned_cons_self (hx : x ∉ xs) (hz : x ∉ zs) :
    Aligned (x :: xs) (x :: zs) ↔ Aligned xs zs := by
  have hmx : ∀ a ∈ xs, a ∈ x :: zs ↔ a ∈ zs := fun a ha => by
    rw [List.mem_cons, or_iff_right]
    rintro rfl
    exact hx ha
  have hmz : ∀ a ∈ zs, a ∈ x :: xs ↔ a ∈ xs := fun a ha => by
    rw [List.mem_cons, or_iff_right]
    rintro rfl
    exact hz ha
  have hfx : (x :: xs).filter (· ∈ x :: zs) = x :: xs.filter (· ∈ zs) := by
    rw [List.filter_cons_of_pos (by simp)]
    exact congrArg _ (List.filter_congr fun a ha => decide_eq_decide.mpr (hmx a ha))
  have hfz : (x :: zs).filter (· ∈ x :: xs) = x :: zs.filter (· ∈ xs) := by
    rw [List.filter_cons_of_pos (by simp)]
    exact congrArg _ (List.filter_congr fun a ha => decide_eq_decide.mpr (hmz a ha))
  constructor
  · intro h
    have hs := h.same
    rw [hfx, hfz, List.cons.injEq] at hs
    exact ⟨hs.2, (climbs_congr hmx).mp h.left.2, (climbs_congr hmz).mp h.right.2⟩
  · intro h
    have hself : ∀ l : List α, x ∈ x :: l := fun l => List.mem_cons_self
    refine ⟨?_, ⟨fun hn => absurd (hself zs) hn, (climbs_congr hmx).mpr h.left⟩,
      ⟨fun hn => absurd (hself xs) hn, (climbs_congr hmz).mpr h.right⟩⟩
    rw [hfx, hfz, h.same]

/-- The merge drops a smaller head.  If it is common it is lost, and then the
ranges were not aligned either: the head of the other range is not below it. -/
theorem complete_iff_aligned_of_lt (hlt : x < z) (hx : (x :: xs).Nodup)
    (ih : Complete xs (z :: zs) ↔ Aligned xs (z :: zs)) :
    Complete (x :: xs) (z :: zs) ↔ Aligned (x :: xs) (z :: zs) := by
  by_cases hc : x ∈ z :: zs
  · constructor
    · intro h
      have := h x List.mem_cons_self hc
      rw [setIntersection_of_lt hlt] at this
      exact absurd (mem_setIntersection this).1 (List.nodup_cons.mp hx).1
    · intro h
      have hfirst := h.first
      rw [List.find?_cons_of_pos (by simpa using hc)] at hfirst
      by_cases hz : z ∈ x :: xs
      · rw [List.find?_cons_of_pos (by simpa using hz), Option.some.injEq] at hfirst
        exact absurd hfirst hlt.ne
      · rw [List.find?_cons_of_neg (by simpa using hz)] at hfirst
        exact absurd (h.right.1 hz x hfirst.symm) hlt.asymm
  · have hcomp : Complete (x :: xs) (z :: zs) ↔ Complete xs (z :: zs) := by
      constructor
      · intro h c hcx hcz
        exact setIntersection_of_lt hlt xs zs ▸ h c (List.mem_cons_of_mem x hcx) hcz
      · intro h c hcx hcz
        rw [setIntersection_of_lt hlt]
        rcases List.mem_cons.mp hcx with rfl | hcx
        · exact absurd hcz hc
        · exact h c hcx hcz
    rw [hcomp, ih, aligned_cons_left hc]
    refine ⟨fun h => ⟨h, fun c hfind => ?_⟩, fun h => h.1⟩
    -- the next common element is `z` or above it
    rw [h.first] at hfind
    by_cases hz : z ∈ xs
    · rw [List.find?_cons_of_pos (by simpa using hz), Option.some.injEq] at hfind
      exact hfind ▸ hlt
    · rw [List.find?_cons_of_neg (by simpa using hz)] at hfind
      exact hlt.trans (h.right.1 hz c hfind)

/-- **When the merge is complete**: it loses no common element if and only if
the two ranges are aligned. -/
theorem complete_iff_aligned (xs zs : List α) : xs.Nodup → zs.Nodup →
    (Complete xs zs ↔ Aligned xs zs) := by
  refine merge_induction (motive := fun xs zs => xs.Nodup → zs.Nodup →
    (Complete xs zs ↔ Aligned xs zs)) ?_ ?_ ?_ ?_ ?_ xs zs
  · intro zs _ _
    exact ⟨fun _ => aligned_nil_left zs, fun _ c hc => absurd hc List.not_mem_nil⟩
  · intro xs _ _
    exact ⟨fun _ => (aligned_nil_left xs).symm, fun _ c _ hc => absurd hc List.not_mem_nil⟩
  · intro x xs z zs hlt ih hx hz
    exact complete_iff_aligned_of_lt hlt hx (ih hx.of_cons hz)
  · intro x xs z zs hlt ih hx hz
    have hswap : Complete zs (x :: xs) ↔ Aligned zs (x :: xs) :=
      ⟨fun h => ((ih hx hz.of_cons).mp h.symm).symm, fun h => ((ih hx hz.of_cons).mpr h.symm).symm⟩
    have := complete_iff_aligned_of_lt hlt hz hswap
    exact ⟨fun h => (this.mp h.symm).symm, fun h => (this.mpr h.symm).symm⟩
  · intro x xs zs ih hx hz
    obtain ⟨hx, hxs⟩ := List.nodup_cons.mp hx
    obtain ⟨hz, hzs⟩ := List.nodup_cons.mp hz
    rw [aligned_cons_self hx hz, ← ih hxs hzs]
    constructor
    · intro h c hcx hcz
      have := h c (List.mem_cons_of_mem x hcx) (List.mem_cons_of_mem x hcz)
      rw [setIntersection_self, List.mem_cons] at this
      exact this.resolve_left fun he => hx (he ▸ hcx)
    · intro h c hcx hcz
      rw [setIntersection_self]
      by_cases he : c = x
      · exact he ▸ List.mem_cons_self
      · exact List.mem_cons_of_mem x (h c ((List.mem_cons.mp hcx).resolve_left he)
          ((List.mem_cons.mp hcz).resolve_left he))

theorem climbs_of_sorted (common : List α) : ∀ {l : List α}, l.Pairwise (· < ·) →
    Climbs common l := by
  intro l
  induction l with
  | nil => intro _; exact trivial
  | cons a l ih =>
    intro h
    obtain ⟨ha, hl⟩ := List.pairwise_cons.mp h
    exact ⟨fun _ c hc => ha c (List.mem_of_find?_eq_some hc), ih hl⟩

theorem aligned_of_sorted (hx : xs.Pairwise (· < ·)) (hz : zs.Pairwise (· < ·)) :
    Aligned xs zs := by
  refine ⟨?_, climbs_of_sorted zs hx, climbs_of_sorted xs hz⟩
  have hperm : xs.filter (· ∈ zs) ~ zs.filter (· ∈ xs) := by
    rw [List.perm_ext_iff_of_nodup ((hx.imp ne_of_lt).filter _) ((hz.imp ne_of_lt).filter _)]
    intro a
    simp only [List.mem_filter, decide_eq_true_eq]
    exact and_comm
  exact hperm.eq_of_pairwise (fun _ _ _ _ h h' => absurd h h'.asymm) (hx.filter _) (hz.filter _)

end GameService.Lib
