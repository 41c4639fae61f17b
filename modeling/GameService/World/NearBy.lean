import GameService.World.Scene

/-!
# The entities near by

`GetNearByEntities` should give the ids that lie within the window on both axes.
It intersects two hash sets with `std::set_intersection`, a merge for sorted
ranges, so the result depends on the orders in which the sets enumerate their
elements.

`NearBy` is the purpose of the call: every such id once, their number returned,
and no id moved.  `nearBy_iff` is the exact condition under which the call
fulfils it, when the window lies within `int32_t`: neither upper bound is the
largest `int32_t`, which the loops cannot pass; the two enumerations are
`Aligned`; and the number of ids fits the returned `int32_t`.
-/

namespace GameService.Scene

open Lib Asset

variable {s : Scene} {position : Vector3} {o : Orders} {x z : ℤ}

/-- The ids that should be found: those in both windows. -/
def InWindows (s : Scene) (x z id : ℤ) : Prop :=
  (∃ k, x - maxSightDistance ≤ k ∧ k ≤ x + maxSightDistance ∧ id ∈ s.xEntities.bucket k) ∧
    ∃ k, z - maxSightDistance ≤ k ∧ k ≤ z + maxSightDistance ∧ id ∈ s.zEntities.bucket k

theorem inWindows_iff {id : ℤ} :
    s.InWindows x z id ↔ id ∈ s.xEntities.window x ∧ id ∈ s.zEntities.window z := by
  rw [InWindows, Index.mem_window, Index.mem_window]

/-- **What `GetNearByEntities` is for**, called with an empty vector by an
entity in the cells `x` and `z`: `ids` are the ids within both windows, each
once, `count` is their number, and every bucket keeps its ids. -/
structure NearBy (s : Scene) (x z count : ℤ) (ids : List ℤ) (s' : Scene) : Prop where
  nodup : ids.Nodup
  mem : ∀ id, id ∈ ids ↔ s.InWindows x z id
  count : count = ids.length
  cells : SameCells s s'

/-- The window around a cell does not leave `int32_t`. -/
def WindowInInt32 (cell : ℤ) : Prop :=
  InInt32 (cell - maxSightDistance) ∧ InInt32 (cell + maxSightDistance)

instance (cell : ℤ) : Decidable (WindowInInt32 cell) := inferInstanceAs (Decidable (_ ∧ _))

/-- Neither loop around the cells leaves `int32_t`. -/
structure NoOverflow (x z : ℤ) : Prop where
  windowX : WindowInInt32 x
  windowZ : WindowInInt32 z
  endX : x + maxSightDistance < 2 ^ 31 - 1
  endZ : z + maxSightDistance < 2 ^ 31 - 1

/-- The loops around a position collect the id on both axes. -/
def Collects (s : Scene) (position : Vector3) (id : ℤ) : Prop :=
  ∃ xs zs s', s.scanAround position = some (xs, zs, s') ∧ id ∈ xs ∧ id ∈ zs

/-- The merge of the two windows, as the call computes it. -/
def merged (o : Orders) (s : Scene) (x z : ℤ) : List ℤ :=
  setIntersection (o.x.order (s.xEntities.window x)) (o.z.order (s.zEntities.window z))

theorem scan_window {m : Index} {cell : ℤ} (hw : WindowInInt32 cell)
    (h : cell + maxSightDistance < 2 ^ 31 - 1) :
    ∃ m', m.scan ∅ (cell - maxSightDistance) (cell + maxSightDistance) =
        some (m.window cell, m') ∧ ∀ k, m'.bucket k = m.bucket k := by
  obtain ⟨h1, h2⟩ := hw.2
  have hnext : InInt32 (cell + maxSightDistance + 1) := ⟨by omega, by omega⟩
  have hlen : (cell + maxSightDistance + 1 - (cell - maxSightDistance)).toNat =
      (2 * maxSightDistance + 1).toNat := by
    congr 1
    omega
  obtain ⟨m', hm', hb⟩ := Index.scan_eq _ m ∅ _ _ hlen hw.1 hnext
  exact ⟨m', by rw [hm', Finset.empty_union]; rfl, hb⟩

theorem scan_window_overflow {m : Index} {cell : ℤ}
    (h : cell + maxSightDistance = 2 ^ 31 - 1) :
    m.scan ∅ (cell - maxSightDistance) (cell + maxSightDistance) = none := by
  rw [h]
  refine Index.scan_overflow _ m ∅ _ rfl ?_
  have : maxSightDistance = 60 := rfl
  omega

/-- Both loops, when they end. -/
theorem scanAround_eq (hx : toInt32 position.getX = some x) (hz : toInt32 position.getZ = some z)
    (hw : NoOverflow x z) : ∃ s', SameCells s s' ∧
      s.scanAround position = some (s.xEntities.window x, s.zEntities.window z, s') := by
  obtain ⟨hwx, hwz, hbx, hbz⟩ := hw
  obtain ⟨mx, hmx, hcx⟩ := scan_window (m := s.xEntities) hwx hbx
  obtain ⟨mz, hmz, hcz⟩ := scan_window (m := s.zEntities) hwz hbz
  refine ⟨{ s with xEntities := mx, zEntities := mz }, ⟨rfl, hcx, hcz⟩, ?_⟩
  rw [scanAround, hx, hz]
  simp only [Option.bind_eq_bind, Option.bind_some, checked32, if_pos hwx.1, if_pos hwx.2,
    if_pos hwz.1, if_pos hwz.2, hmx, hmz]
  rfl

/-- **What the loops collect.** -/
theorem collects_iff (hx : toInt32 position.getX = some x) (hz : toInt32 position.getZ = some z)
    (hw : NoOverflow x z) {id : ℤ} : s.Collects position id ↔ s.InWindows x z id := by
  obtain ⟨s', -, hscan⟩ := scanAround_eq (s := s) hx hz hw
  rw [inWindows_iff]
  constructor
  · rintro ⟨xs, zs, t, ht, hids⟩
    cases hscan.symm.trans ht
    exact hids
  · intro hids
    exact ⟨_, _, s', hscan, hids⟩

/-- **What the call does** when both loops end. -/
theorem getNearByEntities_eq (hx : toInt32 position.getX = some x)
    (hz : toInt32 position.getZ = some z) (hw : NoOverflow x z) (entities : List ℤ) :
    ∃ s', SameCells s s' ∧ s.getNearByEntities o position entities =
      some (wrap32 (entities ++ merged o s x z).length, entities ++ merged o s x z, s') := by
  obtain ⟨s', hcells, hscan⟩ := scanAround_eq (s := s) hx hz hw
  refine ⟨s', hcells, ?_⟩
  rw [getNearByEntities, hscan]
  rfl

/-- A window that ends at the largest `int32_t` makes the call undefined. -/
theorem getNearByEntities_overflow (hx : toInt32 position.getX = some x)
    (hz : toInt32 position.getZ = some z) (hwx : WindowInInt32 x) (hwz : WindowInInt32 z)
    (h : x + maxSightDistance = 2 ^ 31 - 1 ∨ z + maxSightDistance = 2 ^ 31 - 1)
    (entities : List ℤ) : s.getNearByEntities o position entities = none := by
  rw [getNearByEntities, scanAround, hx, hz]
  simp only [Option.bind_eq_bind, Option.bind_some, checked32, if_pos hwx.1, if_pos hwx.2,
    if_pos hwz.1, if_pos hwz.2]
  rcases h with h | h
  · rw [scan_window_overflow h]
    rfl
  · rw [scan_window_overflow h]
    cases s.xEntities.scan ∅ (x - maxSightDistance) (x + maxSightDistance) <;> rfl

theorem mem_merged_iff : (∀ id, id ∈ merged o s x z ↔ s.InWindows x z id) ↔
    Aligned (o.x.order (s.xEntities.window x)) (o.z.order (s.zEntities.window z)) := by
  rw [← complete_iff_aligned _ _ (o.x.nodup _) (o.z.nodup _)]
  simp only [inWindows_iff, merged]
  constructor
  · intro h id hx hz
    rw [o.x.mem_order] at hx
    rw [o.z.mem_order] at hz
    exact (h id).mpr ⟨hx, hz⟩
  · intro h id
    constructor
    · intro hid
      have := mem_setIntersection hid
      rwa [o.x.mem_order, o.z.mem_order] at this
    · intro hid
      refine h id ?_ ?_
      · rw [o.x.mem_order]; exact hid.1
      · rw [o.z.mem_order]; exact hid.2

theorem nodup_merged : (merged o s x z).Nodup := nodup_setIntersection (o.x.nodup _) _

theorem length_merged (h : ∀ id, id ∈ merged o s x z ↔ s.InWindows x z id) :
    (merged o s x z).length = (s.xEntities.window x ∩ s.zEntities.window z).card := by
  rw [← List.toFinset_card_of_nodup nodup_merged]
  refine congrArg Finset.card (Finset.ext fun id => ?_)
  rw [List.mem_toFinset, h, inWindows_iff, Finset.mem_inter]

/-- **When the call finds the entities near by.**  The window lies within
`int32_t`; then the call is right if and only if neither loop runs to the
largest `int32_t`, the two sets enumerate their ids in aligned orders, and there
are fewer than `2 ^ 31` ids to return. -/
theorem nearBy_iff (o : Orders) (s : Scene) (position : Vector3) (x z : ℤ)
    (hx : toInt32 position.getX = some x) (hz : toInt32 position.getZ = some z)
    (hwx : WindowInInt32 x) (hwz : WindowInInt32 z) :
    (∃ count ids s', s.getNearByEntities o position [] = some (count, ids, s') ∧
        NearBy s x z count ids s') ↔
      x + maxSightDistance < 2 ^ 31 - 1 ∧ z + maxSightDistance < 2 ^ 31 - 1 ∧
        Aligned (o.x.order (s.xEntities.window x)) (o.z.order (s.zEntities.window z)) ∧
        (s.xEntities.window x ∩ s.zEntities.window z).card < 2 ^ 31 := by
  have hxmax : x + maxSightDistance < 2 ^ 31 := hwx.2.2
  have hzmax : z + maxSightDistance < 2 ^ 31 := hwz.2.2
  constructor
  · rintro ⟨count, ids, s', hcall, hnear⟩
    have hends : x + maxSightDistance < 2 ^ 31 - 1 ∧ z + maxSightDistance < 2 ^ 31 - 1 := by
      by_contra hcon
      have := getNearByEntities_overflow (o := o) (s := s) hx hz hwx hwz (by omega) []
      rw [hcall] at this
      cases this
    obtain ⟨t, _, ht⟩ := getNearByEntities_eq (o := o) (s := s) hx hz
      ⟨hwx, hwz, hends.1, hends.2⟩ []
    rw [hcall, List.nil_append, Option.some.injEq, Prod.mk.injEq, Prod.mk.injEq] at ht
    obtain ⟨hcount, hids, _⟩ := ht
    have hmem := hids ▸ hnear.mem
    refine ⟨hends.1, hends.2, mem_merged_iff.mp hmem, ?_⟩
    rw [← length_merged hmem, ← hids]
    refine (wrap32_natCast _).mp ?_
    rw [hids, ← hcount, hnear.count, hids]
  · rintro ⟨hbx, hbz, hal, hcard⟩
    obtain ⟨s', hcells, hcall⟩ :=
      getNearByEntities_eq (o := o) (s := s) hx hz ⟨hwx, hwz, hbx, hbz⟩ []
    have hmem := mem_merged_iff.mpr hal
    refine ⟨_, _, s', hcall, nodup_merged, hmem, ?_, hcells⟩
    rw [List.nil_append]
    exact (wrap32_natCast _).mpr (length_merged hmem ▸ hcard)

def pair : Scene :=
  { xEntities := (∅ : Index).insertAt 0 {1, 2}, zEntities := (∅ : Index).insertAt 0 {1, 2} }

def sortedOrders : Orders := ⟨.sorted ℤ, .sorted ℤ⟩

def oppositeOrders : Orders :=
  ⟨(Enumeration.sorted ℤ).patch [1, 2] (by decide), (Enumeration.sorted ℤ).patch [2, 1] (by decide)⟩

theorem pair_nearBy : ∃ count ids s', pair.getNearByEntities sortedOrders {} [] =
    some (count, ids, s') ∧ NearBy pair 0 0 count ids s' := by
  have hcell : toInt32 0 = some 0 := by decide +kernel
  refine (nearBy_iff sortedOrders pair {} 0 0 hcell hcell (by decide) (by decide)).mpr
    ⟨by decide, by decide, ?_, by decide +kernel⟩
  exact aligned_of_sorted (Enumeration.pairwise_sorted _) (Enumeration.pairwise_sorted _)

/-- With opposite orders the call drops entity `1`. -/
theorem pair_opposite_not_nearBy :
    (pair.getNearByEntities oppositeOrders {} []).map (fun r => (r.1, r.2.1)) = some (1, [2]) ∧
      ¬ ∃ count ids s', pair.getNearByEntities oppositeOrders {} [] = some (count, ids, s') ∧
        NearBy pair 0 0 count ids s' := by
  have hcall : (pair.getNearByEntities oppositeOrders {} []).map (fun r => (r.1, r.2.1)) =
      some (1, [2]) := by decide +kernel
  refine ⟨hcall, ?_⟩
  rintro ⟨count, ids, s', h, hnear⟩
  rw [h, Option.map_some, Option.some.injEq, Prod.mk.injEq] at hcall
  obtain rfl : ids = [2] := hcall.2
  have h1 : (1 : ℤ) ∈ [(2 : ℤ)] := (hnear.mem 1).mpr (inWindows_iff.mpr (by decide +kernel))
  exact absurd h1 (by decide)

end GameService.Scene
