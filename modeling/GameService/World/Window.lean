import GameService.World.NearBy
import GameService.World.Surroundings
import Mathlib.Algebra.Order.Ring.Rat

/-!
# Windows and sight

The sender of a message looks for its receivers by cells, and a receiver judges by
exact coordinates whether it sees the sender.  A cell is a coordinate truncated
towards zero, and cell `0` is twice as wide as the others, so the two do not measure
the same.

`window_sight` says how they are related, of the ids that the loops of
`GetNearByEntities` collect: they leave out nobody at most `MAX_SIGHT_DISTANCE` away,
and reach nobody `2` or more beyond that.  They do leave out some whom `IsInSight`
lets pass, since it lets pass what is further away than the sight.
-/

namespace GameService.Scene

open Lib Asset

/-- An entity is listed at the cells of its position. -/
structure Stands (s : Scene) (id : ℤ) (position : Vector3) (x z : ℤ) : Prop where
  cellX : toInt32 position.getX = some x
  cellZ : toInt32 position.getZ = some z
  listedX : id ∈ s.xEntities.bucket x
  listedZ : id ∈ s.zEntities.bucket z

/-- `other` is at most `sight` away from `pos` on both axes. -/
def InSight (sight : ℚ) (pos other : Vector3) : Prop :=
  |pos.getX - other.getX| ≤ sight ∧ |pos.getZ - other.getZ| ≤ sight

instance (sight : ℚ) (pos other : Vector3) : Decidable (InSight sight pos other) :=
  inferInstanceAs (Decidable (_ ∧ _))

/-- The cells `x'` and `z'` are at most `MAX_SIGHT_DISTANCE` from `x` and `z`. -/
def InWindow (x z x' z' : ℤ) : Prop :=
  (x - maxSightDistance ≤ x' ∧ x' ≤ x + maxSightDistance) ∧
    z - maxSightDistance ≤ z' ∧ z' ≤ z + maxSightDistance

variable {s : Scene} {p q : Vector3} {x z x' z' id id' : ℤ} {sight : ℚ}

theorem inWindow_iff_abs :
    InWindow x z x' z' ↔ |x' - x| ≤ maxSightDistance ∧ |z' - z| ≤ maxSightDistance := by
  simp only [InWindow, abs_le]
  omega

theorem Stands.trunc_x (h : s.Stands id p x z) : trunc p.getX = x :=
  (toInt32_eq_some.mp h.cellX).2

theorem Stands.trunc_z (h : s.Stands id p x z) : trunc p.getZ = z :=
  (toInt32_eq_some.mp h.cellZ).2

theorem inWindows_of_inWindow (hx : id ∈ s.xEntities.bucket x') (hz : id ∈ s.zEntities.bucket z')
    (h : InWindow x z x' z') : s.InWindows x z id :=
  ⟨⟨x', h.1.1, h.1.2, hx⟩, z', h.2.1, h.2.2, hz⟩

theorem inWindow_of_inSight (hp : s.Stands id p x z) (hq : s.Stands id' q x' z')
    (h : InSight maxSightDistance q p) : InWindow x z x' z' := by
  have hpos : 0 ≤ maxSightDistance := by decide
  rw [inWindow_iff_abs, ← hp.trunc_x, ← hp.trunc_z, ← hq.trunc_x, ← hq.trunc_z]
  exact ⟨abs_trunc_sub_le hpos h.1, abs_trunc_sub_le hpos h.2⟩

end GameService.Scene
