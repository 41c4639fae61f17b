import GameService.Asset
import GameService.Lib.FixedWidth
import GameService.Lib.Intersection
import GameService.Lib.Unordered

/-!
# Scene

`Scene.cpp`.  A scene lists the ids of its entities twice, by the cell of their
`x` and by the cell of their `z`: two hash maps from a 32-bit cell to a set of
ids.  A coordinate becomes a cell by the conversion from `float` to `int32_t`,
which truncates towards zero and is undefined out of range; every function here
is undefined then.

An entity enters through its id and its position, since the scene reads nothing
else of it.  `GetNearByEntities` scans the cells at most `MAX_SIGHT_DISTANCE`
away on each axis, collects the ids into two `unordered_set`s (`scanAround`) and
intersects them.  The two enumeration orders are the arguments `Orders`.
-/

namespace GameService

open Lib Asset

def maxSightDistance : ℤ := 60

/-- The ids on one axis, by cell. -/
abbrev Index := UnorderedMap ℤ (Finset ℤ)

/-- A scene; `id` is the `global_id` that `GetID` returns. -/
structure Scene where
  id : ℤ := 0
  xEntities : Index := ∅
  zEntities : Index := ∅

/-- The orders in which `GetNearByEntities` meets the ids of its two sets. -/
structure Orders where
  x : Enumeration ℤ
  z : Enumeration ℤ

namespace Index

/-- The loop over the cells `i`, …, `hi`.  It reads each cell with `operator[]`
and ends after the increment that passes `hi`, which overflows when `hi` is the
largest `int32_t`. -/
def scan (m : Index) (ids : Finset ℤ) (i hi : ℤ) : Option (Finset ℤ × Index) :=
  if i ≤ hi then
    (checked32 (i + 1)).bind fun _ => scan (m.touch i) (ids ∪ m.bucket i) (i + 1) hi
  else some (ids, m)
termination_by (hi + 1 - i).toNat
decreasing_by omega

/-- The ids in the `n` cells from `i` on. -/
def idsFrom (m : Index) (i : ℤ) (n : ℕ) : Finset ℤ :=
  (Finset.range n).biUnion fun j => m.bucket (i + j)

theorem mem_idsFrom {m : Index} {i id : ℤ} {n : ℕ} :
    id ∈ m.idsFrom i n ↔ ∃ k, i ≤ k ∧ k < i + n ∧ id ∈ m.bucket k := by
  rw [idsFrom, Finset.mem_biUnion]
  constructor
  · rintro ⟨j, hj, hid⟩
    rw [Finset.mem_range] at hj
    exact ⟨i + j, by omega, by omega, hid⟩
  · rintro ⟨k, hk, hkn, hid⟩
    refine ⟨(k - i).toNat, Finset.mem_range.mpr (by omega), ?_⟩
    rwa [show i + ((k - i).toNat : ℤ) = k by omega]

@[simp] theorem idsFrom_zero (m : Index) (i : ℤ) : m.idsFrom i 0 = ∅ := rfl

theorem idsFrom_succ (m : Index) (i : ℤ) (n : ℕ) :
    m.idsFrom i (n + 1) = m.bucket i ∪ m.idsFrom (i + 1) n := by
  ext id
  rw [Finset.mem_union, mem_idsFrom, mem_idsFrom]
  constructor
  · rintro ⟨k, hk, hkn, hid⟩
    by_cases h : k = i
    · exact Or.inl (h ▸ hid)
    · exact Or.inr ⟨k, by omega, by omega, hid⟩
  · rintro (hid | ⟨k, hk, hkn, hid⟩)
    · exact ⟨i, le_refl i, by omega, hid⟩
    · exact ⟨k, by omega, by omega, hid⟩

/-- The ids in the cells at most `maxSightDistance` away from `cell`. -/
def window (m : Index) (cell : ℤ) : Finset ℤ :=
  m.idsFrom (cell - maxSightDistance) (2 * maxSightDistance + 1).toNat

theorem mem_window {m : Index} {cell id : ℤ} : id ∈ m.window cell ↔
    ∃ k, cell - maxSightDistance ≤ k ∧ k ≤ cell + maxSightDistance ∧ id ∈ m.bucket k := by
  rw [window, mem_idsFrom]
  have h : maxSightDistance = 60 := rfl
  refine exists_congr fun k => and_congr_right fun _ => and_congr_left fun _ => ?_
  omega

/-- The scan collects the ids of its cells and changes no bucket. -/
theorem scan_eq : ∀ (n : ℕ) (m : Index) (ids : Finset ℤ) (i hi : ℤ), (hi + 1 - i).toNat = n →
    InInt32 i → InInt32 (hi + 1) →
    ∃ m', scan m ids i hi = some (ids ∪ m.idsFrom i n, m') ∧
      ∀ k, m'.bucket k = m.bucket k := by
  intro n
  induction n with
  | zero =>
    intro m ids i hi hn _ _
    rw [scan, if_neg (by omega), idsFrom_zero, Finset.union_empty]
    exact ⟨m, rfl, fun _ => rfl⟩
  | succ n ih =>
    intro m ids i hi hn hi32 hhi
    have hle : i ≤ hi := by omega
    have hnext : InInt32 (i + 1) := by
      obtain ⟨h1, _⟩ := hi32
      obtain ⟨_, h2⟩ := hhi
      exact ⟨by omega, by omega⟩
    obtain ⟨m', hm', hb⟩ := ih (m.touch i) (ids ∪ m.bucket i) (i + 1) hi (by omega) hnext hhi
    rw [scan, if_pos hle, checked32_eq_some.mpr ⟨hnext, rfl⟩, Option.bind_some, hm']
    refine ⟨m', ?_, fun k => by rw [hb, UnorderedMap.bucket_touch]⟩
    have hrest : idsFrom (m.touch i) (i + 1) n = m.idsFrom (i + 1) n := by
      simp only [idsFrom, UnorderedMap.bucket_touch]
    rw [hrest, idsFrom_succ, Finset.union_assoc]

theorem scan_overflow : ∀ (n : ℕ) (m : Index) (ids : Finset ℤ) (i : ℤ),
    (2 ^ 31 - 1 - i).toNat = n → i ≤ 2 ^ 31 - 1 → scan m ids i (2 ^ 31 - 1) = none := by
  intro n
  induction n with
  | zero =>
    intro m ids i hn hi
    obtain rfl : i = 2 ^ 31 - 1 := by omega
    rw [scan, if_pos le_rfl, checked32, if_neg (by decide)]
    rfl
  | succ n ih =>
    intro m ids i hn hi
    rw [scan, if_pos hi]
    cases checked32 (i + 1) with
    | none => rfl
    | some _ =>
      rw [Option.bind_some]
      exact ih _ _ (i + 1) (by omega) (by omega)

theorem scan_bucket : ∀ (n : ℕ) (m : Index) (ids : Finset ℤ) (i hi : ℤ), (hi + 1 - i).toNat = n →
    ∀ {ids' m'}, scan m ids i hi = some (ids', m') → ∀ k, m'.bucket k = m.bucket k := by
  intro n
  induction n with
  | zero =>
    intro m ids i hi hn ids' m' h k
    rw [scan, if_neg (by omega), Option.some.injEq, Prod.mk.injEq] at h
    rw [h.2]
  | succ n ih =>
    intro m ids i hi hn ids' m' h k
    rw [scan, if_pos (by omega), Option.bind_eq_some_iff] at h
    obtain ⟨_, _, h⟩ := h
    rw [ih _ _ (i + 1) hi (by omega) h, UnorderedMap.bucket_touch]

end Index

namespace Scene

/-- `EnterScene` on the indices; registering the entity is the caller's part. -/
def enterScene (s : Scene) (id : ℤ) (position : Vector3) : Option Scene := do
  let x ← toInt32 position.getX
  let z ← toInt32 position.getZ
  return { s with
    xEntities := s.xEntities.insertIn x id
    zEntities := s.zEntities.insertIn z id }

/-- `UpdatePosition` for an entity that is at `current` and goes to
`position`. -/
def updatePosition (s : Scene) (id : ℤ) (current position : Vector3) : Option Scene := do
  let x ← toInt32 current.getX
  let z ← toInt32 current.getZ
  let x' ← toInt32 position.getX
  let z' ← toInt32 position.getZ
  return { s with
    xEntities := (s.xEntities.eraseIn x id).insertIn x' id
    zEntities := (s.zEntities.eraseIn z id).insertIn z' id }

def leaveScene (s : Scene) (id : ℤ) (position : Vector3) : Option Scene := do
  let x ← toInt32 position.getX
  let z ← toInt32 position.getZ
  return { s with
    xEntities := s.xEntities.eraseIn x id
    zEntities := s.zEntities.eraseIn z id }

/-- The two loops of `GetNearByEntities` for an entity at `position`: the ids they
collect on each axis, and the scene with the cells they created. -/
def scanAround (s : Scene) (position : Vector3) : Option (Finset ℤ × Finset ℤ × Scene) := do
  let x ← toInt32 position.getX
  let z ← toInt32 position.getZ
  let xlo ← checked32 (x - maxSightDistance)
  let xhi ← checked32 (x + maxSightDistance)
  let (xs, xEntities) ← s.xEntities.scan ∅ xlo xhi
  let zlo ← checked32 (z - maxSightDistance)
  let zhi ← checked32 (z + maxSightDistance)
  let (zs, zEntities) ← s.zEntities.scan ∅ zlo zhi
  return (xs, zs, { s with xEntities, zEntities })

/-- `GetNearByEntities` for an entity at `position`: what it returns, the vector
it appends to, and the scene with the cells it created. -/
def getNearByEntities (o : Orders) (s : Scene) (position : Vector3) (entities : List ℤ) :
    Option (ℤ × List ℤ × Scene) := do
  let (xs, zs, s) ← s.scanAround position
  let entities := entities ++ setIntersection (o.x.order xs) (o.z.order zs)
  return (wrap32 entities.length, entities, s)

/-- The same ids in the same cells. -/
structure SameCells (s s' : Scene) : Prop where
  id : s'.id = s.id
  x : ∀ k, s'.xEntities.bucket k = s.xEntities.bucket k
  z : ∀ k, s'.zEntities.bucket k = s.zEntities.bucket k

theorem SameCells.refl (s : Scene) : SameCells s s := ⟨rfl, fun _ => rfl, fun _ => rfl⟩

theorem SameCells.symm {s s' : Scene} (h : SameCells s s') : SameCells s' s :=
  ⟨h.id.symm, fun k => (h.x k).symm, fun k => (h.z k).symm⟩

theorem scanAround_sameCells {s s' : Scene} {position : Vector3} {xs zs : Finset ℤ}
    (h : s.scanAround position = some (xs, zs, s')) : SameCells s s' := by
  simp only [scanAround, Option.bind_eq_bind, Option.bind_eq_some_iff, Option.pure_def,
    Option.some.injEq, Prod.mk.injEq] at h
  obtain ⟨x, _, z, _, xlo, _, xhi, _, ⟨xs, mx⟩, hmx, zlo, _, zhi, _, ⟨zs, mz⟩, hmz, _, _, rfl⟩ := h
  exact ⟨rfl, Index.scan_bucket _ _ _ _ _ rfl hmx, Index.scan_bucket _ _ _ _ _ rfl hmz⟩

theorem getNearByEntities_sameCells {o : Orders} {s s' : Scene} {position : Vector3}
    {entities ids : List ℤ} {count : ℤ}
    (h : s.getNearByEntities o position entities = some (count, ids, s')) : SameCells s s' := by
  simp only [getNearByEntities, Option.bind_eq_bind, Option.bind_eq_some_iff, Option.pure_def,
    Option.some.injEq, Prod.mk.injEq] at h
  obtain ⟨⟨xs, zs, s'⟩, hscan, -, -, rfl⟩ := h
  exact scanAround_sameCells hscan

/-! ### Where the ids are -/

theorem enterScene_eq_some {s s' : Scene} {id : ℤ} {position : Vector3}
    (h : s.enterScene id position = some s') :
    ∃ x z, toInt32 position.getX = some x ∧ toInt32 position.getZ = some z ∧
      s' = { s with
        xEntities := s.xEntities.insertIn x id
        zEntities := s.zEntities.insertIn z id } := by
  simp only [enterScene, Option.bind_eq_bind, Option.bind_eq_some_iff, Option.pure_def,
    Option.some.injEq] at h
  obtain ⟨x, hx, z, hz, rfl⟩ := h
  exact ⟨x, z, hx, hz, rfl⟩

theorem leaveScene_eq_some {s s' : Scene} {id : ℤ} {position : Vector3}
    (h : s.leaveScene id position = some s') :
    ∃ x z, toInt32 position.getX = some x ∧ toInt32 position.getZ = some z ∧
      s' = { s with
        xEntities := s.xEntities.eraseIn x id
        zEntities := s.zEntities.eraseIn z id } := by
  simp only [leaveScene, Option.bind_eq_bind, Option.bind_eq_some_iff, Option.pure_def,
    Option.some.injEq] at h
  obtain ⟨x, hx, z, hz, rfl⟩ := h
  exact ⟨x, z, hx, hz, rfl⟩

/-- Given the position it moves to as its current one, `UpdatePosition` erases
the id where it is about to insert it. -/
theorem updatePosition_self_eq_some {s s' : Scene} {id : ℤ} {position : Vector3}
    (h : s.updatePosition id position position = some s') :
    ∃ x z, toInt32 position.getX = some x ∧ toInt32 position.getZ = some z ∧
      s' = { s with
        xEntities := (s.xEntities.eraseIn x id).insertIn x id
        zEntities := (s.zEntities.eraseIn z id).insertIn z id } := by
  simp only [updatePosition, Option.bind_eq_bind, Option.bind_eq_some_iff, Option.pure_def,
    Option.some.injEq] at h
  obtain ⟨x, hx, z, hz, x', hx', z', hz', rfl⟩ := h
  obtain rfl : x = x' := Option.some.inj (hx.symm.trans hx')
  obtain rfl : z = z' := Option.some.inj (hz.symm.trans hz')
  exact ⟨x, z, hx, hz, rfl⟩

end Scene

end GameService
