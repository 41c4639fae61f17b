import GameService.Player.Player
import GameService.World.NearBy

/-!
# Moving far away

`CmdMove` takes the position in a packet as it is.  The scene converts both
coordinates to `int32_t`, adds and subtracts `MAX_SIGHT_DISTANCE`, and goes through
the cells in between with a counter that has to pass the last one.  Each of the three
is undefined where it leaves `int32_t`.

`scanCount` is the loop of `GetNearByEntities` with nothing but its counter, and
`moveDefined_iff` says for which positions everything is defined: those that stay
clear of the ends of `int32_t` by the sight distance and, at the upper end, by one
more.
-/

namespace GameService

open Lib Asset

namespace Index

/-- How many times the loop over the cells `i`, …, `hi` goes round. -/
def scanCount (i hi : ℤ) : Option ℕ :=
  if i ≤ hi then (checked32 (i + 1)).bind fun _ => (scanCount (i + 1) hi).map (· + 1) else some 0
termination_by (hi + 1 - i).toNat
decreasing_by omega

/-- The loop collects the ids of as many cells as it goes round. -/
theorem map_scan : ∀ (n : ℕ) (m : Index) (ids : Finset ℤ) (i hi : ℤ), (hi + 1 - i).toNat = n →
    (scan m ids i hi).map (·.1) = (scanCount i hi).map fun count => ids ∪ m.idsFrom i count := by
  intro n
  induction n with
  | zero =>
    intro m ids i hi hn
    rw [scan, scanCount, if_neg (by omega), if_neg (by omega)]
    simp
  | succ n ih =>
    intro m ids i hi hn
    rw [scan, scanCount, if_pos (by omega), if_pos (by omega)]
    cases checked32 (i + 1) with
    | none => rfl
    | some _ =>
      have htouch : ∀ count, idsFrom (m.touch i) (i + 1) count = m.idsFrom (i + 1) count := by
        intro count
        simp only [idsFrom, UnorderedMap.bucket_touch]
      rw [Option.bind_some, Option.bind_some, ih _ _ _ _ (by omega), Option.map_map]
      refine congrArg (fun f => Option.map f (scanCount (i + 1) hi)) (funext fun count => ?_)
      rw [Function.comp_apply, idsFrom_succ, htouch, Finset.union_assoc]

theorem scanCount_eq : ∀ (n : ℕ) (i hi : ℤ), (hi + 1 - i).toNat = n → InInt32 i →
    InInt32 (hi + 1) → scanCount i hi = some n := by
  intro n
  induction n with
  | zero =>
    intro i hi hn _ _
    rw [scanCount, if_neg (by omega)]
  | succ n ih =>
    intro i hi hn hi32 hhi
    have hnext : InInt32 (i + 1) := by
      have := hi32.1
      have := hhi.2
      exact ⟨by omega, by omega⟩
    rw [scanCount, if_pos (by omega), checked32_eq_some.mpr ⟨hnext, rfl⟩, Option.bind_some,
      ih (i + 1) hi (by omega) hnext hhi]
    rfl

theorem scanCount_overflow {i : ℤ} (hi : i ≤ 2 ^ 31 - 1) : scanCount i (2 ^ 31 - 1) = none := by
  have hscan := map_scan _ ∅ ∅ i (2 ^ 31 - 1) rfl
  rw [scan_overflow _ ∅ ∅ i rfl hi, Option.map_none, eq_comm, Option.map_eq_none_iff] at hscan
  exact hscan

end Index

/-! ### The cells of a window -/

namespace Scene

/-- The loop over the window around a cell goes round `121` times. -/
def Scans (cell : ℤ) : Prop :=
  Index.scanCount (cell - maxSightDistance) (cell + maxSightDistance) = some 121

theorem scans_iff {cell : ℤ} (h : WindowInInt32 cell) :
    Scans cell ↔ cell + maxSightDistance < 2 ^ 31 - 1 := by
  have hmax : maxSightDistance = 60 := rfl
  have hhi := h.2.2
  constructor
  · intro hs
    by_contra hge
    have hend : cell + maxSightDistance = 2 ^ 31 - 1 := by omega
    rw [Scans, hend, Index.scanCount_overflow (by omega)] at hs
    cases hs
  · intro hlt
    refine Index.scanCount_eq 121 _ _ (by omega) h.1 ⟨?_, by omega⟩
    have := h.1.1
    omega

/-- **One axis is well defined**: the coordinate has a cell, the window around it is
within `int32_t`, and the loop over it goes round `121` times. -/
def AxisDefined (coordinate : ℚ) : Prop :=
  ∃ cell, toInt32 coordinate = some cell ∧ WindowInInt32 cell ∧ Scans cell

/-- The coordinate is far enough from the ends of `int32_t`. -/
def InReach (coordinate : ℚ) : Prop :=
  -2 ^ 31 + 59 < coordinate ∧ coordinate < 2 ^ 31 - 61

instance (coordinate : ℚ) : Decidable (InReach coordinate) := inferInstanceAs (Decidable (_ ∧ _))

theorem inReach_iff_trunc {q : ℚ} :
    InReach q ↔ -2 ^ 31 + 60 ≤ trunc q ∧ trunc q ≤ 2 ^ 31 - 62 := by
  have hlo : -2 ^ 31 + 60 ≤ trunc q ↔ ((-2 ^ 31 + 60 : ℤ) : ℚ) - 1 < q := le_trunc_iff (by norm_num)
  have hhi : trunc q ≤ 2 ^ 31 - 62 ↔ q < ((2 ^ 31 - 62 : ℤ) : ℚ) + 1 := trunc_le_iff (by norm_num)
  rw [hlo, hhi, InReach]
  norm_num

theorem axisDefined_iff (q : ℚ) : AxisDefined q ↔ InReach q := by
  have hmax : maxSightDistance = 60 := rfl
  rw [inReach_iff_trunc]
  constructor
  · rintro ⟨cell, hcell, hwindow, hscans⟩
    obtain ⟨-, rfl⟩ := toInt32_eq_some.mp hcell
    have hlo := hwindow.1.1
    have hhi := (scans_iff hwindow).mp hscans
    exact ⟨by omega, by omega⟩
  · rintro ⟨hlo, hhi⟩
    have hwindow : WindowInInt32 (trunc q) := ⟨⟨by omega, by omega⟩, by omega, by omega⟩
    refine ⟨trunc q, toInt32_eq_some.mpr ⟨⟨by omega, by omega⟩, rfl⟩, hwindow, ?_⟩
    exact (scans_iff hwindow).mpr (by omega)

end Scene

/-! ### The call -/

namespace World

variable {pb : Protobuf} {a : Ambient} {w : World} {r : Ref} {e : Entity} {sceneId : ℤ}
  {item : MsgItem} {position : Vector3}

theorem isSome_sendNearbyMessage {s : Scene} (he : w.entity r = some e)
    (hl : e.locateScene = some sceneId) (hs : w.scenes.find sceneId = some s)
    (h : (s.getNearByEntities a.orders e.position []).isSome) :
    (w.sendNearbyMessage a r item).isSome := by
  obtain ⟨⟨count, ids, s'⟩, hcall⟩ := Option.isSome_iff_exists.mp h
  simp only [sendNearbyMessage, he, hl, hs, hcall, Option.bind_eq_bind, Option.bind_some]
  split <;> rfl

/-- **A move is defined** when both its axes are. -/
theorem isSome_stepMove (he : w.entity r = some e) (hl : e.locateScene = some sceneId)
    (hk : w.Knows sceneId) (hx : Scene.AxisDefined position.getX)
    (hz : Scene.AxisDefined position.getZ) : (w.stepMove pb a r position).isSome := by
  obtain ⟨s, hs⟩ := Option.isSome_iff_exists.mp hk
  obtain ⟨x, hx, hwx, hsx⟩ := hx
  obtain ⟨z, hz, hwz, hsz⟩ := hz
  have hbx := (Scene.scans_iff hwx).mp hsx
  have hbz := (Scene.scans_iff hwz).mp hsz
  have hupdate : s.updatePosition e.id position position = some { s with
      xEntities := (s.xEntities.eraseIn x e.id).insertIn x e.id
      zEntities := (s.zEntities.eraseIn z e.id).insertIn z e.id } := by
    rw [Scene.updatePosition, hx, hz]
    rfl
  obtain ⟨s', -, hcall⟩ := Scene.getNearByEntities_eq (o := a.orders)
    (s := { s with
      xEntities := (s.xEntities.eraseIn x e.id).insertIn x e.id
      zEntities := (s.zEntities.eraseIn z e.id).insertIn z e.id }) hx hz ⟨hwx, hwz, hbx, hbz⟩ []
  have hself := (writes_setEntity he (e.updatePosition position)).self
  simp only [stepMove, he, hl, Option.bind_eq_bind, Option.bind_some, setEntity_scenes, hs]
  show ((s.updatePosition e.id position position).bind _).isSome
  rw [hupdate, Option.bind_some, broadCastCommonProp]
  rw [Option.bind_eq_bind, show World.entity (World.setScene _ _ _) r = _ from hself,
    Option.bind_some]
  refine isSome_sendNearbyMessage hself hl (UnorderedMap.find_insertAt_self _ _ _) ?_
  exact Option.isSome_iff_exists.mpr ⟨_, hcall⟩

end World

/-- **What is asked of a `Move`** from a client: that both axes are well defined, and
with them the call. -/
structure MoveDefined (pb : Protobuf) (a : Ambient) (g : Game) (r : Ref) (move : Asset.Move) :
    Prop where
  x : Scene.AxisDefined move.getMoveTo.getX
  z : Scene.AxisDefined move.getMoveTo.getZ
  call : (g.cmdMove pb r a move.getMoveTo).isSome

/-- **When a `Move` is well defined.**  For a player in a scene: if and only if both
coordinates are far enough from the ends of `int32_t`. -/
theorem moveDefined_iff (pb : Protobuf) (a : Ambient) (g : Game) (r : Ref) (p : Player)
    (sceneId : ℤ) (hp : g.player r = some p) (hl : p.locateScene = some sceneId)
    (hk : g.world.Knows sceneId) (move : Asset.Move) :
    MoveDefined pb a g r move ↔
      Scene.InReach move.getMoveTo.getX ∧ Scene.InReach move.getMoveTo.getZ := by
  rw [← Scene.axisDefined_iff, ← Scene.axisDefined_iff]
  refine ⟨fun h => ⟨h.x, h.z⟩, fun h => ⟨h.1, h.2, ?_⟩⟩
  have hstep : (g.world.stepMove pb a r move.getMoveTo).isSome :=
    World.isSome_stepMove (Game.entity_of_player hp) hl hk h.1 h.2
  obtain ⟨w, hw⟩ := Option.isSome_iff_exists.mp hstep
  rw [Game.cmdMove, hw]
  rfl

def lonely : Game where
  world :=
    { objects := (∅ : UnorderedMap Ref Object).insertAt 0
        (.player { id := 7, locateScene := some 1, session := 1 })
      scenes := (∅ : UnorderedMap ℤ Scene).insertAt 1 { id := 1 } }

def lonelyAmbient : Ambient := { orders := Scene.sortedOrders, clock := 0 }

def lonelyProtobuf : Protobuf := { commonProp := .ofTable [], player := .ofTable [] }

theorem nearMove_defined : MoveDefined lonelyProtobuf lonelyAmbient lonely 0
    { moveTo := some { x := some 10, z := some (-10) } } := by
  refine (moveDefined_iff lonelyProtobuf lonelyAmbient lonely 0 _ 1 rfl rfl rfl _).mpr ?_
  decide +kernel

/-- It moves to where there is no cell, and to the first cell there is. -/
theorem farMove_not_defined :
    (∃ p, lonely.player 0 = some p ∧ p.locateScene = some 1) ∧ lonely.world.Knows 1 ∧
    ¬ MoveDefined lonelyProtobuf lonelyAmbient lonely 0
      { moveTo := some { x := some 3000000000 } } ∧
    ¬ MoveDefined lonelyProtobuf lonelyAmbient lonely 0
      { moveTo := some { x := some (-2 ^ 31) } } := by
  refine ⟨⟨_, rfl, rfl⟩, rfl, fun h => ?_, fun h => ?_⟩
  · exact absurd ((Scene.axisDefined_iff _).mp h.x) (by decide +kernel)
  · exact absurd ((Scene.axisDefined_iff _).mp h.x) (by decide +kernel)

end GameService
