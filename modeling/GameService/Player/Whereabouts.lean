import GameService.Lib.Run
import GameService.Player.Player
import GameService.World.Index

/-!
# Where a player is

Three things say where a player is: its `scene_id` and position, the scene it points to,
and the cells of that scene that list its id.  `CmdEnterScene` brings them together, but a
client may send `CmdLogin` again at any time, and `Load` then replaces the properties, with
the position and the `scene_id`, by those of the record.  The scene and its cells stay as
they were.  `GetSceneID` moreover returns an `int32_t`.

`Located` says that the three agree.  `located_iff_follows` is the exact condition on the
requests of a run under which they do in every state reached.
-/

namespace GameService

open Lib Asset

def Entity.getSceneId (e : Entity) : ℤ := wrap32 (e.superCommonProp.sceneId.getD 0)

namespace World

/-- `GetID` of the scene that is registered under an id. -/
def idOfScene (w : World) (sceneId : ℤ) : Option ℤ := (w.scenes.find sceneId).map (·.id)

variable {pb : Protobuf} {a : Ambient} {w w' : World} {r : Ref} {s : Scene} {sceneId i : ℤ}

/-! ### The ids of the scenes -/

theorem idOfScene_congr (h : w'.scenes = w.scenes) : w'.idOfScene i = w.idOfScene i := by
  rw [idOfScene, h, idOfScene]

theorem idOfScene_setScene (h : w.idOfScene sceneId = some s.id) :
    (w.setScene sceneId s).idOfScene i = w.idOfScene i := by
  rw [idOfScene, setScene, UnorderedMap.find_insertAt]
  split
  · rename_i hi
    rw [hi, h]
    rfl
  · rfl

theorem sendTo_scenes (item : MsgItem) (w : World) (id : ℤ) :
    (sendTo a item w id).scenes = w.scenes := by
  rw [sendTo]
  split <;> rfl

theorem foldl_sendTo_scenes (item : MsgItem) : ∀ (ids : List ℤ) (w : World),
    (ids.foldl (sendTo a item) w).scenes = w.scenes := by
  intro ids
  induction ids with
  | nil => intro w; rfl
  | cons id ids ih => intro w; exact (ih _).trans (sendTo_scenes item w id)

theorem sendNearbyMessage_idOfScene {item : MsgItem} (h : w.sendNearbyMessage a r item = some w') :
    w'.idOfScene i = w.idOfScene i := by
  obtain ⟨e, -, ⟨-, rfl⟩ | ⟨sceneId, -, h⟩⟩ := located_cases h
  · rfl
  · simp only [Option.bind_eq_bind, Option.bind_eq_some_iff] at h
    obtain ⟨s, hs, ⟨count, ids, s'⟩, hcall, h⟩ := h
    have hid : w.idOfScene sceneId = some s'.id := by
      rw [idOfScene, hs, (Scene.getNearByEntities_sameCells hcall).id]
      rfl
    split at h
    · cases h
      exact idOfScene_setScene hid
    · cases h
      exact (idOfScene_congr (foldl_sendTo_scenes _ ids _)).trans (idOfScene_setScene hid)

theorem onEnterScene_idOfScene (h : w.onEnterScene pb a r sceneId = some w') :
    w'.idOfScene i = w.idOfScene i := by
  obtain ⟨e, -, ⟨-, rfl⟩ | ⟨s, x, z, hs, -, -, hb⟩⟩ := onEnterScene_cases h
  · exact idOfScene_congr (setEntity_scenes w r _)
  · rw [broadCastCommonProp, Option.bind_eq_bind, Option.bind_eq_some_iff] at hb
    obtain ⟨e', -, hb⟩ := hb
    have hscenes : ((w.setEntity r (inScene e sceneId)).add r (inScene e sceneId)).scenes =
        w.scenes := setEntity_scenes w r _
    have hid : ((w.setEntity r (inScene e sceneId)).add r (inScene e sceneId)).idOfScene sceneId =
        some s.id := by
      rw [idOfScene_congr hscenes, idOfScene, hs]
      rfl
    rw [sendNearbyMessage_idOfScene hb]
    refine (idOfScene_setScene ?_).trans (idOfScene_congr hscenes)
    exact hid

end World

namespace Player

/-- A packet of the client; a login comes with the database at that time. -/
inductive Request
  | cmdLogin (redis : Redis) (o : Outcome)
  | cmdEnterScene (a : Ambient) (sceneId : ℤ)

def serve (pb : Protobuf) (r : Ref) (g : Game) : Request → Option Game
  | .cmdLogin redis o => (Game.cmdLogin pb { g with redis := redis } r o).map (·.2)
  | .cmdEnterScene a sceneId => g.cmdEnterScene pb r a sceneId

/-- **The player is where its scene has it**: the two ids are the same, and the cells that
list the player are those of its position. -/
def Located (r : Ref) (g : Game) : Prop :=
  ∀ e sceneId, g.world.entity r = some e → e.locateScene = some sceneId →
    g.world.idOfScene sceneId = some e.getSceneId ∧
    ∃ x z, toInt32 e.position.getX = some x ∧ toInt32 e.position.getZ = some z ∧
      (∀ k, e.id ∈ g.world.xBucket sceneId k ↔ k = x) ∧
      ∀ k, e.id ∈ g.world.zBucket sceneId k ↔ k = z

def requestedScene (sceneId : ℤ) : ℤ := if sceneId = 0 then 589825 else sceneId

/-- The properties have the same scene id, as an `int32_t`, and the same cells. -/
def SamePlace (e e' : Entity) : Prop :=
  e'.getSceneId = e.getSceneId ∧ toInt32 e'.position.getX = toInt32 e.position.getX ∧
    toInt32 e'.position.getZ = toInt32 e.position.getZ

instance (e e' : Entity) : Decidable (SamePlace e e') := inferInstanceAs (Decidable (_ ∧ _))

/-- A login of a player in a scene finds no record, or one that is in the same place.  A
scene that is entered has the id as an `int32_t`, and it lists the player in no other
cell. -/
def Follows (pb : Protobuf) (r : Ref) (g : Game) : Request → Game → Prop
  | .cmdLogin redis o, _ => ∀ p, g.player r = some p →
    p.locateScene = none ∨ redis.getPlayer o p.id = [] ∨
      SamePlace p.toEntity { p.toEntity with
        superCommonProp := (pb.player.parse (redis.getPlayer o p.id)).2.getCommonProp }
  | .cmdEnterScene _ sceneId, _ => ∀ e id, g.world.entity r = some e →
    g.world.idOfScene (requestedScene sceneId) = some id →
      wrap32 (requestedScene sceneId) = id ∧
      (∀ k, e.id ∈ g.world.xBucket (requestedScene sceneId) k →
        toInt32 e.position.getX = some k) ∧
      ∀ k, e.id ∈ g.world.zBucket (requestedScene sceneId) k → toInt32 e.position.getZ = some k

variable {pb : Protobuf} {r : Ref} {g g' : Game} {p : Player} {redis : Redis} {o : Outcome}
  {a : Ambient} {sceneId : ℤ} {request : Request}

/-! ### The two handlers -/

theorem located_of_none (h : ∀ e, g.world.entity r = some e → e.locateScene = none) :
    Located r g := by
  intro e sceneId he hl
  rw [h e he] at hl
  cases hl

theorem load_toEntity (c : Codec Asset.Player) (record : Bytes) (p : Player) :
    (loadFrom c record p).2.toEntity = if record = [] then p.toEntity else
      { p.toEntity with superCommonProp := (c.parse record).2.getCommonProp } := by
  rw [loadFrom]
  split <;> rfl

/-- **`CmdLogin`** changes the properties and leaves the scenes as they are. -/
theorem serve_cmdLogin (h : serve pb r g (.cmdLogin redis o) = some g') : ∃ p,
    g.player r = some p ∧ g'.world.scenes = g.world.scenes ∧
      g'.world.entity r = some (p.load pb.player o redis).2.toEntity := by
  rw [serve] at h
  cases hp : g.player r with
  | none =>
    have hnone : ({ g with redis := redis } : Game).player r = none := hp
    rw [Game.cmdLogin, Game.loadAndSend, Game.load, hnone] at h
    cases h
  | some p =>
    have hsome : ({ g with redis := redis } : Game).player r = some p := hp
    rw [Game.cmdLogin, Game.loadAndSend_eq hsome] at h
    cases h
    exact ⟨p, rfl, rfl, Game.entity_of_player (Game.player_setPlayer _ _ _)⟩

theorem located_replace {e : Entity} {prop : CommonProp} (h : Located r g)
    (he : g.world.entity r = some e) (hscenes : g'.world.scenes = g.world.scenes)
    (he' : g'.world.entity r = some { e with superCommonProp := prop }) :
    Located r g' ↔ e.locateScene = none ∨ SamePlace e { e with superCommonProp := prop } := by
  have hx := World.xBucket_congr hscenes
  have hz := World.zBucket_congr hscenes
  cases hl : e.locateScene with
  | none =>
    refine iff_of_true (located_of_none fun e' heq => ?_) (Or.inl rfl)
    cases heq.symm.trans he'
    exact hl
  | some sceneId =>
    rw [or_iff_right (Option.some_ne_none sceneId)]
    obtain ⟨hid, x, z, hcx, hcz, hbx, hbz⟩ := h e sceneId he hl
    constructor
    · intro h'
      obtain ⟨hid', x', z', hcx', hcz', hbx', hbz'⟩ := h' _ sceneId he' hl
      rw [World.idOfScene_congr hscenes, hid, Option.some.injEq] at hid'
      obtain rfl : x = x' := (hbx' x).mp (by rw [hx]; exact (hbx x).mpr rfl)
      obtain rfl : z = z' := (hbz' z).mp (by rw [hz]; exact (hbz z).mpr rfl)
      exact ⟨hid'.symm, hcx'.trans hcx.symm, hcz'.trans hcz.symm⟩
    · rintro ⟨hsame, hsx, hsz⟩ e' i heq hl'
      cases heq.symm.trans he'
      cases hl.symm.trans hl'
      refine ⟨?_, x, z, hsx.trans hcx, hsz.trans hcz, fun k => ?_, fun k => ?_⟩
      · exact (World.idOfScene_congr hscenes).trans (hid.trans (congrArg some hsame.symm))
      · rw [hx]
        exact hbx k
      · rw [hz]
        exact hbz k

theorem located_cmdLogin (h : Located r g) (hs : serve pb r g (.cmdLogin redis o) = some g') :
    Located r g' ↔ Follows pb r g (.cmdLogin redis o) g' := by
  obtain ⟨p, hp, hscenes, he'⟩ := serve_cmdLogin hs
  have he := Game.entity_of_player hp
  have hcond : Follows pb r g (.cmdLogin redis o) g' ↔ p.locateScene = none ∨
      redis.getPlayer o p.id = [] ∨ SamePlace p.toEntity { p.toEntity with
        superCommonProp := (pb.player.parse (redis.getPlayer o p.id)).2.getCommonProp } := by
    constructor
    · intro hf
      exact hf p hp
    · intro hf q hq
      cases hp.symm.trans hq
      exact hf
  rw [hcond]
  rw [load, load_toEntity] at he'
  by_cases hrecord : redis.getPlayer o p.id = []
  · -- without a record the properties stay, and so they are in the same place
    rw [if_pos hrecord] at he'
    refine iff_of_true ?_ (Or.inr (Or.inl hrecord))
    exact (located_replace h he hscenes he').mpr (Or.inr ⟨rfl, rfl, rfl⟩)
  · rw [if_neg hrecord] at he'
    rw [located_replace h he hscenes he', or_iff_right hrecord]

theorem located_cmdEnterScene (hs : serve pb r g (.cmdEnterScene a sceneId) = some g') :
    Located r g' ↔ Follows pb r g (.cmdEnterScene a sceneId) g' := by
  obtain ⟨w', hw', hg'⟩ := Option.bind_eq_some_iff.mp hs
  cases hg'
  change g.world.onEnterScene pb a r (requestedScene sceneId) = some w' at hw'
  have hids := fun i => World.onEnterScene_idOfScene (i := i) hw'
  by_cases hk : g.world.Knows (requestedScene sceneId)
  · obtain ⟨e, he, -⟩ := World.onEnterScene_cases hw'
    obtain ⟨x, z, hentered⟩ := World.onEnterScene_entered hw' he hk
    obtain ⟨s, hscene⟩ := Option.isSome_iff_exists.mp hk
    have hid : g.world.idOfScene (requestedScene sceneId) = some s.id := by
      rw [World.idOfScene, hscene]
      rfl
    have hself := hentered.writes.self
    have hx := World.only_added_iff hentered.x
    have hz := World.only_added_iff hentered.z
    constructor
    · intro hl e' id he' hid'
      cases he.symm.trans he'
      cases hid.symm.trans hid'
      obtain ⟨hsame, x', z', hcx, hcz, hbx, hbz⟩ := hl _ _ hself rfl
      cases hentered.cellX.symm.trans hcx
      cases hentered.cellZ.symm.trans hcz
      rw [hids, hid, Option.some.injEq] at hsame
      refine ⟨hsame.symm, fun k hmem => ?_, fun k hmem => ?_⟩
      · rw [hx.mp hbx k hmem]
        exact hentered.cellX
      · rw [hz.mp hbz k hmem]
        exact hentered.cellZ
    · intro hf e' i he' hl
      cases hself.symm.trans he'
      cases hl
      obtain ⟨hsame, hbx, hbz⟩ := hf e s.id he hid
      refine ⟨?_, x, z, hentered.cellX, hentered.cellZ, hx.mpr fun k hmem => ?_,
        hz.mpr fun k hmem => ?_⟩
      · rw [hids, hid, Option.some.injEq]
        exact hsame.symm
      · exact Option.some.inj ((hbx k hmem).symm.trans hentered.cellX)
      · exact Option.some.inj ((hbz k hmem).symm.trans hentered.cellZ)
  · obtain ⟨e, he, rfl⟩ := World.onEnterScene_unknown hw' hk
    refine iff_of_true (located_of_none fun e' he' => ?_) fun e' id _ hid => ?_
    · have hself := (World.writes_setEntity he { e with locateScene := none }).self
      cases hself.symm.trans he'
      rfl
    · obtain ⟨s, hscene, -⟩ := Option.map_eq_some_iff.mp hid
      exact absurd (World.knows_of_find hscene) hk

/-- **When a player stays where its scene has it.**  In a run of logins and of entering
scenes, with any records and any scene ids: if and only if every login in a scene finds
the player in the same place, and every scene that is entered has its id as an `int32_t`
and does not list the player elsewhere. -/
theorem located_iff_follows (pb : Protobuf) (r : Ref) (g : Game) (h : Located r g)
    (requests : List Request) :
    Always (serve pb r) (Located r) g requests ↔ Along (serve pb r) (Follows pb r) g requests := by
  refine always_iff_along (fun g request g' hl hs => ?_) requests g h
  cases request with
  | cmdLogin redis o => exact located_cmdLogin hl hs
  | cmdEnterScene a sceneId => exact located_cmdEnterScene hs

/-! ### A second login -/

def loginGame (scene : ℤ) : Game where
  world :=
    { objects := (∅ : UnorderedMap Ref Object).insertAt 0
        (.player { id := 7, superCommonProp := { entityId := some 7 }, session := 1 })
      scenes := (∅ : UnorderedMap ℤ Scene).insertAt scene { id := scene } }

theorem loginGame_located (scene : ℤ) : Located 0 (loginGame scene) := by
  refine located_of_none fun e he => ?_
  cases he
  rfl

def recordAt (x : ℚ) : Asset.Player where
  commonProp := some { entityId := some 7, sceneId := some 1, position := some { x := some x } }

/-- Two `float`s without a zero byte, in the cells `0` and `5`. -/
def nearX : ℚ := 8454401 / 16777216

def farX : ℚ := 10551553 / 2097152

def nearRecord : Bytes := [0x12, 11, 0x08, 7, 0x70, 1, 0x7a, 5, 0x0d, 1, 1, 1, 0x3f]

def farRecord : Bytes := [0x12, 11, 0x08, 7, 0x70, 1, 0x7a, 5, 0x0d, 1, 1, 0xa1, 0x40]

def loginProtobuf : Protobuf where
  commonProp := .ofTable
    [({ entityId := some 7, sceneId := some 1 }, [0x08, 7, 0x70, 1]),
     ({ entityId := some 7, sceneId := some 4294967297 },
      [0x08, 7, 0x70, 0x81, 0x80, 0x80, 0x80, 0x10])]
  player := .ofTable [(recordAt nearX, nearRecord), (recordAt farX, farRecord)]

def loginAgain (record : Bytes) : List Request :=
  [.cmdEnterScene World.originAmbient 1,
   .cmdLogin { players := (∅ : UnorderedMap ℤ Bytes).insertAt 7 record } .served]

theorem nearRecord_follows :
    Always (serve loginProtobuf 0) (Located 0) (loginGame 1) (loginAgain nearRecord) := by
  refine (located_iff_follows loginProtobuf 0 (loginGame 1) (loginGame_located 1) _).mpr ?_
  have hsame : (serve loginProtobuf 0 (loginGame 1) (.cmdEnterScene World.originAmbient 1)).all
      (fun g => (g.player 0).all fun p => decide (SamePlace p.toEntity { p.toEntity with
        superCommonProp := (recordAt nearX).getCommonProp } ∧ p.id = 7)) = true := by
    decide +kernel
  refine fun g hg => ⟨fun e id _ hid => ?_, fun g' _ => ⟨fun p hp => ?_, trivial⟩⟩
  · -- the scene has its own id, and it lists nobody yet
    cases hid
    exact ⟨by decide, fun k hk => absurd hk (Finset.notMem_empty _),
      fun k hk => absurd hk (Finset.notMem_empty _)⟩
  · rw [hg, Option.all_some, hp, Option.all_some, decide_eq_true_eq] at hsame
    obtain ⟨hsame, hid⟩ := hsame
    have hparse : (loginProtobuf.player.parse (Redis.getPlayer .served
        { players := (∅ : UnorderedMap ℤ Bytes).insertAt 7 nearRecord } 7)).2 =
          recordAt nearX := by
      decide +kernel
    refine Or.inr (Or.inr ?_)
    rw [hid, hparse]
    exact hsame

/-- The record has the player in cell `5`, and it is listed in cell `0`.  A scene whose id
does not fit has another one for the player. -/
theorem farRecord_not_located :
    (Located 0 (loginGame 1) ∧
      ¬ Always (serve loginProtobuf 0) (Located 0) (loginGame 1) (loginAgain farRecord)) ∧
    Located 0 (loginGame 4294967297) ∧
      ¬ Always (serve loginProtobuf 0) (Located 0) (loginGame 4294967297)
        [.cmdEnterScene World.originAmbient 4294967297] := by
  have hfar : (run (serve loginProtobuf 0) (loginGame 1) (loginAgain farRecord)).map (fun g =>
      ((g.world.entity 0).map fun e => (e.id, e.locateScene, toInt32 e.position.getX),
        decide (7 ∈ g.world.xBucket 1 0))) = some (some (7, some 1, some 5), true) := by
    decide +kernel
  have hwide : (run (serve loginProtobuf 0) (loginGame 4294967297)
      [.cmdEnterScene World.originAmbient 4294967297]).map (fun g =>
      ((g.world.entity 0).map fun e => (e.locateScene, e.getSceneId),
        g.world.idOfScene 4294967297)) =
      some (some (some 4294967297, 1), some 4294967297) := by
    decide +kernel
  refine ⟨⟨loginGame_located 1, fun h => ?_⟩, loginGame_located _, fun h => ?_⟩
  · obtain ⟨g, hg, heq⟩ := Option.map_eq_some_iff.mp hfar
    simp only [Prod.mk.injEq, decide_eq_true_eq] at heq
    obtain ⟨hent, hlisted⟩ := heq
    obtain ⟨e, he, hfields⟩ := Option.map_eq_some_iff.mp hent
    simp only [Prod.mk.injEq] at hfields
    obtain ⟨hid, hl, hcell⟩ := hfields
    obtain ⟨-, x, z, hcx, -, hbx, -⟩ := h.last _ _ hg e 1 he hl
    rw [hcell, Option.some.injEq] at hcx
    have hzero := (hbx 0).mp (hid ▸ hlisted)
    omega
  · obtain ⟨g, hg, heq⟩ := Option.map_eq_some_iff.mp hwide
    simp only [Prod.mk.injEq] at heq
    obtain ⟨hent, hscene⟩ := heq
    obtain ⟨e, he, hfields⟩ := Option.map_eq_some_iff.mp hent
    simp only [Prod.mk.injEq] at hfields
    obtain ⟨hl, hid⟩ := hfields
    have hsame := (h.last _ _ hg e _ he hl).1
    rw [hscene, hid, Option.some.injEq] at hsame
    omega

end Player

end GameService
