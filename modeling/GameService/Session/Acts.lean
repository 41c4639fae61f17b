import GameService.Lib.Reach
import GameService.World.Broadcast
import GameService.Session.Lifetime

/-!
# What packets do to the world

All that a packet does to the world is a list of acts on players: one is put at an
address, when it is made, loaded or saved; the pointer to one is dropped; one enters a
scene; one moves.  `act` is such a step, and it is not defined on a resident.

An act leaves every resident as it is (`act_hoster`), takes no id out of any cell
(`act_grown`), and to the queue it is a number of calls of `SendMessage`, each with a
message that has no delay and the default priority and that says of some entity that it
entered or moved (`act_posts`).

`step_acts` says that a completed read is such a list.  It needs that `g_player` points
to a player (`Seated`), which it keeps.
-/

namespace GameService

open Lib Asset

/-- The calls of `SendMessage` with such messages. -/
def MessageDispatcher.Event.Posts (M : MsgItem → Prop) : MessageDispatcher.Event → Prop
  | .sendMessage msg _ => M msg
  | .iteration _ => False

namespace World

/-- A message that tells of an entity with the property. -/
structure Mail (pb : Protobuf) (P : Entity → Prop) (m : MsgItem) : Prop where
  type : m.type = MsgType.aoiEnter.number ∨ m.type = MsgType.aoiMove.number
  priority : m.priority = 10
  delay : m.delay = 0
  tells : ∃ e, P e ∧ m.sender = e.id ∧ m.content = pb.commonProp.serialize e.superCommonProp

/-- What a player, a scene and a position do not take from an entity. -/
structure Stable (P : Entity → Prop) : Prop where
  nowhere : ∀ e, P e → P { e with locateScene := none }
  scene : ∀ e sceneId, P e → P (inScene e sceneId)
  position : ∀ e position, P e → P (e.updatePosition position)

def Everyone (P : Entity → Prop) (w : World) : Prop := ∀ r e, w.entity r = some e → P e

/-- The scenes are the same ones, and their cells list whom they listed. -/
structure Grown (w w' : World) : Prop where
  knows : ∀ i, w'.Knows i ↔ w.Knows i
  x : ∀ i k id, id ∈ w.xBucket i k → id ∈ w'.xBucket i k
  z : ∀ i k id, id ∈ w.zBucket i k → id ∈ w'.zBucket i k

variable {pb : Protobuf} {a : Ambient} {w w' w'' : World} {r : Ref} {e : Entity} {sceneId : ℤ}
  {position : Vector3} {P : Entity → Prop} {reading : Reading}

theorem Grown.refl (w : World) : Grown w w :=
  ⟨fun _ => Iff.rfl, fun _ _ _ h => h, fun _ _ _ h => h⟩

theorem Grown.trans (h : Grown w w') (h' : Grown w' w'') : Grown w w'' :=
  ⟨fun i => (h'.knows i).trans (h.knows i), fun i k id hid => h'.x i k id (h.x i k id hid),
    fun i k id hid => h'.z i k id (h.z i k id hid)⟩

theorem Grown.of_scenes (h : w'.scenes = w.scenes) : Grown w w' := by
  refine ⟨fun i => by rw [Knows, Knows, h], fun i k id hid => ?_, fun i k id hid => ?_⟩
  · rwa [xBucket_congr h]
  · rwa [zBucket_congr h]

/-! ### Entering and moving -/

theorem onEnterScene_written (h : w.onEnterScene pb a r sceneId = some w') :
    ∃ e, w.entity r = some e ∧
      (w'.objects = (w.setEntity r { e with locateScene := none }).objects ∨
        w'.objects = (w.setEntity r (inScene e sceneId)).objects) := by
  obtain ⟨e, he, ⟨_, rfl⟩ | ⟨s, x, z, _, _, _, hb⟩⟩ := onEnterScene_cases h
  · exact ⟨e, he, Or.inl rfl⟩
  · exact ⟨e, he, Or.inr (broadCastCommonProp_frame hb).objects⟩

theorem stepMove_written (h : w.stepMove pb a r position = some w') :
    w'.objects = w.objects ∨ ∃ e, w.entity r = some e ∧
      w'.objects = (w.setEntity r (e.updatePosition position)).objects := by
  obtain ⟨e, he, ⟨_, rfl⟩ | ⟨i, s, x, z, _, _, _, _, hb⟩⟩ := stepMove_cases h
  · exact Or.inl rfl
  · exact Or.inr ⟨e, he, (broadCastCommonProp_frame hb).objects⟩

theorem onEnterScene_grown (h : w.onEnterScene pb a r sceneId = some w') : Grown w w' := by
  obtain ⟨e, he, ⟨_, rfl⟩ | ⟨s, x, z, hs, _, _, hb⟩⟩ := onEnterScene_cases h
  · exact .of_scenes (setEntity_scenes w r _)
  have hframe := broadCastCommonProp_frame hb
  have hscenes : ((w.setEntity r (inScene e sceneId)).add r (inScene e sceneId)).scenes =
      w.scenes := setEntity_scenes w r _
  have hgrown : Grown w ((w.setEntity r (inScene e sceneId)).add r (inScene e sceneId)) :=
    .of_scenes hscenes
  have hk := (hgrown.knows sceneId).mpr (knows_of_find hs)
  refine ⟨fun i => ?_, fun i k id hid => ?_, fun i k id hid => ?_⟩
  · rw [hframe.knows, knows_setScene_of_knows hk, hgrown.knows]
  · rw [hframe.x, xBucket_setScene]
    split
    · rename_i hi
      rw [hi, xBucket_of_find hs] at hid
      exact UnorderedMap.mem_insertIn.mpr (Or.inr hid)
    · exact hgrown.x i k id hid
  · rw [hframe.z, zBucket_setScene]
    split
    · rename_i hi
      rw [hi, zBucket_of_find hs] at hid
      exact UnorderedMap.mem_insertIn.mpr (Or.inr hid)
    · exact hgrown.z i k id hid

theorem stepMove_grown (h : w.stepMove pb a r position = some w') : Grown w w' := by
  obtain ⟨e, he, ⟨_, rfl⟩ | ⟨i, s, x, z, _, hs, _, _, hb⟩⟩ := stepMove_cases h
  · exact .refl _
  have hframe := broadCastCommonProp_frame hb
  have hgrown : Grown w (w.setEntity r (e.updatePosition position)) :=
    .of_scenes (setEntity_scenes w r _)
  have hk := (hgrown.knows i).mpr (knows_of_find hs)
  refine ⟨fun j => ?_, fun j k id hid => ?_, fun j k id hid => ?_⟩
  · rw [hframe.knows, knows_setScene_of_knows hk, hgrown.knows]
  · rw [hframe.x, xBucket_setScene]
    split
    · rename_i hj
      rw [hj, xBucket_of_find hs] at hid
      exact mem_erase_insert.mpr (Or.inr hid)
    · exact hgrown.x j k id hid
  · rw [hframe.z, zBucket_setScene]
    split
    · rename_i hj
      rw [hj, zBucket_of_find hs] at hid
      exact mem_erase_insert.mpr (Or.inr hid)
    · exact hgrown.z j k id hid

theorem everyone_setEntity (h : Everyone P w) (hP : P e) : Everyone P (w.setEntity r e) := by
  intro r' e' he'
  rw [setEntity] at he'
  split at he'
  · exact h r' e' he'
  · rename_i o ho
    by_cases hr : r' = r
    · rw [hr, entity, UnorderedMap.find_insertAt_self, Option.map_some, Object.entity_setEntity,
        Option.some.injEq] at he'
      exact he' ▸ hP
    · rw [entity, UnorderedMap.find_insertAt_ne _ hr] at he'
      exact h r' e' he'

theorem Everyone.congr (h : Everyone P w) (ho : w'.objects = w.objects) : Everyone P w' := by
  intro r e he
  rw [entity, ho] at he
  exact h r e he

theorem onEnterScene_everyone (hP : Stable P) (h : Everyone P w)
    (hw : w.onEnterScene pb a r sceneId = some w') : Everyone P w' := by
  obtain ⟨e, he, ho | ho⟩ := onEnterScene_written hw
  · exact (everyone_setEntity h (hP.nowhere e (h r e he))).congr ho
  · exact (everyone_setEntity h (hP.scene e sceneId (h r e he))).congr ho

theorem stepMove_everyone (hP : Stable P) (h : Everyone P w)
    (hw : w.stepMove pb a r position = some w') : Everyone P w' := by
  obtain ho | ⟨e, he, ho⟩ := stepMove_written hw
  · exact h.congr ho
  · exact (everyone_setEntity h (hP.position e position (h r e he))).congr ho

/-! ### The queue -/

/-- The queue has got messages of this kind. -/
abbrev Posts (reading : Reading) (M : MsgItem → Prop) (w w' : World) : Prop :=
  Reaches (MessageDispatcher.step reading) (MessageDispatcher.Event.Posts M)
    w.dispatcher w'.dispatcher

theorem Posts.congr {M : MsgItem → Prop} (h : Posts reading M w w')
    (hd : w.dispatcher = w''.dispatcher) : Posts reading M w'' w' := by
  rwa [Posts, ← hd]

theorem sendMessage_posts {M : MsgItem → Prop} {item : MsgItem} (h : M item) :
    Posts reading M w (w.sendMessage a item) := by
  have hposts : (MessageDispatcher.Event.sendMessage item a.clock).Posts M := h
  exact .single hposts rfl

theorem foldl_sendTo_posts {M : MsgItem → Prop} (item : MsgItem)
    (hM : ∀ receiver, M { item with receiver := receiver }) : ∀ (ids : List ℤ) (w : World),
    Posts reading M w (ids.foldl (sendTo a item) w) := by
  intro ids
  induction ids with
  | nil => intro w; exact .refl _
  | cons id ids ih =>
    intro w
    refine Reaches.trans ?_ (ih _)
    rw [sendTo]
    split
    · exact .refl _
    · rename_i near _
      exact sendMessage_posts (hM near.id)

theorem sendNearbyMessage_posts {M : MsgItem → Prop} {item : MsgItem}
    (h : w.sendNearbyMessage a r item = some w') (he : w.entity r = some e)
    (hM : ∀ receiver, M { item with sender := e.id, receiver := receiver }) :
    Posts reading M w w' := by
  obtain ⟨e₀, he₀, ⟨_, rfl⟩ | ⟨i, _, h⟩⟩ := located_cases h
  · exact .refl _
  · obtain rfl : e = e₀ := Option.some.inj (he.symm.trans he₀)
    simp only [Option.bind_eq_bind, Option.bind_eq_some_iff] at h
    obtain ⟨s, _, ⟨count, ids, s'⟩, _, h⟩ := h
    split at h
    · rw [Option.pure_def, Option.some.injEq] at h
      rw [← h]
      exact .refl _
    · rw [Option.pure_def, Option.some.injEq] at h
      rw [← h]
      exact foldl_sendTo_posts { item with sender := e.id } hM ids (w.setScene i s')

theorem broadCastCommonProp_posts {type : MsgType} (ht : type = .aoiEnter ∨ type = .aoiMove)
    (h : w.broadCastCommonProp pb a r type = some w') (he : w.entity r = some e) (hP : P e) :
    Posts reading (Mail pb P) w w' := by
  rw [broadCastCommonProp, he, Option.bind_eq_bind, Option.bind_some] at h
  refine sendNearbyMessage_posts h he fun receiver => ⟨?_, rfl, rfl, e, hP, rfl, rfl⟩
  exact ht.imp (congrArg MsgType.number) (congrArg MsgType.number)

theorem onEnterScene_posts (hP : Stable P) (h : Everyone P w)
    (hw : w.onEnterScene pb a r sceneId = some w') : Posts reading (Mail pb P) w w' := by
  obtain ⟨e, he, ⟨_, rfl⟩ | ⟨s, x, z, _, _, _, hb⟩⟩ := onEnterScene_cases hw
  · rw [Posts, setEntity_dispatcher]
    exact .refl _
  · have hself := (writes_setEntity he (inScene e sceneId)).self
    exact (broadCastCommonProp_posts (Or.inl rfl) hb hself (hP.scene e sceneId (h r e he))).congr
      (setEntity_dispatcher w r _)

theorem stepMove_posts (hP : Stable P) (h : Everyone P w)
    (hw : w.stepMove pb a r position = some w') : Posts reading (Mail pb P) w w' := by
  obtain ⟨e, he, ⟨_, rfl⟩ | ⟨i, s, x, z, _, _, _, _, hb⟩⟩ := stepMove_cases hw
  · exact .refl _
  · have hself := (writes_setEntity he (e.updatePosition position)).self
    have hnew := hP.position e position (h r e he)
    exact (broadCastCommonProp_posts (Or.inr rfl) hb hself hnew).congr (setEntity_dispatcher w r _)

/-! ### Acts -/

/-- One thing that a packet does to the world. -/
inductive Act
  | put (r : Ref) (p : Player)
  | release (r : Ref)
  | enter (r : Ref) (a : Ambient) (sceneId : ℤ)
  | move (r : Ref) (a : Ambient) (position : Vector3)

namespace Act

def address : Act → Ref
  | put r _ => r
  | release r => r
  | enter r _ _ => r
  | move r _ _ => r

def run (pb : Protobuf) (w : World) : Act → Option World
  | put r p => some { w with objects := w.objects.insertAt r (.player p) }
  | release r => w.release r
  | enter r a sceneId => w.onEnterScene pb a r sceneId
  | move r a position => w.stepMove pb a r position

def Has (P : Entity → Prop) : Act → Prop
  | put _ p => P p.toEntity
  | release _ => True
  | enter _ _ _ => True
  | move _ _ _ => True

end Act

/-- An act, on what is not a resident. -/
def act (pb : Protobuf) (w : World) (b : Act) : Option World :=
  match w.objects.find b.address with
  | some (.hoster _) => none
  | _ => b.run pb w

variable {b : Act}

theorem act_of_not_hoster (h : ∀ e, w.objects.find b.address ≠ some (.hoster e)) :
    w.act pb b = b.run pb w := by
  rw [act]
  split
  · rename_i e he; exact absurd he (h e)
  · rfl

theorem act_eq_some : w.act pb b = some w' ↔
    (∀ e, w.objects.find b.address ≠ some (.hoster e)) ∧ b.run pb w = some w' := by
  constructor
  · intro h
    have hne : ∀ e, w.objects.find b.address ≠ some (.hoster e) := by
      intro e he
      rw [act, he] at h
      cases h
    exact ⟨hne, act_of_not_hoster hne ▸ h⟩
  · rintro ⟨hne, h⟩
    rwa [act_of_not_hoster hne]

theorem hoster_setEntity (hne : ∀ e, w.objects.find r ≠ some (.hoster e)) (e : Entity)
    (r' : Ref) (n : Entity) :
    (w.setEntity r e).objects.find r' = some (.hoster n) ↔
      w.objects.find r' = some (.hoster n) := by
  rw [setEntity]
  split
  · rfl
  · rename_i o ho
    cases o with
    | hoster e₀ => exact absurd ho (hne e₀)
    | player p =>
      by_cases hr : r' = r
      · rw [hr, UnorderedMap.find_insertAt_self]
        refine iff_of_false (fun h => ?_) (hne n)
        cases Option.some.inj h
      · rw [UnorderedMap.find_insertAt_ne _ hr]

/-- **No packet changes a resident.** -/
theorem act_hoster (h : w.act pb b = some w') (r' : Ref) (n : Entity) :
    w'.objects.find r' = some (.hoster n) ↔ w.objects.find r' = some (.hoster n) := by
  obtain ⟨hne, hrun⟩ := act_eq_some.mp h
  cases b with
  | put r p =>
    obtain rfl := Option.some.inj hrun
    by_cases hr : r' = r
    · rw [hr]
      refine iff_of_false (fun hn => ?_) (hne n)
      rw [UnorderedMap.find_insertAt_self] at hn
      cases Option.some.inj hn
    · rw [UnorderedMap.find_insertAt_ne _ hr]
  | release r =>
    obtain ⟨o, _, ⟨_, rfl⟩ | ⟨_, hobjects⟩⟩ := release_cases hrun
    · rfl
    · rw [hobjects]
      by_cases hr : r' = r
      · rw [hr, UnorderedMap.find_erase_self]
        exact iff_of_false (fun hn => Option.some_ne_none _ hn.symm) (hne n)
      · rw [UnorderedMap.find_erase_ne _ hr]
  | enter r a sceneId =>
    obtain ⟨e, _, ho | ho⟩ := onEnterScene_written hrun
    · rw [ho]; exact hoster_setEntity hne _ r' n
    · rw [ho]; exact hoster_setEntity hne _ r' n
  | move r a position =>
    obtain ho | ⟨e, _, ho⟩ := stepMove_written hrun
    · rw [ho]
    · rw [ho]; exact hoster_setEntity hne _ r' n

theorem release_scenes (h : w.release r = some w') :
    w'.scenes = w.scenes ∧ w'.dispatcher = w.dispatcher := by
  rw [release] at h
  split at h
  · cases h
  · split at h
    · cases h; exact ⟨rfl, rfl⟩
    · split at h
      · cases h; exact ⟨rfl, rfl⟩
      · split at h
        · cases h; exact ⟨rfl, rfl⟩
        · cases h

/-- **No packet takes anyone out of a cell.** -/
theorem act_grown (h : w.act pb b = some w') : Grown w w' := by
  obtain ⟨_, hrun⟩ := act_eq_some.mp h
  cases b with
  | put r p =>
    obtain rfl := Option.some.inj hrun
    exact .of_scenes rfl
  | release r => exact .of_scenes (release_scenes hrun).1
  | enter r a sceneId => exact onEnterScene_grown hrun
  | move r a position => exact stepMove_grown hrun

theorem act_everyone (hP : Stable P) (h : Everyone P w) (hb : b.Has P)
    (hw : w.act pb b = some w') : Everyone P w' := by
  obtain ⟨_, hrun⟩ := act_eq_some.mp hw
  cases b with
  | put r p =>
    obtain rfl := Option.some.inj hrun
    intro r' e he
    by_cases hr : r' = r
    · rw [hr, entity, UnorderedMap.find_insertAt_self] at he
      exact Option.some.inj he ▸ hb
    · rw [entity, UnorderedMap.find_insertAt_ne _ hr] at he
      exact h r' e he
  | release r =>
    obtain ⟨o, _, ⟨_, rfl⟩ | ⟨_, hobjects⟩⟩ := release_cases hrun
    · exact h
    · intro r' e he
      by_cases hr : r' = r
      · rw [hr, entity, hobjects, UnorderedMap.find_erase_self] at he
        cases he
      · rw [entity, hobjects, UnorderedMap.find_erase_ne _ hr] at he
        exact h r' e he
  | enter r a sceneId => exact onEnterScene_everyone hP h hrun
  | move r a position => exact stepMove_everyone hP h hrun

/-- **To the queue an act is calls of `SendMessage`.** -/
theorem act_posts (hP : Stable P) (h : Everyone P w) (hw : w.act pb b = some w') :
    Posts reading (Mail pb P) w w' := by
  obtain ⟨_, hrun⟩ := act_eq_some.mp hw
  cases b with
  | put r p =>
    obtain rfl := Option.some.inj hrun
    exact .refl _
  | release r =>
    rw [Posts, (release_scenes hrun).2]
    exact .refl _
  | enter r a sceneId => exact onEnterScene_posts hP h hrun
  | move r a position => exact stepMove_posts hP h hrun

end World

/-! ### Reads -/

/-- A property that players are made with, saved with and loaded with from this
database. -/
structure Redis.Makes (pb : Protobuf) (P : Entity → Prop) (redis : Redis) : Prop where
  new : ∀ playerId session, P (Player.new playerId session).toEntity
  saved : ∀ p : Player, P p.toEntity → P p.saved.toEntity
  loaded : ∀ (p : Player) o, P p.toEntity → P (p.load pb.player o redis).2.toEntity

namespace Game

variable {pb : Protobuf} {P : Entity → Prop} {g g' : Game} {r : Ref} {p q : Player}

/-- What a list of acts on players leaves, if these have the property. -/
abbrev Acts (pb : Protobuf) (P : Entity → Prop) (w w' : World) : Prop :=
  Reaches (World.act pb) (World.Act.Has P) w w'

theorem acts_of_run {w w' : World} (b : World.Act)
    (hne : ∀ e, w.objects.find b.address ≠ some (.hoster e)) (hhas : b.Has P)
    (h : b.run pb w = some w') : Acts pb P w w' :=
  .single hhas (World.act_eq_some.mpr ⟨hne, h⟩)

theorem setPlayer_acts (hne : ∀ e, g.world.objects.find r ≠ some (.hoster e))
    (hP : P p.toEntity) : Acts pb P g.world (g.setPlayer r p).world :=
  acts_of_run (.put r p) hne hP rfl

theorem not_hoster_of_player (h : g.player r = some p) (e : Entity) :
    g.world.objects.find r ≠ some (.hoster e) := by
  intro he
  rw [player_eq_some, he] at h
  cases Option.some.inj h

theorem save_acts {o : Outcome} (hP : ∀ p : Player, P p.toEntity → P p.saved.toEntity)
    (hp : g.player r = some p) (hhas : P p.toEntity) (h : g.save pb r o = some g') :
    Acts pb P g.world g'.world ∧ ∃ q, g'.player r = some q := by
  rw [save_eq hp, Option.some.injEq] at h
  subst h
  exact ⟨setPlayer_acts (not_hoster_of_player hp) (hP p hhas), p.saved,
    player_setPlayer g r p.saved⟩

theorem loadAndSend_acts {o : Outcome} {ret : ℤ} (hP : g.redis.Makes pb P)
    (hp : g.player r = some p) (hhas : P p.toEntity) (h : g.loadAndSend pb r o = some (ret, g')) :
    Acts pb P g.world g'.world ∧ ∃ q, g'.player r = some q := by
  rw [loadAndSend_eq hp, Option.some.injEq, Prod.mk.injEq] at h
  obtain ⟨-, rfl⟩ := h
  exact ⟨setPlayer_acts (not_hoster_of_player hp) (hP.loaded p o hhas),
    (p.load pb.player o g.redis).2, player_setPlayer g r (p.load pb.player o g.redis).2⟩

theorem player_of_tenants (h : World.SameTenants g.world g'.world) (hp : g.player r = some p) :
    ∃ q, g'.player r = some q := by
  have howner := World.owner_of_player (player_eq_some.mp hp)
  rw [← h.owner] at howner
  obtain ⟨q, hq, _⟩ := World.owner_eq_some.mp howner
  exact ⟨q, player_eq_some.mpr hq⟩

theorem handleProtocol_acts {v : Receive} {typeT : MetaType} {message : Message}
    (hP : g.redis.Makes pb P) (hp : g.player r = some p) (hhas : P p.toEntity)
    (h : g.handleProtocol pb r v typeT message = some g') :
    Acts pb P g.world g'.world ∧ ∃ q, g'.player r = some q := by
  refine ⟨?_, player_of_tenants (handleProtocol_tenants h) hp⟩
  rw [handleProtocol.eq_def] at h
  split at h
  · obtain ⟨⟨ret, g₁⟩, hg, rfl⟩ := Option.map_eq_some_iff.mp h
    exact (loadAndSend_acts hP hp hhas hg).1
  · obtain ⟨w, hw, h⟩ := Option.bind_eq_some_iff.mp h
    cases h
    exact acts_of_run (.enter r v.ambient _) (not_hoster_of_player hp) trivial hw
  · obtain ⟨w, hw, h⟩ := Option.bind_eq_some_iff.mp h
    cases h
    exact acts_of_run (.move r v.ambient _) (not_hoster_of_player hp) trivial hw
  · cases h
    exact .refl _

end Game

namespace Server

variable {pb : Protocols} {P : Entity → Prop} {s s' t : Server} {v : Receive} {r : Ref}
  {p : Player}

/-- `g_player` points to a player, if anywhere. -/
def Seated (s : Server) : Prop := ∀ r, s.gPlayer = some r → ∃ p, s.game.player r = some p

theorem Assigned.acts (pb : Protocols) (h : Assigned s r p t) (hs : s.Seated) (hP : P p.toEntity) :
    Game.Acts pb.toProtobuf P s.game.world t.game.world ∧ t.game.player r = some p := by
  have hfree : ∀ e, s.game.world.objects.find r ≠ some (.hoster e) := by
    intro e he
    rw [h.fresh] at he
    cases he
  have hput : Game.Acts pb.toProtobuf P s.game.world (s.game.setPlayer r p).world :=
    Game.setPlayer_acts hfree hP
  have hw := h.world
  cases hg : s.gPlayer with
  | none =>
    rw [hg] at hw
    dsimp only at hw
    refine ⟨hw ▸ hput, ?_⟩
    exact (Game.player_congr (by rw [hw])).trans (Game.player_setPlayer s.game r p)
  | some old =>
    rw [hg] at hw
    dsimp only at hw
    obtain ⟨q, hq⟩ := hs old hg
    have hold : (s.game.setPlayer r p).player old = some q :=
      (Game.player_setPlayer_ne s.game (h.ne hq) p).trans hq
    have hrelease : Game.Acts pb.toProtobuf P (s.game.setPlayer r p).world t.game.world :=
      Game.acts_of_run (.release old) (Game.not_hoster_of_player hold) trivial hw
    refine ⟨hput.trans hrelease, ?_⟩
    · have hne : r ≠ old := fun hr => h.ne hq hr.symm
      have hkeeps : t.game.world.objects.find r = (s.game.setPlayer r p).world.objects.find r := by
        obtain ⟨o, _, ⟨_, heq⟩ | ⟨_, hobjects⟩⟩ := World.release_cases hw
        · rw [heq]
        · rw [hobjects, UnorderedMap.find_erase_ne _ hne]
      exact (Game.player_congr hkeeps).trans (Game.player_setPlayer s.game r p)

theorem Assigned.gPlayer (h : Assigned s r p t) : t.gPlayer = some r := by rw [h.eq]

theorem Assigned.redis (h : Assigned s r p t) : t.game.redis = s.game.redis := by rw [h.eq]

theorem seated_of_gPlayer (hg : s.gPlayer = some r) (h : ∃ p, s.game.player r = some p) :
    s.Seated := by
  intro r' hr'
  obtain rfl := Option.some.inj (hg.symm.trans hr')
  exact h

theorem Seated.congr (h : s.Seated) (hg : t.gPlayer = s.gPlayer)
    (hw : t.game.world = s.game.world) : t.Seated := by
  intro r hr
  obtain ⟨p, hp⟩ := h r (hg ▸ hr)
  exact ⟨p, (Game.player_congr (by rw [hw])).trans hp⟩

theorem Dispatched.acts {packet : Meta} {message : Message} {again : Bool} {player : Option Player}
    (h : Dispatched pb s v packet message again player t) (hs : s.Seated)
    (heveryone : s.game.world.Everyone P) (hP : s.game.redis.Makes pb.toProtobuf P) :
    Game.Acts pb.toProtobuf P s.game.world t.game.world ∧ t.Seated := by
  cases h with
  | stops _ _ _ ht =>
    obtain rfl | rfl := ht
    · exact ⟨.refl _, hs⟩
    · exact ⟨.refl _, hs.congr rfl rfl⟩
  | creates m u game _ _ hu hgame =>
    have hnew := hP.new (s.newId v) v.session
    obtain ⟨hacts, hplayer⟩ := hu.acts pb (hs.congr rfl rfl) hnew
    obtain ⟨hsave, hsaved⟩ := Game.save_acts hP.saved hplayer hnew hgame
    exact ⟨hacts.trans hsave, seated_of_gPlayer hu.gPlayer hsaved⟩
  | enters m u ret game _ _ hu hgame =>
    have hnew := hP.new m.getPlayerId v.session
    obtain ⟨hacts, hplayer⟩ := hu.acts pb hs hnew
    obtain ⟨hload, hloaded⟩ := Game.loadAndSend_acts (hu.redis ▸ hP) hplayer hnew hgame
    exact ⟨hacts.trans hload, seated_of_gPlayer hu.gPlayer hloaded⟩
  | runs _ r p game _ _ hsome hp hgame =>
    have hhas := heveryone r p.toEntity (Game.entity_of_player hp)
    obtain ⟨hacts, hplayer⟩ := Game.handleProtocol_acts hP hp hhas hgame
    exact ⟨hacts, seated_of_gPlayer hsome hplayer⟩

/-- **What a completed read does to the world** is a list of acts on players. -/
theorem step_acts (h : step pb s (.receive v) = some s') (hs : s.Seated)
    (heveryone : s.game.world.Everyone P) (hP : s.game.redis.Makes pb.toProtobuf P) :
    Game.Acts pb.toProtobuf P s.game.world s'.game.world ∧ s'.Seated := by
  by_cases hp : (s.sessions v.session).reading = .pending
  · cases hin : incoming pb v with
    | none =>
      obtain ⟨t, ht, hdrop⟩ := initializeHandler_of_none (s := s) hin
      rw [step_receive hp, ht, Option.map_some, Option.some.injEq] at h
      subst h
      have hacts : Game.Acts pb.toProtobuf P s.game.world t.game.world := hdrop.world ▸ .refl _
      exact ⟨hacts, hs.congr hdrop.gPlayer hdrop.world⟩
    | some x =>
      obtain ⟨packet, message⟩ := x
      obtain ⟨again, player, t, hd, hgame, hg, _, _⟩ := step_receive_dispatched hp hin h
      have hseated : (s.asyncSend v.session (.enterGame greeting)).Seated := hs.congr rfl rfl
      obtain ⟨hacts, ht⟩ := hd.acts hseated heveryone hP
      exact ⟨hgame ▸ hacts, ht.congr hg (by rw [hgame])⟩
  · rw [step_receive_of_ne hp, Option.some.injEq] at h
    subst h
    exact ⟨.refl _, hs⟩

end Server

end GameService
