import GameService.World.Broadcast
import GameService.World.Registration
import Mathlib.Algebra.Order.Ring.Rat
import Mathlib.Algebra.Order.Group.Abs

/-!
# Surroundings

The messages around an event of an entity are discharged to the entities that
hear it, and a `Player` turns each into a `SurroundingsChanged` for its client;
residents send nothing.  The id of the entity travels inside the content of the
message, a serialized `CommonProp`: `BroadCastCommonProp` puts it there, and each
branch of `Player::HandleMessage` reads it back.

`OnLeaveScene` builds its message by hand and leaves the content empty.  The
empty content parses, to a `CommonProp` with entity id `0`, and that is the id
the clients are told.  `carries_iff` is the exact condition under which they are
told the id of the entity.
-/

namespace GameService

open Lib Asset

namespace Entity

/-- `GetSightDistance`, which `Player` and `Hoster` inherit. -/
def getSightDistance (_ : Entity) : ℚ := 0

/-- `IsInSight` of an entity with this sight distance. -/
def isInSightFor (e : Entity) (visibilityRange : ℚ) (pos : Vector3) : Bool :=
  decide (visibilityRange < |pos.getX - e.position.getX|) ||
    decide (visibilityRange < |pos.getZ - e.position.getZ|)

def isInSight (e : Entity) (pos : Vector3) : Bool := e.isInSightFor e.getSightDistance pos

/-- **`IsInSight` is the wrong way round.** -/
theorem isInSightFor_iff {e : Entity} {visibilityRange : ℚ} {pos : Vector3} :
    e.isInSightFor visibilityRange pos = true ↔
      ¬ (|pos.getX - e.position.getX| ≤ visibilityRange ∧
        |pos.getZ - e.position.getZ| ≤ visibilityRange) := by
  rw [isInSightFor, Bool.or_eq_true, decide_eq_true_eq, decide_eq_true_eq, not_and_or, not_le,
    not_le]

end Entity

/-- `Player::HandleMessage`: what it returns, and what it passes to
`SendProtocol`. -/
def Player.handleMessage (pb : Protobuf) (p : Player) (item : MsgItem) :
    Bool × List SurroundingsChanged :=
  let (parsed, commonProp) := pb.commonProp.parse item.content
  if item.type = MsgType.aoiEnter.number then
    if !parsed then (false, [])
    else if !p.isInSight commonProp.getPosition then (false, [])
    else (true, [{
      actionType := some .enter
      entityId := some commonProp.getEntityId
      content := some item.content }])
  else if item.type = MsgType.aoiLeave.number then
    if !parsed then (false, [])
    else (true, [{ actionType := some .leave, entityId := some commonProp.getEntityId }])
  else if item.type = MsgType.aoiMove.number then
    if !parsed then (false, [])
    else (true, [{ actionType := some .move, entityId := some commonProp.getEntityId }])
  else (true, [])

/-- `Hoster::HandleMessage`, which sends nothing. -/
def Hoster.handleMessage (item : MsgItem) : Bool :=
  if item.type = MsgType.aoiEnter.number ∨ item.type = MsgType.aoiLeave.number ∨
      item.type = MsgType.aoiMove.number then
    decide (item.sender ≠ item.receiver)
  else true

def Object.handleMessage (pb : Protobuf) (item : MsgItem) :
    Object → Bool × List SurroundingsChanged
  | .player p => p.handleMessage pb item
  | .hoster _ => (Hoster.handleMessage item, [])

namespace World

/-- The object that `EntityManager` has under an id, with its address. -/
def receiver (w : World) (entityId : ℤ) : Option (Ref × Object) :=
  (w.getEntity entityId).bind fun r => (w.objects.find r).map fun o => (r, o)

/-- `Discharge`: what it returns, and what is sent to clients, each with the
player that sends it. -/
def discharge (pb : Protobuf) (w : World) (item : MsgItem) :
    Bool × List (Ref × SurroundingsChanged) :=
  match w.receiver item.receiver with
  | none => (false, [])
  | some (r, o) => (true, (o.handleMessage pb item).2.map fun m => (r, m))

/-- What is sent to clients when every message is discharged once, in order. -/
def dischargeAll (pb : Protobuf) (w : World) (items : List MsgItem) :
    List (Ref × SurroundingsChanged) :=
  items.flatMap fun item => (w.discharge pb item).2

/-- The events of an entity that are sent around. -/
inductive Appearance
  | enter (sceneId : ℤ)
  | move (position : Vector3)
  | leave
  deriving DecidableEq

def appear (pb : Protobuf) (a : Ambient) (w : World) (r : Ref) : Appearance → Option World
  | .enter sceneId => w.onEnterScene pb a r sceneId
  | .move position => w.stepMove pb a r position
  | .leave => w.onLeaveScene a r

def sentSince (w w' : World) : List MsgItem := w'.messages.drop w.messages.length

/-! ### What is sent around -/

variable {pb : Protobuf} {a : Ambient} {v w w' : World} {r : Ref} {e : Entity} {item : MsgItem}
  {items : List MsgItem}

theorem sentSince_eq (h : w'.messages = w.messages ++ items) : sentSince w w' = items := by
  rw [sentSince, h, List.drop_left]

@[simp] theorem messages_setEntity (w : World) (r : Ref) (e : Entity) :
    (w.setEntity r e).messages = w.messages := by
  rw [messages, messages, setEntity_dispatcher]

theorem onEnterScene_sent {sceneId : ℤ} (h : w.onEnterScene pb a r sceneId = some w')
    (he : w.entity r = some e) : sentSince w w' = [] ∨
      ∃ u : World, u.entity r = some (inScene e sceneId) ∧ u.messages = w.messages ∧
        u.broadCastCommonProp pb a r .aoiEnter = some w' := by
  obtain ⟨e₀, he₀, ⟨_, rfl⟩ | ⟨s, x, z, _, _, _, hb⟩⟩ := onEnterScene_cases h
  · refine Or.inl (sentSince_eq ?_)
    rw [messages_setEntity, List.append_nil]
  · obtain rfl : e = e₀ := Option.some.inj (he.symm.trans he₀)
    refine Or.inr ⟨_, ?_, ?_, hb⟩
    · exact (writes_setEntity he (inScene e sceneId)).self
    · exact messages_setEntity w r (inScene e sceneId)

theorem stepMove_sent {position : Vector3} (h : w.stepMove pb a r position = some w')
    (he : w.entity r = some e) : sentSince w w' = [] ∨
      ∃ u : World, u.entity r = some (e.updatePosition position) ∧ u.messages = w.messages ∧
        u.broadCastCommonProp pb a r .aoiMove = some w' := by
  obtain ⟨e₀, he₀, ⟨_, rfl⟩ | ⟨i, s, x, z, _, _, _, _, hb⟩⟩ := stepMove_cases h
  · exact Or.inl (sentSince_eq (List.append_nil _).symm)
  · obtain rfl : e = e₀ := Option.some.inj (he.symm.trans he₀)
    refine Or.inr ⟨_, ?_, ?_, hb⟩
    · exact (writes_setEntity he (e.updatePosition position)).self
    · exact messages_setEntity w r (e.updatePosition position)

/-- Every message of a broadcast carries the properties of the entity. -/
theorem broadCastCommonProp_sent {type : MsgType}
    (h : w.broadCastCommonProp pb a r type = some w') (he : w.entity r = some e) :
    ∃ receivers : List ℤ, sentSince w w' = receivers.map fun receiver =>
      { type := type.number, sender := e.id, receiver := receiver,
        content := pb.commonProp.serialize e.superCommonProp } := by
  rw [broadCastCommonProp, he] at h
  obtain ⟨e₀, he₀, ⟨_, rfl⟩ | ⟨_, _, count, ids, _, _, _, _, hm⟩⟩ := sendNearbyMessage_cases h
  · exact ⟨[], sentSince_eq (List.append_nil _).symm⟩
  · obtain rfl : e = e₀ := Option.some.inj (he.symm.trans he₀)
    by_cases hcount : count = 0
    · exact ⟨[], sentSince_eq (by rw [hm, if_pos hcount]; rfl)⟩
    · exact ⟨w.hearers ids, sentSince_eq (by rw [hm, if_neg hcount])⟩

/-! ### The id the clients are told -/

/-- **Every client is told this id** by what is discharged. -/
def Carries (pb : Protobuf) (v : World) (items : List MsgItem) (entityId : ℤ) : Prop :=
  ∀ q ∈ v.dischargeAll pb items, q.2.entityId = some entityId

/-- What `SetID` leaves in an entity. -/
def Named (e : Entity) : Prop := e.superCommonProp.entityId = some e.id

theorem inScene_named {sceneId : ℤ} (h : Named e) : Named (inScene e sceneId) := h

theorem updatePosition_named {position : Vector3} (h : Named e) :
    Named (e.updatePosition position) := h

theorem mem_dischargeAll {q : Ref × SurroundingsChanged} : q ∈ v.dischargeAll pb items ↔
    ∃ item ∈ items, ∃ p, v.receiver item.receiver = some (q.1, .player p) ∧
      q.2 ∈ (p.handleMessage pb item).2 := by
  rw [dischargeAll, List.mem_flatMap]
  refine exists_congr fun item => and_congr_right fun _ => ?_
  rw [discharge]
  cases hrec : v.receiver item.receiver with
  | none => simp
  | some ro =>
    obtain ⟨r, o⟩ := ro
    cases o with
    | hoster e => simp [Object.handleMessage]
    | player p =>
      simp only [Object.handleMessage, List.mem_map, Option.some.injEq, Prod.mk.injEq,
        Object.player.injEq]
      constructor
      · rintro ⟨m, hm, rfl⟩
        exact ⟨p, ⟨rfl, rfl⟩, hm⟩
      · rintro ⟨p', ⟨hr, hp⟩, hm⟩
        exact ⟨q.2, hp ▸ hm, by rw [hr]⟩

theorem handleMessage_entityId {p : Player} {commonProp : CommonProp}
    (h : pb.commonProp.parse item.content = (true, commonProp)) :
    ∀ m ∈ (p.handleMessage pb item).2, m.entityId = some commonProp.getEntityId := by
  intro m hm
  simp only [Player.handleMessage, h, Bool.not_true, Bool.false_eq_true, if_false] at hm
  split at hm
  · split at hm
    · cases hm
    · rw [List.mem_singleton.mp hm]
  · split at hm
    · rw [List.mem_singleton.mp hm]
    · split at hm
      · rw [List.mem_singleton.mp hm]
      · cases hm

theorem handleMessage_leave {p : Player} {commonProp : CommonProp}
    (ht : item.type = MsgType.aoiLeave.number)
    (h : pb.commonProp.parse item.content = (true, commonProp)) :
    (p.handleMessage pb item).2 =
      [{ actionType := some .leave, entityId := some commonProp.getEntityId }] := by
  simp [Player.handleMessage, h, ht, MsgType.number]

theorem broadCastCommonProp_carries {type : MsgType}
    (h : w.broadCastCommonProp pb a r type = some w') (he : w.entity r = some e) (hn : Named e)
    (hparse : pb.commonProp.parse (pb.commonProp.serialize e.superCommonProp) =
      (true, e.superCommonProp)) (v : World) : Carries pb v (sentSince w w') e.id := by
  intro q hq
  obtain ⟨receivers, hsent⟩ := broadCastCommonProp_sent h he
  obtain ⟨item, hitem, p, _, hm⟩ := mem_dischargeAll.mp hq
  rw [hsent] at hitem
  obtain ⟨receiver, _, rfl⟩ := List.mem_map.mp hitem
  rw [handleMessage_entityId hparse q.2 hm, CommonProp.getEntityId, hn]
  rfl

/-- No player hears that the entity leaves: it has no scene, or none of the ids
the scene finds around it, once it is out of the index, is a player's. -/
def LeavesUnseen (w : World) (r : Ref) (a : Ambient) (v : World) : Prop :=
  ∀ e sceneId s s₁ count ids s', w.entity r = some e → e.locateScene = some sceneId →
    w.scenes.find sceneId = some s → s.leaveScene e.id e.position = some s₁ →
    s₁.getNearByEntities a.orders e.position [] = some (count, ids, s') →
    count = 0 ∨ ∀ id ∈ w.hearers ids, ∀ r' p, v.receiver id ≠ some (r', .player p)

theorem leavesUnseen_of_none (he : w.entity r = some e) (hl : e.locateScene = none) :
    w.LeavesUnseen r a v := by
  intro e₁ i _ _ _ _ _ he₁ hl₁
  obtain rfl : e = e₁ := Option.some.inj (he.symm.trans he₁)
  rw [hl] at hl₁
  cases hl₁

/-- In the one case there is, no receiver is a player. -/
theorem leavesUnseen_iff {s s₁ s' : Scene} {count : ℤ} {ids : List ℤ}
    (he : w.entity r = some e) (hl : e.locateScene = some sceneId)
    (hs : w.scenes.find sceneId = some s) (hs₁ : s.leaveScene e.id e.position = some s₁)
    (hcall : s₁.getNearByEntities a.orders e.position [] = some (count, ids, s')) :
    w.LeavesUnseen r a v ↔
      count = 0 ∨ ∀ id ∈ w.hearers ids, ∀ r' p, v.receiver id ≠ some (r', .player p) := by
  constructor
  · intro h
    exact h e sceneId s s₁ count ids s' he hl hs hs₁ hcall
  · intro h e' i t t₁ count₁ ids₁ t' he' hl' ht ht₁ hcall₁
    obtain rfl : e = e' := Option.some.inj (he.symm.trans he')
    obtain rfl : sceneId = i := Option.some.inj (hl.symm.trans hl')
    obtain rfl : s = t := Option.some.inj (hs.symm.trans ht)
    obtain rfl : s₁ = t₁ := Option.some.inj (hs₁.symm.trans ht₁)
    have heq := Option.some.inj (hcall.symm.trans hcall₁)
    simp only [Prod.mk.injEq] at heq
    obtain ⟨rfl, rfl, _⟩ := heq
    exact h

theorem onLeaveScene_sent (h : w.onLeaveScene a r = some w') (he : w.entity r = some e) :
    (e.locateScene = none ∧ sentSince w w' = []) ∨
      ∃ sceneId s s₁ count ids s', e.locateScene = some sceneId ∧
        w.scenes.find sceneId = some s ∧ s.leaveScene e.id e.position = some s₁ ∧
        s₁.getNearByEntities a.orders e.position [] = some (count, ids, s') ∧
        sentSince w w' = if count = 0 then [] else (w.hearers ids).map fun receiver =>
          { type := MsgType.aoiLeave.number, sender := e.id, receiver := receiver } := by
  obtain ⟨e₀, he₀, ⟨hl, rfl⟩ | ⟨sceneId, s, x, z, hl, hs, hx, hz, hb⟩⟩ := onLeaveScene_cases h
  · obtain rfl : e = e₀ := Option.some.inj (he.symm.trans he₀)
    exact Or.inl ⟨hl, sentSince_eq (List.append_nil _).symm⟩
  · obtain rfl : e = e₀ := Option.some.inj (he.symm.trans he₀)
    have hleave : s.leaveScene e.id e.position = some { s with
        xEntities := s.xEntities.eraseIn x e.id
        zEntities := s.zEntities.eraseIn z e.id } := by
      rw [Scene.leaveScene, hx, hz]
      rfl
    obtain ⟨e₁, he₁, ⟨hnone, _⟩ | ⟨i, s₁, count, ids, s', hi, hs₁, hcall, hm⟩⟩ :=
      sendNearbyMessage_cases hb
    · obtain rfl : e = e₁ := Option.some.inj (he.symm.trans he₁)
      rw [hl] at hnone
      cases hnone
    · obtain rfl : e = e₁ := Option.some.inj (he.symm.trans he₁)
      obtain rfl : sceneId = i := Option.some.inj (hl.symm.trans hi)
      rw [World.setScene, UnorderedMap.find_insertAt_self, Option.some.injEq] at hs₁
      exact Or.inr ⟨sceneId, s, s₁, count, ids, s', hl, hs, hs₁ ▸ hleave, hcall, sentSince_eq hm⟩

/-- A player that hears an entity leave tells its client that `0` has left. -/
theorem leave_carries_iff (h : w.onLeaveScene a r = some w') (he : w.entity r = some e)
    (hempty : pb.commonProp.parse [] = (true, {})) (v : World) :
    Carries pb v (sentSince w w') e.id ↔ e.id = 0 ∨ w.LeavesUnseen r a v := by
  rcases onLeaveScene_sent h he with
    ⟨hl, hsent⟩ | ⟨sceneId, s, s₁, count, ids, s', hl, hs, hs₁, hcall, hsent⟩
  · rw [hsent]
    refine iff_of_true (fun q hq => ?_) (Or.inr (leavesUnseen_of_none he hl))
    obtain ⟨_, hitem, _⟩ := mem_dischargeAll.mp hq
    cases hitem
  · rw [leavesUnseen_iff he hl hs hs₁ hcall]
    constructor
    · intro hcarries
      by_cases hid : e.id = 0
      · exact Or.inl hid
      by_cases hcount : count = 0
      · exact Or.inr (Or.inl hcount)
      refine Or.inr (Or.inr fun receiver hrec r' p hp => hid ?_)
      rw [if_neg hcount] at hsent
      let item : MsgItem :=
        { type := MsgType.aoiLeave.number, sender := e.id, receiver := receiver }
      have hitem : item ∈ sentSince w w' := by
        rw [hsent]
        exact List.mem_map.mpr ⟨receiver, hrec, rfl⟩
      have hm : { actionType := some .leave, entityId := some 0 } ∈
          (p.handleMessage pb item).2 := by
        rw [handleMessage_leave rfl hempty]
        exact List.mem_singleton_self _
      have htold := hcarries (r', _) (mem_dischargeAll.mpr ⟨item, hitem, p, hp, hm⟩)
      exact (Option.some.inj htold).symm
    · intro hor q hq
      obtain ⟨item, hitem, p, hp, hm⟩ := mem_dischargeAll.mp hq
      rw [hsent] at hitem
      split at hitem
      · cases hitem
      · rename_i hcount
        obtain ⟨receiver, hrec, rfl⟩ := List.mem_map.mp hitem
        rcases hor with hid | hzero | hnone
        · rw [handleMessage_entityId hempty q.2 hm, hid]
          rfl
        · exact absurd hzero hcount
        · exact absurd hp (hnone receiver hrec q.1 p)

/-- **When the clients are told the right id.**  Of an entity that `SetID` was
called for, they are told its id when it enters or moves; when it leaves, exactly
if its id is `0` or no player hears it.  `v` is the world in which the messages
are discharged. -/
theorem carries_iff {event : Appearance} (h : appear pb a w r event = some w')
    (he : w.entity r = some e) (hn : Named e)
    (hparse : ∀ e', w'.entity r = some e' →
      pb.commonProp.parse (pb.commonProp.serialize e'.superCommonProp) =
        (true, e'.superCommonProp))
    (hempty : pb.commonProp.parse [] = (true, {})) (v : World) :
    Carries pb v (sentSince w w') e.id ↔
      (event = .leave → e.id = 0 ∨ w.LeavesUnseen r a v) := by
  have hnone : ∀ id, Carries pb v [] id := by
    intro id q hq
    obtain ⟨_, hitem, _⟩ := mem_dischargeAll.mp hq
    cases hitem
  cases event with
  | enter sceneId =>
    refine iff_of_true ?_ nofun
    rcases onEnterScene_sent h he with hsent | ⟨u, hu, hm, hb⟩
    · rw [hsent]
      exact hnone e.id
    · have hcarries := broadCastCommonProp_carries hb hu (inScene_named hn)
        (hparse _ ((broadCastCommonProp_frame hb).entity r ▸ hu)) v
      rwa [sentSince, hm] at hcarries
  | move position =>
    refine iff_of_true ?_ nofun
    rcases stepMove_sent h he with hsent | ⟨u, hu, hm, hb⟩
    · rw [hsent]
      exact hnone e.id
    · have hcarries := broadCastCommonProp_carries hb hu (updatePosition_named hn)
        (hparse _ ((broadCastCommonProp_frame hb).entity r ▸ hu)) v
      rwa [sentSince, hm] at hcarries
  | leave =>
    rw [leave_carries_iff h he hempty v]
    exact ⟨fun hor _ => hor, fun himp => himp rfl⟩

def squareHoster : Entity :=
  { id := 7, locateScene := some 1, superCommonProp := { entityId := some 7 } }

/-- The resident, and a player five cells away. -/
def square : World where
  objects := ((∅ : UnorderedMap Ref Object).insertAt 0 (.hoster squareHoster)).insertAt 1
    (.player { id := 8, locateScene := some 1, session := 1, superCommonProp :=
      { entityId := some 8, position := some { x := some 5 } } })
  entities := ((∅ : UnorderedMap ℤ Ref).insertAt 7 0).insertAt 8 1
  scenes := (∅ : UnorderedMap ℤ Scene).insertAt 1
    { id := 1
      xEntities := (UnorderedMap.insertIn ∅ 0 7).insertIn 5 8
      zEntities := (UnorderedMap.insertIn ∅ 0 7).insertIn 0 8 }

def squareOrder : Enumeration ℤ :=
  ((Enumeration.sorted ℤ).patch [8] (by decide)).patch [7, 8] (by decide)

def squareAmbient : Ambient := { orders := ⟨squareOrder, squareOrder⟩, clock := 0 }

def squareProp : CommonProp := { entityId := some 7, sceneId := some 1 }

def squareProtobuf : Protobuf where
  commonProp := .ofTable [({}, []), (squareProp, [0x08, 7, 0x70, 1])]
  player := .ofTable []

theorem square_carries : ∃ w', appear squareProtobuf squareAmbient square 0 (.enter 1) = some w' ∧
    Carries squareProtobuf w' (sentSince square w') 7 := by
  have hrun : (appear squareProtobuf squareAmbient square 0 (.enter 1)).map (fun w =>
      (w.entity 0).map (·.superCommonProp)) = some (some squareProp) := by decide +kernel
  obtain ⟨w', hw', hprop⟩ := Option.map_eq_some_iff.mp hrun
  have he : square.entity 0 = some squareHoster := rfl
  refine ⟨w', hw', (carries_iff hw' he rfl (fun e' he' => ?_) rfl w').mpr nofun⟩
  rw [he', Option.map_some, Option.some.injEq] at hprop
  rw [hprop]
  rfl

/-- The resident leaves, and the player tells its client that `0` has. -/
theorem square_leave_not_carries : square.entity 0 = some squareHoster ∧ Named squareHoster ∧
    squareProtobuf.commonProp.parse [] = (true, {}) ∧
    ∃ w', appear squareProtobuf squareAmbient square 0 .leave = some w' ∧
      ¬ Carries squareProtobuf w' (sentSince square w') 7 := by
  have hrun : (appear squareProtobuf squareAmbient square 0 .leave).map (fun w =>
      w.dischargeAll squareProtobuf (sentSince square w)) =
        some [(1, { actionType := some .leave, entityId := some 0 })] := by decide +kernel
  obtain ⟨w', hw', hsent⟩ := Option.map_eq_some_iff.mp hrun
  refine ⟨rfl, rfl, rfl, w', hw', fun h => ?_⟩
  have htold := h (1, _) (hsent ▸ List.mem_singleton_self _)
  exact absurd htold (by decide)

end World

end GameService
