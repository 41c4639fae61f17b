import GameService.Queue.MessageDispatcher
import GameService.World.Scene

/-!
# Entities and the world they are in

`Entity.cpp` and the singletons it uses.  A `World` holds the live objects by
their address, the registry of `EntityManager` from ids to addresses, the scenes
of `SceneManager` by id, and the message queue.  A scene pointer is the id the
scene is registered under.

The functions follow `Entity`.  They are undefined where the source is: on an
address that holds no object, and on coordinates and windows that leave
`int32_t`.  `Ambient` is what a call takes from outside: the enumeration orders
of the hash sets it builds and the clock.

The second half says what each of them does to the indices of a scene.  A
broadcast changes no bucket (`Frame`), `OnEnterScene` and `OnLeaveScene` add and
remove the id at the entity's cells, and `StepMove`, which has given the entity
its new position before the scene looks for the old one, removes the id from the
cells it is going to and adds it there again (`stepMove_moved`).
-/

namespace GameService

open Lib Asset

/-- The address of an object. -/
abbrev Ref := ℕ

/-- The part every entity has.  `id` is `_ID`; the scene is `_locate_scene`. -/
structure Entity where
  id : ℤ := 0
  locateScene : Option ℤ := none
  superCommonProp : CommonProp := {}
  deriving DecidableEq

/-- A player; `session` is the connection it was built for. -/
structure Player extends Entity where
  session : ℕ
  stuff : Asset.Player := {}
  deriving DecidableEq

/-- An object by its class; residents have nothing here beyond the entity. -/
inductive Object
  | player (player : Player)
  | hoster (entity : Entity)
  deriving DecidableEq

namespace Entity

def position (e : Entity) : Vector3 := e.superCommonProp.getPosition

def updatePosition (e : Entity) (position : Vector3) : Entity :=
  { e with superCommonProp := { e.superCommonProp with position := some position } }

def setSceneId (e : Entity) (sceneId : ℤ) : Entity :=
  { e with superCommonProp := { e.superCommonProp with sceneId := some sceneId } }

def setId (e : Entity) (entityId : ℤ) : Entity :=
  { e with
    id := entityId
    superCommonProp := { e.superCommonProp with entityId := some entityId } }

end Entity

namespace Object

def entity : Object → Entity
  | player p => p.toEntity
  | hoster e => e

/-- The object with another base part. -/
def setEntity : Object → Entity → Object
  | player p, e => player { p with toEntity := e }
  | hoster _, e => hoster e

@[simp] theorem entity_setEntity (o : Object) (e : Entity) : (o.setEntity e).entity = e := by
  cases o <;> rfl

end Object

structure World where
  objects : UnorderedMap Ref Object := ∅
  entities : UnorderedMap ℤ Ref := ∅
  scenes : UnorderedMap ℤ Scene := ∅
  dispatcher : MessageDispatcher := .start

/-- What a call takes from outside the program. -/
structure Ambient where
  orders : Orders
  clock : ℤ

namespace World

variable (pb : Protobuf) (a : Ambient)

def entity (w : World) (r : Ref) : Option Entity := (w.objects.find r).map Object.entity

/-- Writing to the base part of an object. -/
def setEntity (w : World) (r : Ref) (e : Entity) : World :=
  match w.objects.find r with
  | none => w
  | some o => { w with objects := w.objects.insertAt r (o.setEntity e) }

def setScene (w : World) (sceneId : ℤ) (s : Scene) : World :=
  { w with scenes := w.scenes.insertAt sceneId s }

def add (w : World) (r : Ref) (e : Entity) : World :=
  { w with entities := w.entities.emplace e.id r }

/-- `SendMessage`, the same in `Entity` and `Player`. -/
def sendMessage (w : World) (item : MsgItem) : World :=
  { w with dispatcher := w.dispatcher.sendMessage item a.clock }

/-- The body of the loop in `SendNearbyMessage`. -/
def sendTo (item : MsgItem) (w : World) (id : ℤ) : World :=
  match (w.entities.find id).bind w.entity with
  | none => w
  | some near => w.sendMessage a { item with receiver := near.id }

def sendNearbyMessage (w : World) (r : Ref) (item : MsgItem) : Option World := do
  let e ← w.entity r
  match e.locateScene with
  | none => return w
  | some sceneId =>
    let s ← w.scenes.find sceneId
    let (count, ids, s) ← s.getNearByEntities a.orders e.position []
    let w := w.setScene sceneId s
    if count = 0 then return w
    else return ids.foldl (sendTo a { item with sender := e.id }) w

def broadCastCommonProp (w : World) (r : Ref) (type : MsgType) : Option World := do
  let e ← w.entity r
  w.sendNearbyMessage a r
    { type := type.number, sender := e.id, content := pb.commonProp.serialize e.superCommonProp }

/-- `OnEnterScene`; a scene that is not known leaves the entity without one. -/
def onEnterScene (w : World) (r : Ref) (sceneId : ℤ) : Option World := do
  let e ← w.entity r
  match w.scenes.find sceneId with
  | none => return w.setEntity r { e with locateScene := none }
  | some s =>
    let e := { e with locateScene := some sceneId }.setSceneId sceneId
    let w := (w.setEntity r e).add r e
    let s ← s.enterScene e.id e.position
    (w.setScene sceneId s).broadCastCommonProp pb a r .aoiEnter

/-- `OnLeaveScene`; the entity keeps its pointer to the scene. -/
def onLeaveScene (w : World) (r : Ref) : Option World := do
  let e ← w.entity r
  match e.locateScene with
  | none => return w
  | some sceneId =>
    let s ← w.scenes.find sceneId
    let s ← s.leaveScene e.id e.position
    (w.setScene sceneId s).sendNearbyMessage a r
      { type := MsgType.aoiLeave.number, sender := e.id }

def stepMove (w : World) (r : Ref) (position : Vector3) : Option World := do
  let e ← w.entity r
  match e.locateScene with
  | none => return w
  | some sceneId =>
    -- the entity moves first, so the scene finds it at its new position
    let e := e.updatePosition position
    let w := w.setEntity r e
    let s ← w.scenes.find sceneId
    let s ← s.updatePosition e.id e.position position
    (w.setScene sceneId s).broadCastCommonProp pb a r .aoiMove

/-! ### Where the ids are -/

/-- The ids a scene lists in a cell; none when the scene is not known. -/
def xBucket (w : World) (sceneId k : ℤ) : Finset ℤ :=
  ((w.scenes.find sceneId).map fun s => s.xEntities.bucket k).getD ∅

def zBucket (w : World) (sceneId k : ℤ) : Finset ℤ :=
  ((w.scenes.find sceneId).map fun s => s.zEntities.bucket k).getD ∅

def Knows (w : World) (sceneId : ℤ) : Prop := (w.scenes.find sceneId).isSome = true

instance (w : World) (sceneId : ℤ) : Decidable (w.Knows sceneId) :=
  inferInstanceAs (Decidable (_ = true))

def Listed (w : World) (sceneId id : ℤ) : Prop :=
  ∃ k, id ∈ w.xBucket sceneId k ∨ id ∈ w.zBucket sceneId k

variable {pb a} {w w' w'' : World} {r : Ref} {e : Entity} {s : Scene} {sceneId : ℤ}

/-- The worlds have the same objects, registry and scenes, and the scenes list
the same ids in the same cells. -/
structure Frame (w w' : World) : Prop where
  objects : w'.objects = w.objects
  entities : w'.entities = w.entities
  knows : ∀ sceneId, w'.Knows sceneId ↔ w.Knows sceneId
  x : ∀ sceneId k, w'.xBucket sceneId k = w.xBucket sceneId k
  z : ∀ sceneId k, w'.zBucket sceneId k = w.zBucket sceneId k

theorem Frame.refl (w : World) : Frame w w :=
  ⟨rfl, rfl, fun _ => Iff.rfl, fun _ _ => rfl, fun _ _ => rfl⟩

theorem Frame.trans (h : Frame w w') (h' : Frame w' w'') : Frame w w'' :=
  ⟨h'.objects.trans h.objects, h'.entities.trans h.entities,
    fun i => (h'.knows i).trans (h.knows i), fun i k => (h'.x i k).trans (h.x i k),
    fun i k => (h'.z i k).trans (h.z i k)⟩

theorem Frame.listed (h : Frame w w') (i id : ℤ) : w'.Listed i id ↔ w.Listed i id := by
  simp only [Listed, h.x, h.z]

theorem Frame.entity (h : Frame w w') (r : Ref) : w'.entity r = w.entity r := by
  rw [World.entity, World.entity, h.objects]

theorem knows_setScene (i : ℤ) : (w.setScene sceneId s).Knows i ↔ i = sceneId ∨ w.Knows i := by
  rw [Knows, Knows, setScene, UnorderedMap.find_insertAt]
  by_cases h : i = sceneId
  · simp [h]
  · simp [h]

theorem knows_setScene_of_knows (h : w.Knows sceneId) (i : ℤ) :
    (w.setScene sceneId s).Knows i ↔ w.Knows i := by
  rw [knows_setScene]
  refine or_iff_right_of_imp ?_
  rintro rfl
  exact h

theorem xBucket_congr (h : w'.scenes = w.scenes) (i k : ℤ) : w'.xBucket i k = w.xBucket i k := by
  rw [xBucket, h, xBucket]

theorem zBucket_congr (h : w'.scenes = w.scenes) (i k : ℤ) : w'.zBucket i k = w.zBucket i k := by
  rw [zBucket, h, zBucket]

theorem xBucket_setScene (i k : ℤ) : (w.setScene sceneId s).xBucket i k =
    if i = sceneId then s.xEntities.bucket k else w.xBucket i k := by
  rw [xBucket, setScene, UnorderedMap.find_insertAt]
  split <;> rfl

theorem zBucket_setScene (i k : ℤ) : (w.setScene sceneId s).zBucket i k =
    if i = sceneId then s.zEntities.bucket k else w.zBucket i k := by
  rw [zBucket, setScene, UnorderedMap.find_insertAt]
  split <;> rfl

theorem xBucket_of_find (h : w.scenes.find sceneId = some s) (k : ℤ) :
    w.xBucket sceneId k = s.xEntities.bucket k := by rw [xBucket, h]; rfl

theorem zBucket_of_find (h : w.scenes.find sceneId = some s) (k : ℤ) :
    w.zBucket sceneId k = s.zEntities.bucket k := by rw [zBucket, h]; rfl

theorem knows_of_find (h : w.scenes.find sceneId = some s) : w.Knows sceneId := by
  rw [Knows, h]; rfl

theorem setScene_frame {s' : Scene} (hs : w.scenes.find sceneId = some s)
    (h : s.SameCells s') : Frame w (w.setScene sceneId s') := by
  refine ⟨rfl, rfl, knows_setScene_of_knows (knows_of_find hs), fun i k => ?_, fun i k => ?_⟩
  · rw [xBucket_setScene]
    split
    · rename_i hi; rw [hi, xBucket_of_find hs, h.x]
    · rfl
  · rw [zBucket_setScene]
    split
    · rename_i hi; rw [hi, zBucket_of_find hs, h.z]
    · rfl

/-- A call that reads the scene of an entity, and does nothing if it has none. -/
theorem located_cases {f : Entity → ℤ → Option World}
    (h : (do let e ← w.entity r
             match e.locateScene with
             | none => return w
             | some sceneId => f e sceneId) = some w') :
    ∃ e, w.entity r = some e ∧ ((e.locateScene = none ∧ w' = w) ∨
      ∃ sceneId, e.locateScene = some sceneId ∧ f e sceneId = some w') := by
  obtain ⟨e, he, h⟩ := Option.bind_eq_some_iff.mp h
  refine ⟨e, he, ?_⟩
  cases hl : e.locateScene with
  | none =>
    rw [hl, Option.pure_def, Option.some.injEq] at h
    exact Or.inl ⟨rfl, h.symm⟩
  | some sceneId =>
    rw [hl] at h
    exact Or.inr ⟨sceneId, rfl, h⟩

theorem sendTo_frame (item : MsgItem) (w : World) (id : ℤ) : Frame w (sendTo a item w id) := by
  rw [sendTo]
  split
  · exact Frame.refl w
  · exact ⟨rfl, rfl, fun _ => Iff.rfl, fun _ _ => rfl, fun _ _ => rfl⟩

theorem foldl_sendTo_frame (item : MsgItem) : ∀ (ids : List ℤ) (w : World),
    Frame w (ids.foldl (sendTo a item) w) := by
  intro ids
  induction ids with
  | nil => intro w; exact Frame.refl w
  | cons id ids ih => intro w; exact (sendTo_frame item w id).trans (ih _)

/-- **A broadcast moves nobody.** -/
theorem sendNearbyMessage_frame {item : MsgItem} (h : w.sendNearbyMessage a r item = some w') :
    Frame w w' := by
  obtain ⟨e, _, ⟨_, rfl⟩ | ⟨sceneId, _, h⟩⟩ := located_cases h
  · exact Frame.refl _
  · simp only [Option.bind_eq_bind, Option.bind_eq_some_iff] at h
    obtain ⟨s, hs, ⟨count, ids, s'⟩, hcall, h⟩ := h
    have hframe := setScene_frame hs (Scene.getNearByEntities_sameCells hcall)
    split at h
    · rw [Option.pure_def, Option.some.injEq] at h
      exact h ▸ hframe
    · rw [Option.pure_def, Option.some.injEq] at h
      exact h ▸ hframe.trans (foldl_sendTo_frame _ ids _)

theorem broadCastCommonProp_frame {type : MsgType}
    (h : w.broadCastCommonProp pb a r type = some w') : Frame w w' := by
  rw [broadCastCommonProp, Option.bind_eq_bind, Option.bind_eq_some_iff] at h
  obtain ⟨e, _, h⟩ := h
  exact sendNearbyMessage_frame h

/-- The base part of `r` becomes `e` and no other object changes. -/
structure Writes (w : World) (r : Ref) (e : Entity) (w' : World) : Prop where
  self : w'.entity r = some e
  other : ∀ r', r' ≠ r → w'.objects.find r' = w.objects.find r'

theorem Writes.entity_other (h : Writes w r e w') {r' : Ref} (hr : r' ≠ r) :
    w'.entity r' = w.entity r' := by
  rw [World.entity, World.entity, h.other r' hr]

theorem Writes.congr (h : Writes w r e w') (ho : w''.objects = w'.objects) :
    Writes w r e w'' := by
  constructor
  · rw [World.entity, ho]
    exact h.self
  · intro r' hr
    rw [ho]
    exact h.other r' hr

theorem writes_setEntity {e₀ : Entity} (h : w.entity r = some e₀) (e : Entity) :
    Writes w r e (w.setEntity r e) := by
  obtain ⟨o, ho, _⟩ := Option.map_eq_some_iff.mp h
  rw [setEntity, ho]
  constructor
  · rw [World.entity, UnorderedMap.find_insertAt_self, Option.map_some, Object.entity_setEntity]
  · intro r' hr
    exact UnorderedMap.find_insertAt_ne _ hr _

theorem setEntity_scenes (w : World) (r : Ref) (e : Entity) :
    (w.setEntity r e).scenes = w.scenes := by
  rw [setEntity]
  split <;> rfl

theorem setEntity_entities (w : World) (r : Ref) (e : Entity) :
    (w.setEntity r e).entities = w.entities := by
  rw [setEntity]
  split <;> rfl

theorem setEntity_dispatcher (w : World) (r : Ref) (e : Entity) :
    (w.setEntity r e).dispatcher = w.dispatcher := by
  rw [setEntity]
  split <;> rfl

/-! ### The calls up to their broadcast -/

def inScene (e : Entity) (sceneId : ℤ) : Entity :=
  { e with locateScene := some sceneId }.setSceneId sceneId

/-- **`OnEnterScene`** writes the entity, registers it, lists it in the cells it
is at and broadcasts; a scene that is not known only takes the entity's own. -/
theorem onEnterScene_cases (h : w.onEnterScene pb a r sceneId = some w') :
    ∃ e, w.entity r = some e ∧
      ((w.scenes.find sceneId = none ∧ w' = w.setEntity r { e with locateScene := none }) ∨
      ∃ s x z, w.scenes.find sceneId = some s ∧
        toInt32 e.position.getX = some x ∧ toInt32 e.position.getZ = some z ∧
        (((w.setEntity r (inScene e sceneId)).add r (inScene e sceneId)).setScene sceneId
          { s with
            xEntities := s.xEntities.insertIn x e.id
            zEntities := s.zEntities.insertIn z e.id }).broadCastCommonProp pb a r .aoiEnter =
              some w') := by
  cases he : w.entity r with
  | none => rw [onEnterScene, he] at h; cases h
  | some e =>
    rw [onEnterScene, he] at h
    refine ⟨e, rfl, ?_⟩
    cases hs : w.scenes.find sceneId with
    | none =>
      simp only [Option.bind_eq_bind, Option.bind_some, hs, Option.pure_def,
        Option.some.injEq] at h
      exact Or.inl ⟨rfl, h.symm⟩
    | some s =>
      simp only [Option.bind_eq_bind, Option.bind_some, hs, Option.bind_eq_some_iff] at h
      obtain ⟨s', hs', hb⟩ := h
      obtain ⟨x, z, hx, hz, rfl⟩ := Scene.enterScene_eq_some hs'
      exact Or.inr ⟨s, x, z, rfl, hx, hz, hb⟩

/-- **`OnLeaveScene`** takes the id out of the cells the entity is at and sends
around that it left; without a scene it does nothing. -/
theorem onLeaveScene_cases (h : w.onLeaveScene a r = some w') :
    ∃ e, w.entity r = some e ∧
      ((e.locateScene = none ∧ w' = w) ∨
      ∃ sceneId s x z, e.locateScene = some sceneId ∧ w.scenes.find sceneId = some s ∧
        toInt32 e.position.getX = some x ∧ toInt32 e.position.getZ = some z ∧
        (w.setScene sceneId
          { s with
            xEntities := s.xEntities.eraseIn x e.id
            zEntities := s.zEntities.eraseIn z e.id }).sendNearbyMessage a r
              { type := MsgType.aoiLeave.number, sender := e.id } = some w') := by
  obtain ⟨e, he, hnone | ⟨sceneId, hl, h⟩⟩ := located_cases h
  · exact ⟨e, he, Or.inl hnone⟩
  · simp only [Option.bind_eq_bind, Option.bind_eq_some_iff] at h
    obtain ⟨s, hs, s', hs', hb⟩ := h
    obtain ⟨x, z, hx, hz, rfl⟩ := Scene.leaveScene_eq_some hs'
    exact ⟨e, he, Or.inr ⟨sceneId, s, x, z, hl, hs, hx, hz, hb⟩⟩

/-- **`StepMove`** writes the entity, takes its id out of the cells it is now at
and puts it back there, and broadcasts; without a scene it does nothing. -/
theorem stepMove_cases {position : Vector3} (h : w.stepMove pb a r position = some w') :
    ∃ e, w.entity r = some e ∧
      ((e.locateScene = none ∧ w' = w) ∨
      ∃ sceneId s x z, e.locateScene = some sceneId ∧ w.scenes.find sceneId = some s ∧
        toInt32 position.getX = some x ∧ toInt32 position.getZ = some z ∧
        ((w.setEntity r (e.updatePosition position)).setScene sceneId
          { s with
            xEntities := (s.xEntities.eraseIn x e.id).insertIn x e.id
            zEntities := (s.zEntities.eraseIn z e.id).insertIn z e.id }).broadCastCommonProp
              pb a r .aoiMove = some w') := by
  obtain ⟨e, he, hnone | ⟨sceneId, hl, h⟩⟩ := located_cases h
  · exact ⟨e, he, Or.inl hnone⟩
  · simp only [Option.bind_eq_bind, Option.bind_eq_some_iff, setEntity_scenes] at h
    obtain ⟨s, hs, s', hs', hb⟩ := h
    obtain ⟨x, z, hx, hz, rfl⟩ := Scene.updatePosition_self_eq_some hs'
    exact ⟨e, he, Or.inr ⟨sceneId, s, x, z, hl, hs, hx, hz, hb⟩⟩

/-- What entering a known scene does. -/
structure Entered (w : World) (r : Ref) (sceneId : ℤ) (e : Entity) (x z : ℤ) (w' : World) :
    Prop where
  cellX : toInt32 e.position.getX = some x
  cellZ : toInt32 e.position.getZ = some z
  writes : Writes w r ({ e with locateScene := some sceneId }.setSceneId sceneId) w'
  knows : ∀ i, w'.Knows i ↔ w.Knows i
  x : ∀ k id, id ∈ w'.xBucket sceneId k ↔ (k = x ∧ id = e.id) ∨ id ∈ w.xBucket sceneId k
  z : ∀ k id, id ∈ w'.zBucket sceneId k ↔ (k = z ∧ id = e.id) ∨ id ∈ w.zBucket sceneId k

theorem onEnterScene_entered (h : w.onEnterScene pb a r sceneId = some w')
    (he : w.entity r = some e) (hk : w.Knows sceneId) :
    ∃ x z, Entered w r sceneId e x z w' := by
  obtain ⟨e₀, he₀, ⟨hs, _⟩ | ⟨s, x, z, hs, hx, hz, hb⟩⟩ := onEnterScene_cases h
  · rw [Knows, hs] at hk
    cases hk
  obtain rfl : e = e₀ := Option.some.inj (he.symm.trans he₀)
  have hframe := broadCastCommonProp_frame hb
  have hw := writes_setEntity he (inScene e sceneId)
  have hknows : ∀ {i}, ((w.setEntity r (inScene e sceneId)).add r (inScene e sceneId)).Knows i ↔
      w.Knows i := by
    intro i
    rw [Knows, Knows, add, setEntity_scenes]
  refine ⟨x, z, hx, hz, hw.congr hframe.objects, fun i => ?_, fun k id => ?_, fun k id => ?_⟩
  · rw [hframe.knows, knows_setScene_of_knows (hknows.mpr hk), hknows]
  · rw [hframe.x, xBucket_setScene, if_pos rfl, xBucket_of_find hs]
    exact UnorderedMap.mem_insertIn
  · rw [hframe.z, zBucket_setScene, if_pos rfl, zBucket_of_find hs]
    exact UnorderedMap.mem_insertIn

/-- What leaving the scene it points to does for an entity. -/
structure Left (w : World) (sceneId : ℤ) (e : Entity) (x z : ℤ) (w' : World) : Prop where
  cellX : toInt32 e.position.getX = some x
  cellZ : toInt32 e.position.getZ = some z
  objects : w'.objects = w.objects
  knows : ∀ i, w'.Knows i ↔ w.Knows i
  x : ∀ k id, id ∈ w'.xBucket sceneId k ↔ ¬ (k = x ∧ id = e.id) ∧ id ∈ w.xBucket sceneId k
  z : ∀ k id, id ∈ w'.zBucket sceneId k ↔ ¬ (k = z ∧ id = e.id) ∧ id ∈ w.zBucket sceneId k

theorem onLeaveScene_left (h : w.onLeaveScene a r = some w') (he : w.entity r = some e)
    (hl : e.locateScene = some sceneId) : ∃ x z, Left w sceneId e x z w' := by
  obtain ⟨e₀, he₀, hcases⟩ := onLeaveScene_cases h
  obtain rfl : e = e₀ := Option.some.inj (he.symm.trans he₀)
  obtain ⟨hnone, _⟩ | ⟨i, s, x, z, hi, hs, hx, hz, hb⟩ := hcases
  · rw [hl] at hnone
    cases hnone
  obtain rfl : sceneId = i := Option.some.inj (hl.symm.trans hi)
  have hframe := sendNearbyMessage_frame hb
  refine ⟨x, z, hx, hz, hframe.objects, fun i => ?_, fun k id => ?_, fun k id => ?_⟩
  · rw [hframe.knows, knows_setScene_of_knows (knows_of_find hs)]
  · rw [hframe.x, xBucket_setScene, if_pos rfl, xBucket_of_find hs]
    exact UnorderedMap.mem_eraseIn
  · rw [hframe.z, zBucket_setScene, if_pos rfl, zBucket_of_find hs]
    exact UnorderedMap.mem_eraseIn

/-- What a move in the scene it points to does for an entity: the id is added at
the cells of the new position and removed nowhere. -/
structure Moved (w : World) (r : Ref) (sceneId : ℤ) (e : Entity) (position : Vector3) (x z : ℤ)
    (w' : World) : Prop where
  cellX : toInt32 position.getX = some x
  cellZ : toInt32 position.getZ = some z
  writes : Writes w r (e.updatePosition position) w'
  knows : ∀ i, w'.Knows i ↔ w.Knows i
  x : ∀ k id, id ∈ w'.xBucket sceneId k ↔ (k = x ∧ id = e.id) ∨ id ∈ w.xBucket sceneId k
  z : ∀ k id, id ∈ w'.zBucket sceneId k ↔ (k = z ∧ id = e.id) ∨ id ∈ w.zBucket sceneId k

theorem mem_erase_insert {m : Index} {k k' id id' : ℤ} :
    id' ∈ ((m.eraseIn k id).insertIn k id).bucket k' ↔ (k' = k ∧ id' = id) ∨ id' ∈ m.bucket k' := by
  rw [UnorderedMap.mem_insertIn, UnorderedMap.mem_eraseIn]
  tauto

theorem stepMove_moved {position : Vector3} (h : w.stepMove pb a r position = some w')
    (he : w.entity r = some e) (hl : e.locateScene = some sceneId) :
    ∃ x z, Moved w r sceneId e position x z w' := by
  obtain ⟨e₀, he₀, hcases⟩ := stepMove_cases h
  obtain rfl : e = e₀ := Option.some.inj (he.symm.trans he₀)
  obtain ⟨hnone, _⟩ | ⟨i, s, x, z, hi, hs, hx, hz, hb⟩ := hcases
  · rw [hl] at hnone
    cases hnone
  obtain rfl : sceneId = i := Option.some.inj (hl.symm.trans hi)
  have hframe := broadCastCommonProp_frame hb
  have hw := writes_setEntity he (e.updatePosition position)
  have hknows : ∀ {i}, (w.setEntity r (e.updatePosition position)).Knows i ↔ w.Knows i := by
    intro i
    rw [Knows, Knows, setEntity_scenes]
  refine ⟨x, z, hx, hz, hw.congr hframe.objects, fun i => ?_, fun k id => ?_, fun k id => ?_⟩
  · rw [hframe.knows, knows_setScene_of_knows (hknows.mpr (knows_of_find hs)), hknows]
  · rw [hframe.x, xBucket_setScene, if_pos rfl, xBucket_of_find hs]
    exact mem_erase_insert
  · rw [hframe.z, zBucket_setScene, if_pos rfl, zBucket_of_find hs]
    exact mem_erase_insert

/-! ### What the others notice -/

theorem onEnterScene_other (h : w.onEnterScene pb a r sceneId = some w') {r' : Ref}
    (hr : r' ≠ r) : w'.objects.find r' = w.objects.find r' := by
  obtain ⟨e, he, ⟨_, rfl⟩ | ⟨s, x, z, hs, _⟩⟩ := onEnterScene_cases h
  · exact (writes_setEntity he _).other r' hr
  · obtain ⟨x, z, hentered⟩ := onEnterScene_entered h he (knows_of_find hs)
    exact hentered.writes.other r' hr

theorem stepMove_other {position : Vector3} (h : w.stepMove pb a r position = some w') {r' : Ref}
    (hr : r' ≠ r) : w'.objects.find r' = w.objects.find r' := by
  obtain ⟨e, he, ⟨_, rfl⟩ | ⟨sceneId, s, x, z, hl, _⟩⟩ := stepMove_cases h
  · rfl
  · obtain ⟨x, z, hmoved⟩ := stepMove_moved h he hl
    exact hmoved.writes.other r' hr

/-! ### Listings -/

theorem listed_congr_scenes (h : w'.scenes = w.scenes) (i id : ℤ) :
    w'.Listed i id ↔ w.Listed i id := by
  simp only [Listed, xBucket_congr h, zBucket_congr h]

theorem listed_setScene_ne {i : ℤ} (hi : i ≠ sceneId) (id : ℤ) :
    (w.setScene sceneId s).Listed i id ↔ w.Listed i id := by
  simp only [Listed, xBucket_setScene, zBucket_setScene, if_neg hi]

theorem listed_of_added {i x z id' : ℤ}
    (hx : ∀ k id, id ∈ w'.xBucket i k ↔ (k = x ∧ id = id') ∨ id ∈ w.xBucket i k)
    (hz : ∀ k id, id ∈ w'.zBucket i k ↔ (k = z ∧ id = id') ∨ id ∈ w.zBucket i k) {id : ℤ} :
    w'.Listed i id ↔ id = id' ∨ w.Listed i id := by
  simp only [Listed, hx, hz]
  constructor
  · rintro ⟨k, (⟨_, hid⟩ | hid) | (⟨_, hid⟩ | hid)⟩
    · exact Or.inl hid
    · exact Or.inr ⟨k, Or.inl hid⟩
    · exact Or.inl hid
    · exact Or.inr ⟨k, Or.inr hid⟩
  · rintro (hid | ⟨k, hid | hid⟩)
    · exact ⟨x, Or.inl (Or.inl ⟨rfl, hid⟩)⟩
    · exact ⟨k, Or.inl (Or.inr hid)⟩
    · exact ⟨k, Or.inr (Or.inr hid)⟩

/-- An id that is added to one cell is listed there and nowhere else exactly if it was
listed in no other cell before. -/
theorem only_added_iff {b b' : ℤ → Finset ℤ} {k₀ id : ℤ}
    (h : ∀ k i, i ∈ b' k ↔ (k = k₀ ∧ i = id) ∨ i ∈ b k) :
    (∀ k, id ∈ b' k ↔ k = k₀) ↔ ∀ k, id ∈ b k → k = k₀ := by
  simp only [h, and_true]
  exact forall_congr' fun k => or_iff_left_iff_imp

/-- **Entering a known scene** lists the id there, and nothing else changes
anywhere. -/
theorem onEnterScene_listed (h : w.onEnterScene pb a r sceneId = some w')
    (he : w.entity r = some e) (hk : w.Knows sceneId) (i id : ℤ) :
    w'.Listed i id ↔ (i = sceneId ∧ id = e.id) ∨ w.Listed i id := by
  by_cases hi : i = sceneId
  · obtain ⟨x, z, hentered⟩ := onEnterScene_entered h he hk
    subst hi
    rw [listed_of_added hentered.x hentered.z]
    exact or_congr_left (and_iff_right rfl).symm
  · obtain ⟨e₀, _, ⟨hs, _⟩ | ⟨s, x, z, _, _, _, hb⟩⟩ := onEnterScene_cases h
    · rw [Knows, hs] at hk
      cases hk
    · have hscenes : ((w.setEntity r (inScene e₀ sceneId)).add r (inScene e₀ sceneId)).scenes =
          w.scenes := setEntity_scenes w r _
      rw [(broadCastCommonProp_frame hb).listed, listed_setScene_ne hi,
        listed_congr_scenes hscenes]
      exact ⟨Or.inr, fun hor => hor.resolve_left fun hand => hi hand.1⟩

theorem onEnterScene_unknown (h : w.onEnterScene pb a r sceneId = some w')
    (hk : ¬ w.Knows sceneId) : ∃ e, w.entity r = some e ∧
      w' = w.setEntity r { e with locateScene := none } := by
  obtain ⟨e, he, ⟨_, hw'⟩ | ⟨s, x, z, hs, _⟩⟩ := onEnterScene_cases h
  · exact ⟨e, he, hw'⟩
  · exact absurd (knows_of_find hs) hk

theorem onLeaveScene_listed_ne (h : w.onLeaveScene a r = some w') (he : w.entity r = some e)
    {i : ℤ} (hi : e.locateScene ≠ some i) (id : ℤ) : w'.Listed i id ↔ w.Listed i id := by
  obtain ⟨e₀, he₀, ⟨_, rfl⟩ | ⟨j, s, x, z, hl, _, _, _, hb⟩⟩ := onLeaveScene_cases h
  · exact Iff.rfl
  · obtain rfl : e = e₀ := Option.some.inj (he.symm.trans he₀)
    have hne : i ≠ j := by
      rintro rfl
      exact hi hl
    rw [(sendNearbyMessage_frame hb).listed, listed_setScene_ne hne]

theorem onLeaveScene_listed_of (h : w.onLeaveScene a r = some w') {i id : ℤ}
    (hid : w'.Listed i id) : w.Listed i id := by
  obtain ⟨e, he, ⟨_, rfl⟩ | ⟨j, s, x, z, hl, _⟩⟩ := onLeaveScene_cases h
  · exact hid
  · by_cases hi : i = j
    · obtain ⟨x, z, hleft⟩ := onLeaveScene_left h he hl
      subst hi
      simp only [Listed, hleft.x, hleft.z] at hid
      obtain ⟨k, ⟨_, hid⟩ | ⟨_, hid⟩⟩ := hid
      · exact ⟨k, Or.inl hid⟩
      · exact ⟨k, Or.inr hid⟩
    · refine (onLeaveScene_listed_ne h he ?_ id).mp hid
      rw [hl, ne_eq, Option.some.injEq]
      exact fun hj => hi hj.symm

/-- **Moving** lists the id at the new cells, and nothing else changes anywhere. -/
theorem stepMove_listed {position : Vector3} (h : w.stepMove pb a r position = some w')
    (he : w.entity r = some e) (hl : e.locateScene = some sceneId) (i id : ℤ) :
    w'.Listed i id ↔ (i = sceneId ∧ id = e.id) ∨ w.Listed i id := by
  by_cases hi : i = sceneId
  · obtain ⟨x, z, hmoved⟩ := stepMove_moved h he hl
    subst hi
    rw [listed_of_added hmoved.x hmoved.z]
    exact or_congr_left (and_iff_right rfl).symm
  · obtain ⟨e₀, he₀, ⟨hnone, _⟩ | ⟨j, s, x, z, hj, _, _, _, hb⟩⟩ := stepMove_cases h
    · obtain rfl : e = e₀ := Option.some.inj (he.symm.trans he₀)
      rw [hl] at hnone
      cases hnone
    · obtain rfl : e = e₀ := Option.some.inj (he.symm.trans he₀)
      obtain rfl : sceneId = j := Option.some.inj (hl.symm.trans hj)
      rw [(broadCastCommonProp_frame hb).listed, listed_setScene_ne hi,
        listed_congr_scenes (setEntity_scenes w r _)]
      exact ⟨Or.inr, fun hor => hor.resolve_left fun hand => hi hand.1⟩

theorem onLeaveScene_objects (h : w.onLeaveScene a r = some w') : w'.objects = w.objects := by
  obtain ⟨e, he, ⟨_, rfl⟩ | ⟨j, s, x, z, hl, _, _, _, hb⟩⟩ := onLeaveScene_cases h
  · rfl
  · exact (sendNearbyMessage_frame hb).objects

/-! ### Ids and the registry -/

def idOf (w : World) (r : Ref) : Option ℤ := (w.entity r).map (·.id)

theorem idOf_of_entity (h : w.entity r = some e) : w.idOf r = some e.id := by rw [idOf, h]; rfl

theorem Frame.idOf (h : Frame w w') (r : Ref) : w'.idOf r = w.idOf r := by
  rw [World.idOf, World.idOf, h.entity]

theorem Writes.idOf {e₀ : Entity} (h : Writes w r e w') (he : w.entity r = some e₀)
    (hid : e.id = e₀.id) (r' : Ref) : w'.idOf r' = w.idOf r' := by
  by_cases hr : r' = r
  · rw [hr, idOf_of_entity h.self, idOf_of_entity he, hid]
  · rw [World.idOf, World.idOf, h.entity_other hr]

theorem onEnterScene_idOf (h : w.onEnterScene pb a r sceneId = some w') (r' : Ref) :
    w'.idOf r' = w.idOf r' := by
  obtain ⟨e, he, ⟨_, rfl⟩ | ⟨s, x, z, hs, _⟩⟩ := onEnterScene_cases h
  · exact (writes_setEntity he { e with locateScene := none }).idOf he rfl r'
  · obtain ⟨x, z, hentered⟩ := onEnterScene_entered h he (knows_of_find hs)
    exact hentered.writes.idOf he rfl r'

theorem stepMove_idOf {position : Vector3} (h : w.stepMove pb a r position = some w') (r' : Ref) :
    w'.idOf r' = w.idOf r' := by
  obtain ⟨e, he, ⟨_, rfl⟩ | ⟨sceneId, s, x, z, hl, _⟩⟩ := stepMove_cases h
  · rfl
  · obtain ⟨x, z, hmoved⟩ := stepMove_moved h he hl
    exact hmoved.writes.idOf he rfl r'

/-- Entering a known scene registers the entity if its id is free, and nothing
else changes the registry. -/
theorem onEnterScene_entities (h : w.onEnterScene pb a r sceneId = some w') :
    (¬ w.Knows sceneId ∧ w'.entities = w.entities) ∨
      (w.Knows sceneId ∧ ∃ e, w.entity r = some e ∧ w'.entities = w.entities.emplace e.id r) := by
  obtain ⟨e, he, ⟨hs, rfl⟩ | ⟨s, x, z, hs, _, _, hb⟩⟩ := onEnterScene_cases h
  · exact Or.inl ⟨by rw [Knows, hs]; simp, setEntity_entities w r _⟩
  · refine Or.inr ⟨knows_of_find hs, e, he, ?_⟩
    rw [(broadCastCommonProp_frame hb).entities]
    show (w.setEntity r _).entities.emplace _ r = _
    rw [setEntity_entities]
    rfl

end World

end GameService
