import GameService.World.Index
import GameService.World.NearBy
import GameService.World.Surroundings

/-!
# Sight

Who is told that an entity enters a scene or moves in it.  A player is to be told
once, if it is another one, in the window around the entity and, when the entity
enters, has it within its sight (`Due`).

The index, the call that finds the ids near by and the delivery of the messages
have modules of their own; here the index is right (`IndexedAround`, which the
events keep), the call finds what it should (`FindsNearBy`), and every message is handed
to its receiver once.  `told_eq` then says how often a player is told: as often
as its `HandleMessage` sends something, if it is in the window, and never
otherwise.

The window around an entity includes the entity, which is not left out by anyone,
and `IsInSight` compares the wrong way round.  On entering the two cancel for the
entity itself, whose distance is not larger than its sight, and for everybody
else in the window the outcome is the opposite of what it should be; on moving
the entity tells itself.  `told_iff` is the exact condition.
-/

namespace GameService.World

open Lib Asset

variable {pb : Protobuf}

/-! ### Windows and sight -/

/-- An entity is at most `MAX_SIGHT_DISTANCE` cells from another on both axes. -/
def InWindowOf (e e' : Entity) : Prop :=
  ∃ x z x' z', toInt32 e.position.getX = some x ∧ toInt32 e.position.getZ = some z ∧
    toInt32 e'.position.getX = some x' ∧ toInt32 e'.position.getZ = some z' ∧
    |x' - x| ≤ maxSightDistance ∧ |z' - z| ≤ maxSightDistance

def WithinSight (e : Entity) (pos : Vector3) : Prop :=
  |pos.getX - e.position.getX| ≤ e.getSightDistance ∧
    |pos.getZ - e.position.getZ| ≤ e.getSightDistance

/-- The player at `p`, if it is in the scene, is to be told of the event of the
entity at `r`. -/
def Due (present : Finset Ref) (r p : Ref) (e : Entity) (player : Player) (event : Appearance) :
    Prop :=
  p ≠ r ∧ (p ∈ present ∧ InWindowOf e player.toEntity) ∧
    ∀ sceneId, event = .enter sceneId → WithinSight player.toEntity e.position

/-- How often the player at `p` tells its client of something, when every message
is discharged once. -/
def told (pb : Protobuf) (w : World) (items : List MsgItem) (p : Ref) : ℕ :=
  ((w.dischargeAll pb items).filter fun q => q.1 = p).length

def Appearance.type : Appearance → MsgType
  | .enter _ => .aoiEnter
  | .move _ => .aoiMove
  | .leave => .aoiLeave

theorem isInSight_iff (e : Entity) (pos : Vector3) :
    e.isInSight pos = true ↔ ¬ WithinSight e pos := Entity.isInSightFor_iff

theorem withinSight_self (e : Entity) : WithinSight e e.position := by
  rw [WithinSight, sub_self, sub_self, abs_zero]
  exact ⟨le_refl 0, le_refl 0⟩

theorem inWindowOf_self {e : Entity} {x z : ℤ} (hx : toInt32 e.position.getX = some x)
    (hz : toInt32 e.position.getZ = some z) : InWindowOf e e := by
  refine ⟨x, z, x, z, hx, hz, hx, hz, ?_, ?_⟩
  · rw [sub_self, abs_zero]; decide
  · rw [sub_self, abs_zero]; decide

theorem handleMessage_enter_length {player : Player} {item : MsgItem} {commonProp : CommonProp}
    (ht : item.type = MsgType.aoiEnter.number)
    (h : pb.commonProp.parse item.content = (true, commonProp)) :
    (player.handleMessage pb item).2.length =
      if player.isInSight commonProp.getPosition = true then 1 else 0 := by
  rw [Player.handleMessage, h]
  simp only [ht]
  cases player.isInSight commonProp.getPosition <;> rfl

theorem handleMessage_move_length {player : Player} {item : MsgItem} {commonProp : CommonProp}
    (ht : item.type = MsgType.aoiMove.number)
    (h : pb.commonProp.parse item.content = (true, commonProp)) :
    (player.handleMessage pb item).2.length = 1 := by
  simp [Player.handleMessage, h, ht, MsgType.number]

/-! ### The index -/

/-- Everybody in the scene is registered, and the index has everybody but the
entity at `r` in the cells they are at, and nobody else. -/
structure IndexedAround (sceneId : ℤ) (c : Census) (r : Ref) : Prop where
  registered : ∀ r' ∈ c.present, ∃ e', c.world.entity r' = some e' ∧
    c.world.getEntity e'.id = some r'
  x : ∀ k id, c.world.idOf r ≠ some id → (id ∈ c.world.xBucket sceneId k ↔
    ∃ r' ∈ c.present, ∃ e', c.world.entity r' = some e' ∧ e'.id = id ∧
      toInt32 e'.position.getX = some k)
  z : ∀ k id, c.world.idOf r ≠ some id → (id ∈ c.world.zBucket sceneId k ↔
    ∃ r' ∈ c.present, ∃ e', c.world.entity r' = some e' ∧ e'.id = id ∧
      toInt32 e'.position.getZ = some k)

/-- `GetNearByEntities`, called at a position, returns the ids in the window. -/
def FindsNearBy (w : World) (a : Ambient) (sceneId : ℤ) (position : Vector3) : Prop :=
  ∀ s count ids s', w.scenes.find sceneId = some s →
    s.getNearByEntities a.orders position [] = some (count, ids, s') →
    ∃ x z, toInt32 position.getX = some x ∧ toInt32 position.getZ = some z ∧
      s.NearBy x z count ids s'

/-- The entity has just entered a scene or moved in it, and is listed in the cells
it is at. -/
structure Appeared (w : World) (r : Ref) (sceneId : ℤ) (e : Entity) (x z : ℤ) (w' : World) :
    Prop where
  cellX : toInt32 e.position.getX = some x
  cellZ : toInt32 e.position.getZ = some z
  locate : e.locateScene = some sceneId
  idOf : ∀ r', w'.idOf r' = w.idOf r'
  keeps : ∀ id r', w.getEntity id = some r' → w'.getEntity id = some r'
  writes : Writes w r e w'
  x : ∀ k id, id ∈ w'.xBucket sceneId k ↔ (k = x ∧ id = e.id) ∨ id ∈ w.xBucket sceneId k
  z : ∀ k id, id ∈ w'.zBucket sceneId k ↔ (k = z ∧ id = e.id) ∨ id ∈ w.zBucket sceneId k

variable {a : Ambient} {w w' : World} {r p : Ref} {e : Entity} {sceneId : ℤ} {event : Appearance}
  {player : Player} {items : List MsgItem} {ids : List ℤ}

/-- **Entering and moving alike** list the entity and then broadcast. -/
theorem appear_appeared (h : appear pb a w r event = some w') (hev : event ≠ .leave)
    (he : w'.entity r = some e) (hl : e.locateScene = some sceneId) :
    (∃ x z, Appeared w r sceneId e x z w') ∧
      ∃ u : World, u.entity r = some e ∧ u.messages = w.messages ∧
        u.broadCastCommonProp pb a r event.type = some w' := by
  cases event with
  | leave => exact absurd rfl hev
  | enter scene =>
    obtain ⟨e₀, he₀, ⟨_, rfl⟩ | ⟨s, x, z, hs, _, _, hb⟩⟩ := onEnterScene_cases h
    · rw [(writes_setEntity he₀ _).self, Option.some.injEq] at he
      subst he
      cases hl
    · obtain ⟨x, z, hentered⟩ := onEnterScene_entered h he₀ (knows_of_find hs)
      obtain rfl : inScene e₀ scene = e := Option.some.inj (hentered.writes.self.symm.trans he)
      obtain rfl : scene = sceneId := Option.some.inj hl
      refine ⟨⟨x, z, hentered.cellX, hentered.cellZ, rfl, onEnterScene_idOf h, ?_,
        hentered.writes, hentered.x, hentered.z⟩, _, ?_, ?_, hb⟩
      · intro id r' hget
        rcases onEnterScene_entities h with ⟨_, hentities⟩ | ⟨_, e', _, hentities⟩
        · rw [getEntity, hentities]
          exact hget
        · rw [getEntity, hentities]
          exact UnorderedMap.find_emplace_of_some hget
      · exact (writes_setEntity he₀ (inScene e₀ scene)).self
      · exact messages_setEntity w r (inScene e₀ scene)
  | move position =>
    obtain ⟨e₀, he₀, ⟨hnone, rfl⟩ | ⟨i, s, x, z, hi, _, _, _, hb⟩⟩ := stepMove_cases h
    · obtain rfl : e₀ = e := Option.some.inj (he₀.symm.trans he)
      rw [hnone] at hl
      cases hl
    · obtain ⟨x, z, hmoved⟩ := stepMove_moved h he₀ hi
      obtain rfl : e₀.updatePosition position = e :=
        Option.some.inj (hmoved.writes.self.symm.trans he)
      obtain rfl : i = sceneId := Option.some.inj (hi.symm.trans hl)
      refine ⟨⟨x, z, hmoved.cellX, hmoved.cellZ, hi, stepMove_idOf h, ?_, hmoved.writes,
        hmoved.x, hmoved.z⟩, _, ?_, ?_, hb⟩
      · intro id r' hget
        rw [getEntity, (broadCastCommonProp_frame hb).entities]
        show (w.setEntity r _).entities.find id = some r'
        rw [setEntity_entities]
        exact hget
      · exact (writes_setEntity he₀ (e₀.updatePosition position)).self
      · exact messages_setEntity w r (e₀.updatePosition position)

section

variable {c : Census} {r' : Ref} {e' : Entity}

theorem IndexedAround.getEntity (hc : IndexedAround sceneId c r) (hr' : r' ∈ c.present)
    (he' : c.world.entity r' = some e') : c.world.getEntity e'.id = some r' := by
  obtain ⟨e₀, he₀, hget⟩ := hc.registered r' hr'
  obtain rfl : e' = e₀ := Option.some.inj (he'.symm.trans he₀)
  exact hget

theorem IndexedAround.eq_of_id (hc : IndexedAround sceneId c r) (hr' : r' ∈ c.present)
    (he' : c.world.entity r' = some e') (hget : c.world.getEntity e'.id = some p) : r' = p :=
  Option.some.inj ((hc.getEntity hr' he').symm.trans hget)

theorem IndexedAround.idOf_ne (hc : IndexedAround sceneId c r) (hr : r ∈ c.present) {id : ℤ}
    (hget : c.world.getEntity id = some p) (hpr : p ≠ r) : c.world.idOf r ≠ some id := by
  intro hid
  obtain ⟨e', he', rfl⟩ := Option.map_eq_some_iff.mp hid
  exact hpr (hc.eq_of_id hr he' hget).symm

end

theorem Indexed.around {c : Census} (h : Indexed sceneId c) (hp : Peopled sceneId c)
    (hreg : ∀ r' ∈ c.present, ∀ e', c.world.entity r' = some e' →
      c.world.getEntity e'.id = some r') (r : Ref) : IndexedAround sceneId c r := by
  have hwho : ∀ k id, (id ∈ c.world.xBucket sceneId k ∨ id ∈ c.world.zBucket sceneId k) →
      ∃ r' ∈ c.present, ∃ e', c.world.entity r' = some e' ∧ e'.id = id := by
    intro k id hid
    by_contra hno
    have hnot := h.absent id (fun r' hr' e' he' hid' => hno ⟨r', hr', e', he', hid'⟩) k
    exact hid.elim hnot.1 hnot.2
  refine ⟨fun r' hr' => ?_, fun k id _ => ⟨fun hid => ?_, ?_⟩, fun k id _ => ⟨fun hid => ?_, ?_⟩⟩
  · obtain ⟨e', he', _⟩ := hp.inside r' hr'
    exact ⟨e', he', hreg r' hr' e' he'⟩
  · obtain ⟨r', hr', e', he', rfl⟩ := hwho k id (Or.inl hid)
    obtain ⟨x, z, hx, _, hbx, _⟩ := h.present r' hr' e' he'
    exact ⟨r', hr', e', he', rfl, (hbx k).mp hid ▸ hx⟩
  · rintro ⟨r', hr', e', he', rfl, hcell⟩
    obtain ⟨x, z, hx, _, hbx, _⟩ := h.present r' hr' e' he'
    exact (hbx k).mpr (Option.some.inj (hcell.symm.trans hx))
  · obtain ⟨r', hr', e', he', rfl⟩ := hwho k id (Or.inr hid)
    obtain ⟨x, z, _, hz, _, hbz⟩ := h.present r' hr' e' he'
    exact ⟨r', hr', e', he', rfl, (hbz k).mp hid ▸ hz⟩
  · rintro ⟨r', hr', e', he', rfl, hcell⟩
    obtain ⟨x, z, _, hz, _, hbz⟩ := h.present r' hr' e' he'
    exact (hbz k).mpr (Option.some.inj (hcell.symm.trans hz))

/-- Entering and moving keep the index right for everybody else. -/
theorem IndexedAround.appeared {present : Finset Ref} {x z : ℤ}
    (hc : IndexedAround sceneId ⟨w, present⟩ r) (h : Appeared w r sceneId e x z w')
    (hself : w'.getEntity e.id = some r) : IndexedAround sceneId ⟨w', insert r present⟩ r := by
  have hid : w'.idOf r = some e.id := idOf_of_entity h.writes.self
  -- the entities with another id are the same as before
  have hothers : ∀ id, w'.idOf r ≠ some id → ∀ P : Entity → Prop,
      (∃ r' ∈ present, ∃ e', w.entity r' = some e' ∧ e'.id = id ∧ P e') ↔
        ∃ r' ∈ insert r present, ∃ e', w'.entity r' = some e' ∧ e'.id = id ∧ P e' := by
    intro id hne P
    constructor
    · rintro ⟨r', hr', e', he', hid', hP⟩
      have hr : r' ≠ r := by
        rintro rfl
        rw [h.idOf, idOf_of_entity he', hid'] at hne
        exact hne rfl
      exact ⟨r', Finset.mem_insert_of_mem hr', e', (h.writes.entity_other hr).trans he', hid', hP⟩
    · rintro ⟨r', hr', e', he', hid', hP⟩
      have hr : r' ≠ r := by
        rintro rfl
        rw [idOf_of_entity he', hid'] at hne
        exact hne rfl
      exact ⟨r', Finset.mem_of_mem_insert_of_ne hr' hr, e',
        (h.writes.entity_other hr).symm.trans he', hid', hP⟩
  have hskip : ∀ {id k k' : ℤ} {A : Prop}, w'.idOf r ≠ some id →
      ((k = k' ∧ id = e.id) ∨ A ↔ A) := by
    intro id k k' A hne
    refine or_iff_right fun hand => hne ?_
    rw [hid, hand.2]
  refine ⟨fun r' hr' => ?_, fun k id hne => ?_, fun k id hne => ?_⟩
  · by_cases hr : r' = r
    · subst hr
      exact ⟨e, h.writes.self, hself⟩
    · obtain ⟨e', he', hget⟩ := hc.registered r' (Finset.mem_of_mem_insert_of_ne hr' hr)
      exact ⟨e', (h.writes.entity_other hr).trans he', h.keeps _ _ hget⟩
  · rw [h.x, hskip hne, hc.x k id (by rw [← h.idOf]; exact hne), hothers id hne]
  · rw [h.z, hskip hne, hc.z k id (by rw [← h.idOf]; exact hne), hothers id hne]

/-! ### How often a player is told -/

/-- A list without repetition of which one element gives something. -/
theorem flatMap_of_nodup {α β : Type*} [DecidableEq α] {f : α → List β} {b : α} :
    ∀ {l : List α}, l.Nodup → (∀ x ∈ l, x ≠ b → f x = []) →
      l.flatMap f = if b ∈ l then f b else [] := by
  intro l
  induction l with
  | nil => intro _ _; rfl
  | cons x l ih =>
    intro hl ho
    obtain ⟨hx, hl⟩ := List.nodup_cons.mp hl
    rw [List.flatMap_cons, ih hl fun y hy => ho y (List.mem_cons_of_mem x hy)]
    by_cases hb : x = b
    · subst hb
      rw [if_neg hx, if_pos List.mem_cons_self, List.append_nil]
    · rw [ho x List.mem_cons_self hb, List.nil_append]
      refine if_congr ?_ rfl rfl
      rw [List.mem_cons]
      exact (or_iff_right fun heq => hb heq.symm).symm

theorem discharge_filter {item : MsgItem} (hp : w.objects.find p = some (.player player)) :
    ((w.discharge pb item).2.filter fun q => q.1 = p) =
      if w.getEntity item.receiver = some p then
        (player.handleMessage pb item).2.map fun m => (p, m)
      else [] := by
  rw [discharge, receiver]
  cases hget : w.getEntity item.receiver with
  | none => rfl
  | some r' =>
    by_cases hr : r' = p
    · subst hr
      rw [Option.bind_some, hp, if_pos rfl]
      exact List.filter_eq_self.mpr fun q hq => by
        obtain ⟨m, _, rfl⟩ := List.mem_map.mp hq
        exact decide_eq_true rfl
    · rw [Option.bind_some, if_neg fun heq => hr (Option.some.inj heq)]
      cases w.objects.find r' with
      | none => rfl
      | some o =>
        refine List.filter_eq_nil_iff.mpr fun q hq => ?_
        obtain ⟨m, _, rfl⟩ := List.mem_map.mp hq
        rw [decide_eq_true_eq]
        exact hr

theorem told_map {message : ℤ → MsgItem} (hm : ∀ id, (message id).receiver = id)
    (hp : w.objects.find p = some (.player player)) (hnodup : ids.Nodup)
    (hids : ∀ id ∈ ids, ∃ r', w.getEntity id = some r' ∧ w.idOf r' = some id) :
    told pb w (ids.map message) p = if player.id ∈ ids ∧ w.getEntity player.id = some p then
      (player.handleMessage pb (message player.id)).2.length else 0 := by
  have hother : ∀ id ∈ ids, id ≠ player.id →
      ((w.discharge pb (message id)).2.filter fun q => q.1 = p) = [] := by
    intro id hid hne
    obtain ⟨r', hget, hid'⟩ := hids id hid
    rw [discharge_filter hp, hm, if_neg]
    intro heq
    obtain rfl : r' = p := Option.some.inj (hget.symm.trans heq)
    rw [idOf, World.entity, hp] at hid'
    exact hne (Option.some.inj hid').symm
  rw [told, dischargeAll, List.flatMap_map, List.filter_flatMap, flatMap_of_nodup hnodup hother,
    discharge_filter hp, hm]
  by_cases hin : player.id ∈ ids
  · rw [if_pos hin]
    by_cases hget : w.getEntity player.id = some p
    · rw [if_pos hget, if_pos ⟨hin, hget⟩, List.length_map]
    · rw [if_neg hget, if_neg fun hand => hget hand.2]
      rfl
  · rw [if_neg hin, if_neg fun hand => hin hand.1]
    rfl

theorem hearers_eq (hids : ∀ id ∈ ids, ∃ r', w.getEntity id = some r' ∧ w.idOf r' = some id) :
    w.hearers ids = ids := by
  rw [hearers]
  conv_rhs => rw [← List.filterMap_some (l := ids)]
  refine List.filterMap_congr fun id hid => ?_
  obtain ⟨r', hget, hid'⟩ := hids id hid
  rw [getEntity] at hget
  rw [hget, Option.bind_some]
  exact hid'

/-- The entity at `r` is in the scene with `present`, the index is right, and the
call finds what it should. -/
structure Setting (sceneId : ℤ) (c : Census) (r : Ref) (e : Entity) (a : Ambient) : Prop where
  inside : r ∈ c.present
  entity : c.world.entity r = some e
  locate : e.locateScene = some sceneId
  indexed : IndexedAround sceneId c r
  finds : FindsNearBy c.world a sceneId e.position

section

variable {present : Finset Ref} {x z : ℤ}

theorem Appeared.inWindows (h : Appeared w r sceneId e x z w') {s : Scene}
    (hs : w'.scenes.find sceneId = some s) : s.InWindows x z e.id := by
  refine ⟨⟨x, ?_, ?_, ?_⟩, z, ?_, ?_, ?_⟩
  · exact sub_le_self x (by decide)
  · exact le_add_of_nonneg_right (by decide)
  · rw [← xBucket_of_find hs, h.x]
    exact Or.inl ⟨rfl, rfl⟩
  · exact sub_le_self z (by decide)
  · exact le_add_of_nonneg_right (by decide)
  · rw [← zBucket_of_find hs, h.z]
    exact Or.inl ⟨rfl, rfl⟩

/-- Of another entity whose id leads to it, the index tells where it is. -/
theorem Setting.inWindows_iff (hc : Setting sceneId ⟨w', present⟩ r e a)
    (h : Appeared w r sceneId e x z w') {f : Entity} (hf : w'.entity p = some f) (hpr : p ≠ r)
    {s : Scene} (hs : w'.scenes.find sceneId = some s) (hget : w'.getEntity f.id = some p) :
    s.InWindows x z f.id ↔ p ∈ present ∧ InWindowOf e f := by
  have hne := hc.indexed.idOf_ne hc.inside hget hpr
  constructor
  · rintro ⟨⟨k, hk₁, hk₂, hkx⟩, l, hl₁, hl₂, hlz⟩
    rw [← xBucket_of_find hs, hc.indexed.x k _ hne] at hkx
    rw [← zBucket_of_find hs, hc.indexed.z l _ hne] at hlz
    -- both axes list the id for the entity to whom it leads
    obtain ⟨r₁, hr₁, e₁, he₁, hid₁, hcell₁⟩ := hkx
    obtain ⟨r₂, hr₂, e₂, he₂, hid₂, hcell₂⟩ := hlz
    obtain rfl : r₁ = p := hc.indexed.eq_of_id hr₁ he₁ (hid₁ ▸ hget)
    obtain rfl : r₂ = r₁ := hc.indexed.eq_of_id hr₂ he₂ (hid₂ ▸ hget)
    obtain rfl : f = e₁ := Option.some.inj (hf.symm.trans he₁)
    obtain rfl : f = e₂ := Option.some.inj (hf.symm.trans he₂)
    refine ⟨hr₁, x, z, k, l, h.cellX, h.cellZ, hcell₁, hcell₂, ?_, ?_⟩
    · exact abs_le.mpr ⟨by omega, by omega⟩
    · exact abs_le.mpr ⟨by omega, by omega⟩
  · rintro ⟨hin, x₁, z₁, k, l, hx₁, hz₁, hk, hl, hdx, hdz⟩
    obtain rfl : x = x₁ := Option.some.inj (h.cellX.symm.trans hx₁)
    obtain rfl : z = z₁ := Option.some.inj (h.cellZ.symm.trans hz₁)
    obtain ⟨hdx₁, hdx₂⟩ := abs_le.mp hdx
    obtain ⟨hdz₁, hdz₂⟩ := abs_le.mp hdz
    refine ⟨⟨k, by omega, by omega, ?_⟩, l, by omega, by omega, ?_⟩
    · rw [← xBucket_of_find hs, hc.indexed.x k _ hne]
      exact ⟨p, hin, f, hf, rfl, hk⟩
    · rw [← zBucket_of_find hs, hc.indexed.z l _ hne]
      exact ⟨p, hin, f, hf, rfl, hl⟩

/-- The ids in the window are those of the entities in the window. -/
theorem Setting.mem_iff (hc : Setting sceneId ⟨w', present⟩ r e a)
    (h : Appeared w r sceneId e x z w') (hp : w'.objects.find p = some (.player player))
    {s s' : Scene} {count : ℤ} (hs : w'.scenes.find sceneId = some s)
    (hnear : s.NearBy x z count ids s') :
    player.id ∈ ids ∧ w'.getEntity player.id = some p ↔
      p ∈ present ∧ InWindowOf e player.toEntity := by
  have hplayer : w'.entity p = some player.toEntity := by rw [World.entity, hp]; rfl
  rw [hnear.mem]
  by_cases hpr : p = r
  · subst hpr
    obtain rfl : player.toEntity = e := Option.some.inj (hplayer.symm.trans hc.entity)
    exact iff_of_true ⟨h.inWindows hs, hc.indexed.getEntity hc.inside hc.entity⟩
      ⟨hc.inside, inWindowOf_self h.cellX h.cellZ⟩
  · constructor
    · rintro ⟨hwindow, hget⟩
      exact (hc.inWindows_iff h hplayer hpr hs hget).mp hwindow
    · intro hin
      have hget : w'.getEntity player.id = some p := hc.indexed.getEntity hin.1 hplayer
      exact ⟨(hc.inWindows_iff h hplayer hpr hs hget).mpr hin, hget⟩

theorem Setting.registered_of_mem (hc : Setting sceneId ⟨w', present⟩ r e a) {s s' : Scene}
    {count : ℤ} (hs : w'.scenes.find sceneId = some s) (hnear : s.NearBy x z count ids s') :
    ∀ id ∈ ids, ∃ r', w'.getEntity id = some r' ∧ w'.idOf r' = some id := by
  intro id hid
  have hidE : w'.idOf r = some e.id := idOf_of_entity hc.entity
  obtain ⟨⟨k, _, _, hkx⟩, _⟩ := (hnear.mem id).mp hid
  by_cases hne : w'.idOf r = some id
  · obtain rfl : e.id = id := Option.some.inj (hidE.symm.trans hne)
    exact ⟨r, hc.indexed.getEntity hc.inside hc.entity, hidE⟩
  · rw [← xBucket_of_find hs, hc.indexed.x k id hne] at hkx
    obtain ⟨r', hr', e', he', rfl, _⟩ := hkx
    exact ⟨r', hc.indexed.getEntity hr' he', idOf_of_entity he'⟩

/-- **Whom an event reaches**: each player in the window handles one message of
it, and nobody else handles any. -/
theorem told_eq (h : appear pb a w r event = some w') (hev : event ≠ .leave)
    (hc : Setting sceneId ⟨w', present⟩ r e a) (hp : w'.objects.find p = some (.player player)) :
    ((p ∈ present ∧ InWindowOf e player.toEntity) →
      told pb w' (sentSince w w') p = (player.handleMessage pb
        { type := event.type.number, sender := e.id, receiver := player.id,
          content := pb.commonProp.serialize e.superCommonProp }).2.length) ∧
    (¬ (p ∈ present ∧ InWindowOf e player.toEntity) → told pb w' (sentSince w w') p = 0) := by
  obtain ⟨⟨x, z, happ⟩, u, hu, hum, hb⟩ := appear_appeared h hev hc.entity hc.locate
  have hframe := broadCastCommonProp_frame hb
  rw [broadCastCommonProp, hu] at hb
  obtain ⟨e₀, he₀, ⟨hnone, _⟩ | ⟨i, t, count, ids, t', hi, ht, hcall, hm⟩⟩ :=
    sendNearbyMessage_cases hb
  · obtain rfl : e = e₀ := Option.some.inj (hu.symm.trans he₀)
    rw [hc.locate] at hnone
    cases hnone
  · obtain rfl : e = e₀ := Option.some.inj (hu.symm.trans he₀)
    obtain rfl : sceneId = i := Option.some.inj (hc.locate.symm.trans hi)
    -- the broadcast leaves the scene with the cells in which it looked
    obtain ⟨s, hs⟩ := Option.isSome_iff_exists.mp ((hframe.knows sceneId).mpr (knows_of_find ht))
    have hsx : ∀ k, s.xEntities.bucket k = t.xEntities.bucket k := fun k => by
      rw [← xBucket_of_find hs, ← xBucket_of_find ht, hframe.x]
    have hsz : ∀ k, s.zEntities.bucket k = t.zEntities.bucket k := fun k => by
      rw [← zBucket_of_find hs, ← zBucket_of_find ht, hframe.z]
    obtain ⟨s', hcall'⟩ := Scene.getNearByEntities_congr hsx hsz hcall
    obtain ⟨x', z', hx', hz', hnear⟩ := hc.finds s count ids s' hs hcall'
    obtain rfl : x = x' := Option.some.inj (happ.cellX.symm.trans hx')
    obtain rfl : z = z' := Option.some.inj (happ.cellZ.symm.trans hz')
    have hids := hc.registered_of_mem hs hnear
    have hsent : sentSince w w' = ids.map fun receiver =>
        { type := event.type.number, sender := e.id, receiver := receiver,
          content := pb.commonProp.serialize e.superCommonProp } := by
      rw [hum] at hm
      refine sentSince_eq ?_
      rw [hm]
      congr 1
      by_cases hcount : count = 0
      · have hnil : ids = [] := List.eq_nil_of_length_eq_zero (by have := hnear.count; omega)
        rw [if_pos hcount, hnil]
        rfl
      · rw [if_neg hcount, ← hframe.hearers, hearers_eq hids]
    have hmem := hc.mem_iff happ hp hs hnear
    rw [hsent, told_map (fun _ => rfl) hp hnear.nodup hids]
    constructor
    · intro hin
      exact if_pos (hmem.mpr hin)
    · intro hout
      exact if_neg fun hand => hout (hmem.mp hand)

/-- The player has nothing to do with the entering, or enters itself; or another
one moves. -/
def TellsRight (present : Finset Ref) (r p : Ref) (e : Entity) (player : Player) :
    Appearance → Prop
  | .enter _ => p = r ∨ ¬ (p ∈ present ∧ InWindowOf e player.toEntity)
  | .move _ | .leave => p ≠ r

/-- **When the right players are told.**  A player is told of an event exactly
once if and only if it is due, exactly if the event is an entering and the player
is the entity itself or not in the window, or the event is a move and the player
is another one. -/
theorem told_iff (h : appear pb a w r event = some w') (hev : event ≠ .leave)
    (hc : Setting sceneId ⟨w', present⟩ r e a)
    (hparse : pb.commonProp.parse (pb.commonProp.serialize e.superCommonProp) =
      (true, e.superCommonProp)) (hp : w'.objects.find p = some (.player player)) :
    (told pb w' (sentSince w w') p = 1 ↔ Due present r p e player event) ↔
      TellsRight present r p e player event := by
  obtain ⟨⟨x, z, happ⟩, _⟩ := appear_appeared h hev hc.entity hc.locate
  have hself : p = r → player.toEntity = e := by
    rintro rfl
    have hplayer : w'.entity p = some player.toEntity := by rw [World.entity, hp]; rfl
    exact Option.some.inj (hplayer.symm.trans hc.entity)
  obtain ⟨hnear, hfar⟩ := told_eq h hev hc hp
  cases event with
  | leave => exact absurd rfl hev
  | enter scene =>
    by_cases hn : p ∈ present ∧ InWindowOf e player.toEntity
    · rw [hnear hn, handleMessage_enter_length rfl hparse]
      have hsight : (if player.isInSight e.superCommonProp.getPosition = true then 1 else 0) = 1 ↔
          ¬ WithinSight player.toEntity e.position := by
        rw [← isInSight_iff]
        split
        · rename_i hin
          exact iff_of_true rfl hin
        · rename_i hin
          exact iff_of_false (by decide) hin
      rw [hsight]
      by_cases hpr : p = r
      · have hwithin : WithinSight player.toEntity e.position := hself hpr ▸ withinSight_self e
        exact iff_of_true (iff_of_false (not_not.mpr hwithin) fun hd => hd.1 hpr) (Or.inl hpr)
      · refine iff_of_false (fun hiff => ?_) fun hor => hor.elim hpr fun hnot => hnot hn
        by_cases hwithin : WithinSight player.toEntity e.position
        · exact hiff.mpr ⟨hpr, hn, fun _ _ => hwithin⟩ hwithin
        · exact hwithin ((hiff.mp hwithin).2.2 scene rfl)
    · rw [hfar hn]
      exact iff_of_true (iff_of_false (by decide) fun hd => hn hd.2.1) (Or.inr hn)
  | move position =>
    by_cases hpr : p = r
    · have hn : p ∈ present ∧ InWindowOf e player.toEntity :=
        ⟨hpr ▸ hc.inside, (hself hpr).symm ▸ inWindowOf_self happ.cellX happ.cellZ⟩
      rw [hnear hn, handleMessage_move_length rfl hparse]
      exact iff_of_false (fun hiff => (hiff.mp rfl).1 hpr) fun hne => hne hpr
    · by_cases hn : p ∈ present ∧ InWindowOf e player.toEntity
      · rw [hnear hn, handleMessage_move_length rfl hparse]
        refine iff_of_true (iff_of_true rfl ⟨hpr, hn, ?_⟩) hpr
        intro scene hscene
        cases hscene
      · rw [hfar hn]
        exact iff_of_true (iff_of_false (by decide) fun hd => hn hd.2.1) hpr

end

/-! ### Two entities in a square -/

theorem mem_square (k id : ℤ) :
    (id ∈ square.xBucket 1 k ↔ (k = 5 ∧ id = 8) ∨ (k = 0 ∧ id = 7)) ∧
      (id ∈ square.zBucket 1 k ↔ (k = 0 ∧ id = 8) ∨ (k = 0 ∧ id = 7)) := by
  rw [xBucket_of_find rfl, zBucket_of_find rfl, UnorderedMap.mem_insertIn,
    UnorderedMap.mem_insertIn, UnorderedMap.mem_insertIn, UnorderedMap.mem_insertIn]
  exact ⟨or_congr_right (or_iff_left (Finset.notMem_empty id)),
    or_congr_right (or_iff_left (Finset.notMem_empty id))⟩

theorem square_indexed : IndexedAround 1 ⟨square, {0, 1}⟩ 0 := by
  have hcell0 : toInt32 0 = some 0 := by decide +kernel
  have hcell5 : toInt32 5 = some 5 := by decide +kernel
  have hplayer : square.entity 1 = some { id := 8, locateScene := some 1, superCommonProp :=
      { entityId := some 8, position := some { x := some 5 } } } := rfl
  -- on an axis on which the player is in cell `c`
  have haxis : ∀ (cell : Entity → Option ℤ) (c k id : ℤ),
      (∀ e, square.entity 1 = some e → cell e = some c) → square.idOf 0 ≠ some id →
      ((k = c ∧ id = 8) ∨ (k = 0 ∧ id = 7) ↔ ∃ r' ∈ ({0, 1} : Finset Ref), ∃ e',
        square.entity r' = some e' ∧ e'.id = id ∧ cell e' = some k) := by
    intro cell c k id hcell hne
    constructor
    · rintro (⟨rfl, rfl⟩ | ⟨_, rfl⟩)
      · exact ⟨1, by decide, _, hplayer, rfl, hcell _ hplayer⟩
      · exact absurd rfl hne
    · rintro ⟨r', hr', e', he', rfl, hk⟩
      rcases Finset.mem_insert.mp hr' with rfl | hr'
      · exact absurd (idOf_of_entity he') hne
      · obtain rfl := Finset.mem_singleton.mp hr'
        have hc := Option.some.inj (hk.symm.trans (hcell e' he'))
        obtain rfl := Option.some.inj (hplayer.symm.trans he')
        exact Or.inl ⟨hc, rfl⟩
  refine ⟨fun r' hr' => ?_, fun k id hne => ?_, fun k id hne => ?_⟩
  · rcases Finset.mem_insert.mp hr' with rfl | hr'
    · exact ⟨squareHoster, rfl, rfl⟩
    · obtain rfl := Finset.mem_singleton.mp hr'
      exact ⟨_, hplayer, rfl⟩
  · rw [(mem_square k id).1]
    refine haxis (fun e => toInt32 e.position.getX) 5 k id (fun e he => ?_) hne
    obtain rfl := Option.some.inj (hplayer.symm.trans he)
    exact hcell5
  · rw [(mem_square k id).2]
    refine haxis (fun e => toInt32 e.position.getZ) 0 k id (fun e he => ?_) hne
    obtain rfl := Option.some.inj (hplayer.symm.trans he)
    exact hcell0

def surveyed (w : World) : Option (ℤ × List ℤ) :=
  ((w.scenes.find 1).bind fun s => s.getNearByEntities squareAmbient.orders {} []).map
    fun q => (q.1, q.2.1)

theorem square_setting (h : appear pb squareAmbient square 0 event = some w')
    (hev : event ≠ .leave) (he : w'.entity 0 = some e) (hl : e.locateScene = some 1)
    (hid : e.id = 7) (hpos : e.position = {}) (hsurvey : surveyed w' = some (2, [7, 8])) :
    Setting 1 ⟨w', {0, 1}⟩ 0 e squareAmbient := by
  obtain ⟨⟨x, z, happ⟩, _⟩ := appear_appeared h hev he hl
  have hcell : toInt32 0 = some 0 := by decide +kernel
  have hx := happ.cellX
  have hz := happ.cellZ
  rw [hpos] at hx hz
  obtain rfl : 0 = x := Option.some.inj (hcell.symm.trans hx)
  obtain rfl : 0 = z := Option.some.inj (hcell.symm.trans hz)
  refine ⟨Finset.mem_insert_self 0 _, he, hl, ?_, ?_⟩
  · have hself : w'.getEntity e.id = some 0 := happ.keeps e.id 0 (by rw [hid]; rfl)
    exact square_indexed.appeared happ hself
  · intro s count ids s' hs hcall
    rw [hpos] at hcall ⊢
    rw [surveyed, hs, Option.bind_some, hcall] at hsurvey
    simp only [Option.map_some, Option.some.injEq, Prod.mk.injEq] at hsurvey
    obtain ⟨rfl, rfl⟩ := hsurvey
    refine ⟨0, 0, hcell, hcell, by decide, fun id => ?_, rfl,
      Scene.getNearByEntities_sameCells hcall⟩
    simp only [Scene.InWindows, ← xBucket_of_find hs, ← zBucket_of_find hs, happ.x, happ.z, hid,
      mem_square]
    constructor
    · intro hmem
      rcases List.mem_cons.mp hmem with rfl | hmem
      · exact ⟨⟨0, by decide, by decide, Or.inl ⟨rfl, rfl⟩⟩, 0, by decide, by decide,
          Or.inl ⟨rfl, rfl⟩⟩
      · obtain rfl := List.mem_singleton.mp hmem
        exact ⟨⟨5, by decide, by decide, Or.inr (Or.inl ⟨rfl, rfl⟩)⟩, 0, by decide, by decide,
          Or.inr (Or.inl ⟨rfl, rfl⟩)⟩
    · rintro ⟨⟨k, _, _, ⟨_, rfl⟩ | ⟨_, rfl⟩ | ⟨_, rfl⟩⟩, _⟩ <;> decide

def movedHoster : Entity := squareHoster.updatePosition {}

def sightProtobuf : Protobuf where
  commonProp := .ofTable
    [(squareProp, [0x08, 7, 0x70, 1]), (movedHoster.superCommonProp, [0x08, 7, 0x7a, 0])]
  player := .ofTable []

theorem square_told : ∃ w' player, w'.objects.find 1 = some (.player player) ∧
    appear sightProtobuf squareAmbient square 0 (.move {}) = some w' ∧
    (told sightProtobuf w' (sentSince square w') 1 = 1 ↔
      Due {0, 1} 0 1 movedHoster player (.move {})) := by
  have hrun : (appear sightProtobuf squareAmbient square 0 (.move {})).map (fun w =>
      (w.entity 0, surveyed w)) = some (some movedHoster, some (2, [7, 8])) := by decide +kernel
  obtain ⟨w', hw', heq⟩ := Option.map_eq_some_iff.mp hrun
  simp only [Prod.mk.injEq] at heq
  obtain ⟨he, hsurvey⟩ := heq
  have hset := square_setting hw' (by decide) he rfl rfl rfl hsurvey
  have hp : w'.objects.find 1 = square.objects.find 1 := stepMove_other hw' (by decide)
  exact ⟨w', _, hp, hw', (told_iff hw' (by decide) hset rfl hp).mpr Nat.one_ne_zero⟩

/-- The resident enters.  The player, five steps away and with a sight of `0`, is
told nevertheless. -/
theorem square_enter_not_told : ∃ w' e player,
    appear sightProtobuf squareAmbient square 0 (.enter 1) = some w' ∧
    w'.objects.find 1 = some (.player player) ∧ Setting 1 ⟨w', {0, 1}⟩ 0 e squareAmbient ∧
    sightProtobuf.commonProp.parse (sightProtobuf.commonProp.serialize e.superCommonProp) =
      (true, e.superCommonProp) ∧
    ¬ (told sightProtobuf w' (sentSince square w') 1 = 1 ↔
      Due {0, 1} 0 1 e player (.enter 1)) := by
  have hrun : (appear sightProtobuf squareAmbient square 0 (.enter 1)).map (fun w =>
      (w.entity 0, surveyed w, told sightProtobuf w (sentSince square w) 1)) =
        some (some (inScene squareHoster 1), some (2, [7, 8]), 1) := by decide +kernel
  obtain ⟨w', hw', heq⟩ := Option.map_eq_some_iff.mp hrun
  simp only [Prod.mk.injEq] at heq
  obtain ⟨he, hsurvey, htold⟩ := heq
  have hset := square_setting hw' (by decide) he rfl rfl rfl hsurvey
  have henter : square.onEnterScene sightProtobuf squareAmbient 0 1 = some w' := hw'
  have hp : w'.objects.find 1 = square.objects.find 1 := onEnterScene_other henter (by decide)
  refine ⟨w', _, _, hw', hp, hset, rfl, fun hiff => ?_⟩
  exact absurd ((hiff.mp htold).2.2 1 rfl).1 (by decide +kernel)

end GameService.World
