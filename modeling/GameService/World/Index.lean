import GameService.Lib.Run
import GameService.World.Entity

/-!
# The index of a scene follows its entities

The position of an entity lives in the entity, the index in the scene.  After
every step the two should agree: an entity in the scene is listed in exactly one
cell on each axis, the one of its current coordinate, and nobody else is listed
at all.  That is `Indexed`.

A `Census` is the world together with the entities that are in the scene; its
steps are `OnEnterScene` by an entity that is not, and `StepMove` and
`OnLeaveScene` by one that is.  `StepMove` erases the id at the cells of the new
position, not of the old one, so an entity that changes its cell stays listed
where it was.  `indexed_iff_keepsCells` is the exact condition: the index
follows the entities through a run if and only if no move in it changes a cell.
-/

namespace GameService.World

open Lib Asset

variable {pb : Protobuf} {sceneId : ℤ}

/-- The world and the entities that are in the scene. -/
structure Census where
  world : World
  present : Finset Ref

/-- One call of an entity, with what the call takes from outside. -/
inductive Visit
  | onEnterScene (r : Ref) (a : Ambient)
  | stepMove (r : Ref) (a : Ambient) (position : Vector3)
  | onLeaveScene (r : Ref) (a : Ambient)

/-- The calls on one scene: an entity enters when it is not in the scene, and
moves and leaves when it is. -/
def visit (pb : Protobuf) (sceneId : ℤ) (c : Census) : Visit → Option Census
  | .onEnterScene r a =>
    if r ∈ c.present then none
    else (c.world.onEnterScene pb a r sceneId).map fun w => ⟨w, insert r c.present⟩
  | .stepMove r a position =>
    if r ∈ c.present then
      (c.world.stepMove pb a r position).map fun w => ⟨w, c.present⟩
    else none
  | .onLeaveScene r a =>
    if r ∈ c.present then
      (c.world.onLeaveScene a r).map fun w => ⟨w, c.present.erase r⟩
    else none

/-- **The index follows the entities**: the id of an entity in the scene is in
exactly one bucket on each axis, the one of its coordinate, and every other id
is in none. -/
structure Indexed (sceneId : ℤ) (c : Census) : Prop where
  present : ∀ r ∈ c.present, ∀ e, c.world.entity r = some e →
    ∃ x z, toInt32 e.position.getX = some x ∧ toInt32 e.position.getZ = some z ∧
      (∀ k, e.id ∈ c.world.xBucket sceneId k ↔ k = x) ∧
      ∀ k, e.id ∈ c.world.zBucket sceneId k ↔ k = z
  absent : ∀ id, (∀ r ∈ c.present, ∀ e, c.world.entity r = some e → e.id ≠ id) →
    ∀ k, id ∉ c.world.xBucket sceneId k ∧ id ∉ c.world.zBucket sceneId k

def KeepsCells (c : Census) : Visit → Census → Prop
  | .stepMove r _ position, _ => ∀ e, c.world.entity r = some e →
    toInt32 position.getX = toInt32 e.position.getX ∧
      toInt32 position.getZ = toInt32 e.position.getZ
  | _, _ => True

/-- A known scene that lists nobody, in a world whose objects have distinct
ids. -/
structure Vacant (w : World) (sceneId : ℤ) : Prop where
  knows : w.Knows sceneId
  x : ∀ k, w.xBucket sceneId k = ∅
  z : ∀ k, w.zBucket sceneId k = ∅
  distinct : ∀ r r' e e', w.entity r = some e → w.entity r' = some e' → e.id = e'.id → r = r'

/-- What holds whatever the index does. -/
structure Peopled (sceneId : ℤ) (c : Census) : Prop where
  knows : c.world.Knows sceneId
  distinct : ∀ r r' e e', c.world.entity r = some e → c.world.entity r' = some e' →
    e.id = e'.id → r = r'
  inside : ∀ r ∈ c.present, ∃ e, c.world.entity r = some e ∧ e.locateScene = some sceneId

instance (c : Census) (v : Visit) (c' : Census) : Decidable (KeepsCells c v c') :=
  match v with
  | .onEnterScene _ _ => inferInstanceAs (Decidable True)
  | .onLeaveScene _ _ => inferInstanceAs (Decidable True)
  | .stepMove r _ position =>
    inferInstanceAs (Decidable (∀ e, c.world.entity r = some e →
      toInt32 position.getX = toInt32 e.position.getX ∧
        toInt32 position.getZ = toInt32 e.position.getZ))

variable {c c' : Census} {r : Ref} {e e' : Entity} {w' : World} {x z : ℤ}

theorem Peopled.id_ne (h : Peopled sceneId c) {r' : Ref} (he : c.world.entity r = some e)
    (he' : c.world.entity r' = some e') (hne : r' ≠ r) : e'.id ≠ e.id :=
  fun hid => hne (h.distinct r' r e' e he' he hid)

theorem Peopled.writes (h : Peopled sceneId c) (he : c.world.entity r = some e)
    (hw : Writes c.world r e' w') (hid : e'.id = e.id) (hl : e'.locateScene = some sceneId)
    (hk : w'.Knows sceneId) {present : Finset Ref} (hp : ∀ r' ∈ present, r' ≠ r → r' ∈ c.present) :
    Peopled sceneId ⟨w', present⟩ := by
  have hids : ∀ r' f, w'.entity r' = some f → ∃ f', c.world.entity r' = some f' ∧ f'.id = f.id := by
    intro r' f hf
    by_cases hr : r' = r
    · rw [hr, hw.self, Option.some.injEq] at hf
      exact ⟨e, hr ▸ he, hf ▸ hid.symm⟩
    · rw [hw.entity_other hr] at hf
      exact ⟨f, hf, rfl⟩
  refine ⟨hk, fun r₁ r₂ e₁ e₂ h₁ h₂ hid' => ?_, fun r' hr' => ?_⟩
  · obtain ⟨f₁, hf₁, hi₁⟩ := hids r₁ e₁ h₁
    obtain ⟨f₂, hf₂, hi₂⟩ := hids r₂ e₂ h₂
    exact h.distinct r₁ r₂ f₁ f₂ hf₁ hf₂ (hi₁.trans (hid'.trans hi₂.symm))
  · by_cases hr : r' = r
    · exact ⟨e', hr ▸ hw.self, hl⟩
    · obtain ⟨f, hf, hfl⟩ := h.inside r' (hp r' hr' hr)
      exact ⟨f, (hw.entity_other hr).trans hf, hfl⟩

theorem listed_congr {f : Entity}
    (hx : ∀ k, f.id ∈ w'.xBucket sceneId k ↔ f.id ∈ c.world.xBucket sceneId k)
    (hz : ∀ k, f.id ∈ w'.zBucket sceneId k ↔ f.id ∈ c.world.zBucket sceneId k)
    (h : ∃ x z, toInt32 f.position.getX = some x ∧ toInt32 f.position.getZ = some z ∧
      (∀ k, f.id ∈ c.world.xBucket sceneId k ↔ k = x) ∧
      ∀ k, f.id ∈ c.world.zBucket sceneId k ↔ k = z) :
    ∃ x z, toInt32 f.position.getX = some x ∧ toInt32 f.position.getZ = some z ∧
      (∀ k, f.id ∈ w'.xBucket sceneId k ↔ k = x) ∧
      ∀ k, f.id ∈ w'.zBucket sceneId k ↔ k = z := by
  obtain ⟨x, z, hcx, hcz, hbx, hbz⟩ := h
  exact ⟨x, z, hcx, hcz, fun k => (hx k).trans (hbx k), fun k => (hz k).trans (hbz k)⟩

section

variable {f : Entity} {id : ℤ}
  (hx : ∀ k i, i ∈ w'.xBucket sceneId k ↔ (k = x ∧ i = e.id) ∨ i ∈ c.world.xBucket sceneId k)
  (hz : ∀ k i, i ∈ w'.zBucket sceneId k ↔ (k = z ∧ i = e.id) ∨ i ∈ c.world.zBucket sceneId k)

include hx hz

theorem cells_of_added (hne : f.id ≠ e.id)
    (h : ∃ x z, toInt32 f.position.getX = some x ∧ toInt32 f.position.getZ = some z ∧
      (∀ k, f.id ∈ c.world.xBucket sceneId k ↔ k = x) ∧
      ∀ k, f.id ∈ c.world.zBucket sceneId k ↔ k = z) :
    ∃ x z, toInt32 f.position.getX = some x ∧ toInt32 f.position.getZ = some z ∧
      (∀ k, f.id ∈ w'.xBucket sceneId k ↔ k = x) ∧
      ∀ k, f.id ∈ w'.zBucket sceneId k ↔ k = z := by
  refine listed_congr (fun k => ?_) (fun k => ?_) h
  · rw [hx]
    exact or_iff_right fun hk => hne hk.2
  · rw [hz]
    exact or_iff_right fun hk => hne hk.2

theorem absent_of_added (hne : id ≠ e.id) {k : ℤ}
    (h : id ∉ c.world.xBucket sceneId k ∧ id ∉ c.world.zBucket sceneId k) :
    id ∉ w'.xBucket sceneId k ∧ id ∉ w'.zBucket sceneId k := by
  rw [hx, hz]
  constructor
  · exact fun hk => hk.elim (fun hk => hne hk.2) h.1
  · exact fun hk => hk.elim (fun hk => hne hk.2) h.2

end

/-! ### Entering -/

/-- Entering lists the entity at its own cells, and only there. -/
theorem Indexed.entered (h : Indexed sceneId c) (hp : Peopled sceneId c) (hr : r ∉ c.present)
    (he : c.world.entity r = some e) (hs : Entered c.world r sceneId e x z w') :
    Indexed sceneId ⟨w', insert r c.present⟩ := by
  have hnew : ∀ k, e.id ∉ c.world.xBucket sceneId k ∧ e.id ∉ c.world.zBucket sceneId k :=
    h.absent e.id fun r' hr' f hf => hp.id_ne he hf fun hrr => hr (hrr ▸ hr')
  constructor
  · intro r' hr' f hf
    by_cases hrr : r' = r
    · rw [hrr] at hf
      obtain rfl := Option.some.inj (hs.writes.self.symm.trans hf)
      refine ⟨x, z, hs.cellX, hs.cellZ, (only_added_iff hs.x).mpr fun k hk => ?_,
        (only_added_iff hs.z).mpr fun k hk => ?_⟩
      · exact absurd hk (hnew k).1
      · exact absurd hk (hnew k).2
    · rw [hs.writes.entity_other hrr] at hf
      have hr' : r' ∈ c.present := (Finset.mem_insert.mp hr').resolve_left hrr
      exact cells_of_added hs.x hs.z (hp.id_ne he hf hrr) (h.present r' hr' f hf)
  · intro id hid k
    have hne : id ≠ e.id := fun hi =>
      hid r (Finset.mem_insert_self r _) _ hs.writes.self hi.symm
    have hold := h.absent id (fun r' hr' f hf => by
      refine hid r' (Finset.mem_insert_of_mem hr') f ?_
      rw [hs.writes.entity_other fun hrr => hr (hrr ▸ hr')]
      exact hf) k
    exact absent_of_added hs.x hs.z hne hold

/-! ### Leaving -/

theorem Left.entity {w : World} (hs : Left w sceneId e x z w') (r : Ref) :
    w'.entity r = w.entity r := by
  rw [World.entity, World.entity, hs.objects]

theorem Peopled.left (hp : Peopled sceneId c) (hs : Left c.world sceneId e x z w') :
    Peopled sceneId ⟨w', c.present.erase r⟩ := by
  refine ⟨(hs.knows sceneId).mpr hp.knows, fun r₁ r₂ e₁ e₂ h₁ h₂ => ?_, fun r' hr' => ?_⟩
  · exact hp.distinct r₁ r₂ e₁ e₂ ((hs.entity r₁).symm.trans h₁) ((hs.entity r₂).symm.trans h₂)
  · obtain ⟨f, hf, hfl⟩ := hp.inside r' (Finset.mem_erase.mp hr').2
    exact ⟨f, (hs.entity r').trans hf, hfl⟩

/-- Leaving takes the entity out of the one cell that lists it. -/
theorem Indexed.left (h : Indexed sceneId c) (hp : Peopled sceneId c) (hr : r ∈ c.present)
    (he : c.world.entity r = some e) (hs : Left c.world sceneId e x z w') :
    Indexed sceneId ⟨w', c.present.erase r⟩ := by
  have hent := hs.entity
  obtain ⟨x', z', hx', hz', hbx, hbz⟩ := h.present r hr e he
  obtain rfl := Option.some.inj (hx'.symm.trans hs.cellX)
  obtain rfl := Option.some.inj (hz'.symm.trans hs.cellZ)
  constructor
  · intro r' hr' f hf
    obtain ⟨hrr, hr'⟩ := Finset.mem_erase.mp hr'
    rw [hent] at hf
    have hne := hp.id_ne he hf hrr
    refine listed_congr (fun k => ?_) (fun k => ?_) (h.present r' hr' f hf)
    · rw [hs.x]
      exact and_iff_right fun hk => hne hk.2
    · rw [hs.z]
      exact and_iff_right fun hk => hne hk.2
  · intro id hid k
    rw [hs.x, hs.z]
    by_cases hi : id = e.id
    · subst hi
      exact ⟨fun hk => hk.1 ⟨(hbx k).mp hk.2, rfl⟩, fun hk => hk.1 ⟨(hbz k).mp hk.2, rfl⟩⟩
    · have hold := h.absent id (fun r' hr' f hf => by
        by_cases hrr : r' = r
        · rw [hrr, he, Option.some.injEq] at hf
          exact hf ▸ Ne.symm hi
        · exact hid r' (Finset.mem_erase.mpr ⟨hrr, hr'⟩) f ((hent r').trans hf)) k
      exact ⟨fun hk => hold.1 hk.2, fun hk => hold.2 hk.2⟩

/-! ### Moving -/

/-- After a move the entity is listed at its old cell and at its new one, so the
index is right if and only if these are the same. -/
theorem Indexed.moved_iff (h : Indexed sceneId c) (hp : Peopled sceneId c) (hr : r ∈ c.present)
    (he : c.world.entity r = some e) {position : Vector3}
    (hs : Moved c.world r sceneId e position x z w') :
    Indexed sceneId ⟨w', c.present⟩ ↔
      toInt32 position.getX = toInt32 e.position.getX ∧
        toInt32 position.getZ = toInt32 e.position.getZ := by
  obtain ⟨x₀, z₀, hx₀, hz₀, hbx, hbz⟩ := h.present r hr e he
  rw [hs.cellX, hs.cellZ, hx₀, hz₀, Option.some.injEq, Option.some.injEq]
  constructor
  · intro h'
    obtain ⟨x₁, z₁, hx₁, hz₁, hbx₁, hbz₁⟩ := h'.present r hr _ hs.writes.self
    obtain rfl := Option.some.inj (hx₁.symm.trans hs.cellX)
    obtain rfl := Option.some.inj (hz₁.symm.trans hs.cellZ)
    constructor
    · exact ((only_added_iff hs.x).mp hbx₁ x₀ ((hbx x₀).mpr rfl)).symm
    · exact ((only_added_iff hs.z).mp hbz₁ z₀ ((hbz z₀).mpr rfl)).symm
  · rintro ⟨rfl, rfl⟩
    constructor
    · intro r' hr' f hf
      by_cases hrr : r' = r
      · rw [hrr] at hf
        obtain rfl := Option.some.inj (hs.writes.self.symm.trans hf)
        exact ⟨x, z, hs.cellX, hs.cellZ, (only_added_iff hs.x).mpr fun k => (hbx k).mp,
          (only_added_iff hs.z).mpr fun k => (hbz k).mp⟩
      · rw [hs.writes.entity_other hrr] at hf
        exact cells_of_added hs.x hs.z (hp.id_ne he hf hrr) (h.present r' hr' f hf)
    · intro id hid k
      have hne : id ≠ e.id := fun hi => hid r hr _ hs.writes.self hi.symm
      have hold := h.absent id (fun r' hr' f hf => by
        by_cases hrr : r' = r
        · rw [hrr, he, Option.some.injEq] at hf
          exact hf ▸ hne.symm
        · exact hid r' hr' f ((hs.writes.entity_other hrr).trans hf)) k
      exact absent_of_added hs.x hs.z hne hold

/-! ### Runs -/

/-- **One call.**  It keeps the index right if and only if it is not a move that
changes a cell. -/
theorem indexed_visit {v : Visit} (hp : Peopled sceneId c) (h : Indexed sceneId c)
    (hs : visit pb sceneId c v = some c') :
    Peopled sceneId c' ∧ (Indexed sceneId c' ↔ KeepsCells c v c') := by
  cases v with
  | onEnterScene r a =>
    simp only [visit] at hs
    split at hs
    · cases hs
    · rename_i hr
      obtain ⟨w', hw', rfl⟩ := Option.map_eq_some_iff.mp hs
      cases he : c.world.entity r with
      | none => rw [onEnterScene, he] at hw'; cases hw'
      | some e =>
        obtain ⟨x, z, hs⟩ := onEnterScene_entered hw' he hp.knows
        refine ⟨?_, fun _ => trivial, fun _ => h.entered hp hr he hs⟩
        refine hp.writes he hs.writes rfl rfl ((hs.knows sceneId).mpr hp.knows) ?_
        exact fun r' hr' hne => (Finset.mem_insert.mp hr').resolve_left hne
  | stepMove r a position =>
    simp only [visit] at hs
    split at hs
    · rename_i hr
      obtain ⟨w', hw', rfl⟩ := Option.map_eq_some_iff.mp hs
      obtain ⟨e, he, hl⟩ := hp.inside r hr
      obtain ⟨x, z, hs⟩ := stepMove_moved hw' he hl
      refine ⟨?_, ?_⟩
      · refine hp.writes he hs.writes rfl hl ((hs.knows sceneId).mpr hp.knows) ?_
        exact fun r' hr' _ => hr'
      · rw [h.moved_iff hp hr he hs]
        constructor
        · intro hk f hf
          rw [he, Option.some.injEq] at hf
          exact hf ▸ hk
        · intro hk
          exact hk e he
    · cases hs
  | onLeaveScene r a =>
    simp only [visit] at hs
    split at hs
    · rename_i hr
      obtain ⟨w', hw', rfl⟩ := Option.map_eq_some_iff.mp hs
      obtain ⟨e, he, hl⟩ := hp.inside r hr
      obtain ⟨x, z, hs⟩ := onLeaveScene_left hw' he hl
      exact ⟨hp.left hs, fun _ => trivial, fun _ => h.left hp hr he hs⟩
    · cases hs

theorem Vacant.peopled {w : World} (h : Vacant w sceneId) : Peopled sceneId ⟨w, ∅⟩ :=
  ⟨h.knows, h.distinct, fun _ hr => absurd hr (Finset.notMem_empty _)⟩

theorem Vacant.indexed {w : World} (h : Vacant w sceneId) : Indexed sceneId ⟨w, ∅⟩ := by
  refine ⟨fun _ hr => absurd hr (Finset.notMem_empty _), fun id _ k => ⟨?_, ?_⟩⟩
  · rw [h.x]; exact Finset.notMem_empty id
  · rw [h.z]; exact Finset.notMem_empty id

/-- **When the index follows the entities.**  In a run of entering, moving and
leaving, from an empty scene and by entities with distinct ids, the index is
right in every state reached if and only if every move stays within the cells of
the entity that makes it. -/
theorem indexed_iff_keepsCells (pb : Protobuf) (sceneId : ℤ) (w : World) (hw : Vacant w sceneId)
    (vs : List Visit) :
    Always (visit pb sceneId) (Indexed sceneId) ⟨w, ∅⟩ vs ↔
      Along (visit pb sceneId) KeepsCells ⟨w, ∅⟩ vs := by
  refine always_iff_along_of_base (fun c v c' hp h hs => ?_) vs _ hw.peopled hw.indexed
  exact indexed_visit hp h hs

def originWorld : World :=
  { objects := (∅ : UnorderedMap Ref Object).insertAt 0
      (.hoster { id := 7, superCommonProp := { entityId := some 7 } })
    scenes := (∅ : UnorderedMap ℤ Scene).insertAt 1 { id := 1 } }

theorem originWorld_vacant : Vacant originWorld 1 := by
  have honly : ∀ r e, originWorld.entity r = some e → r = 0 := by
    intro r e h
    by_contra hr
    rw [originWorld, World.entity, UnorderedMap.find_insertAt_ne _ hr] at h
    cases h
  refine ⟨rfl, fun _ => rfl, fun _ => rfl, fun r r' e e' h h' _ => ?_⟩
  rw [honly r e h, honly r' e' h']

/-- What the entity is serialized to: entered, moved to `1/2` and moved to `5`. -/
def originCodec : Codec CommonProp :=
  let at_ (position : Option Vector3) : CommonProp :=
    { entityId := some 7, sceneId := some 1, position := position }
  .ofTable
    [(at_ none, [0x08, 7, 0x70, 1]),
     (at_ (some { x := some (1 / 2) }), [0x08, 7, 0x70, 1, 0x7a, 5, 0x0d, 0, 0, 0, 0x3f]),
     (at_ (some { x := some 5 }), [0x08, 7, 0x70, 1, 0x7a, 5, 0x0d, 0, 0, 0xa0, 0x40])]

def originProtobuf : Protobuf := { commonProp := originCodec, player := .ofTable [] }

def originAmbient : Ambient :=
  { orders :=
      ⟨(Enumeration.sorted ℤ).patch [7] (by decide), (Enumeration.sorted ℤ).patch [7] (by decide)⟩
    clock := 0 }

theorem originWorld_indexed :
    Always (visit originProtobuf 1) (Indexed 1) ⟨originWorld, ∅⟩
      [.onEnterScene 0 originAmbient, .stepMove 0 originAmbient { x := some (1 / 2) },
        .onLeaveScene 0 originAmbient] :=
  (indexed_iff_keepsCells originProtobuf 1 originWorld originWorld_vacant _).mpr
    (by decide +kernel)

def crossing : List Visit :=
  [.onEnterScene 0 originAmbient, .stepMove 0 originAmbient { x := some 5 }]

/-- After the move it is listed in cell `0` and in cell `5`. -/
theorem crossing_not_indexed :
    Vacant originWorld 1 ∧
      ¬ Always (visit originProtobuf 1) (Indexed 1) ⟨originWorld, ∅⟩ crossing := by
  refine ⟨originWorld_vacant, fun h => ?_⟩
  have hrun : (run (visit originProtobuf 1) ⟨originWorld, ∅⟩ crossing).map (fun c =>
      (c.present, (c.world.entity 0).map (·.id), decide (7 ∈ c.world.xBucket 1 0),
        decide (7 ∈ c.world.xBucket 1 5))) = some ({0}, some 7, true, true) := by decide +kernel
  obtain ⟨c, hc, heq⟩ := Option.map_eq_some_iff.mp hrun
  simp only [Prod.mk.injEq, decide_eq_true_eq] at heq
  obtain ⟨hp, hid, h0, h5⟩ := heq
  obtain ⟨e, he, hid⟩ := Option.map_eq_some_iff.mp hid
  obtain ⟨x, _, _, _, hbx, _⟩ :=
    (h.last _ _ hc).present 0 (hp ▸ Finset.mem_singleton_self 0) e he
  rw [hid] at hbx
  exact absurd (((hbx 0).mp h0).trans ((hbx 5).mp h5).symm) (by decide)

end GameService.World
