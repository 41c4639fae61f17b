import GameService.World.Index

/-!
# Membership

Which scene an entity is in is kept twice: the scene lists its id, and the entity
points to the scene.  Entities enter scenes by any id and leave them, without
moving; `Placed` says that the two agree in every state, which makes an id be
listed in one scene at most.  A call with an id that `SceneManager` does not know
should change nothing (`Refuses`).

`OnEnterScene` assigns the pointer before it looks whether the scene exists, and
does not leave the scene the entity was in.  `placed_iff_entersFree` is the exact
condition: nobody whose id is listed elsewhere enters a scene, no other entity
has the same id and points elsewhere, and only an entity without a scene tries an
unknown one.
-/

namespace GameService.World

open Lib Asset

variable {pb : Protobuf}

/-- A call of an entity that stays where it is. -/
inductive Stay
  | onEnterScene (r : Ref) (a : Ambient) (sceneId : ℤ)
  | onLeaveScene (r : Ref) (a : Ambient)

def stay (pb : Protobuf) (w : World) : Stay → Option World
  | .onEnterScene r a sceneId => w.onEnterScene pb a r sceneId
  | .onLeaveScene r a => w.onLeaveScene a r

/-- **An id is listed in one scene at most**, and that is the scene its entity
points to. -/
structure Placed (w : World) : Prop where
  once : ∀ i j id, w.Listed i id → w.Listed j id → i = j
  located : ∀ r e i, w.entity r = some e → w.Listed i e.id → e.locateScene = some i

/-- Entering a scene that is not known leaves the entity's scene, its scene id
and every index as they were. -/
def Refuses (w : World) : Stay → World → Prop
  | .onEnterScene r _ sceneId, w' => ¬ w.Knows sceneId →
    (w'.entity r).map (·.locateScene) = (w.entity r).map (·.locateScene) ∧
    (w'.entity r).map (·.superCommonProp.sceneId) =
      (w.entity r).map (·.superCommonProp.sceneId) ∧
    ∀ i k, w'.xBucket i k = w.xBucket i k ∧ w'.zBucket i k = w.zBucket i k
  | .onLeaveScene _ _, _ => True

def EntersFree (w : World) : Stay → World → Prop
  | .onEnterScene r _ sceneId, _ => ∀ e, w.entity r = some e →
    if w.Knows sceneId then
      (∀ i ≠ sceneId, ¬ w.Listed i e.id) ∧
        ∀ r' ≠ r, ∀ e', w.entity r' = some e' → e'.id = e.id → e'.locateScene = some sceneId
    else e.locateScene = none
  | .onLeaveScene _ _, _ => True

variable {w w' : World} {r : Ref} {a : Ambient} {sceneId : ℤ} {v : Stay}

theorem placed_onLeaveScene (h : Placed w) (hs : w.onLeaveScene a r = some w') : Placed w' := by
  refine ⟨fun i j id hi hj => ?_, fun r' e i he hi => ?_⟩
  · exact h.once i j id (onLeaveScene_listed_of hs hi) (onLeaveScene_listed_of hs hj)
  · rw [World.entity, onLeaveScene_objects hs] at he
    exact h.located r' e i he (onLeaveScene_listed_of hs hi)

theorem placed_onEnterScene_iff (h : Placed w) (hs : w.onEnterScene pb a r sceneId = some w')
    {e : Entity} (he : w.entity r = some e) (hk : w.Knows sceneId) :
    Placed w' ↔ (∀ i ≠ sceneId, ¬ w.Listed i e.id) ∧
      ∀ r' ≠ r, ∀ e', w.entity r' = some e' → e'.id = e.id → e'.locateScene = some sceneId := by
  obtain ⟨x, z, hentered⟩ := onEnterScene_entered hs he hk
  have hlisted := onEnterScene_listed hs he hk
  have hself : w'.Listed sceneId e.id := (hlisted _ _).mpr (Or.inl ⟨rfl, rfl⟩)
  constructor
  · intro h'
    refine ⟨fun i hi hid => ?_, fun r' hr e' he' hid => ?_⟩
    · exact hi (h'.once i sceneId e.id ((hlisted _ _).mpr (Or.inr hid)) hself)
    · refine h'.located r' e' sceneId ?_ (hid ▸ hself)
      rw [hentered.writes.entity_other hr, he']
  · rintro ⟨hfree, hothers⟩
    have honly : ∀ i, w'.Listed i e.id → i = sceneId := by
      intro i hi
      rcases (hlisted i e.id).mp hi with ⟨hi, _⟩ | hi
      · exact hi
      · by_contra hne
        exact hfree i hne hi
    have hold : ∀ i id, id ≠ e.id → w'.Listed i id → w.Listed i id :=
      fun i id hne hi => ((hlisted i id).mp hi).resolve_left fun hand => hne hand.2
    refine ⟨fun i j id hi hj => ?_, fun r' e' i he' hi => ?_⟩
    · by_cases hid : id = e.id
      · subst hid
        rw [honly i hi, honly j hj]
      · exact h.once i j id (hold i id hid hi) (hold j id hid hj)
    · by_cases hr : r' = r
      · subst hr
        rw [hentered.writes.self, Option.some.injEq] at he'
        subst he'
        rw [honly i hi]
        rfl
      · rw [hentered.writes.entity_other hr] at he'
        by_cases hid : e'.id = e.id
        · rw [hothers r' hr e' he' hid, honly i (hid ▸ hi)]
        · exact h.located r' e' i he' (hold i e'.id hid hi)

theorem placed_unknown_iff (h : Placed w) (hs : w.onEnterScene pb a r sceneId = some w')
    {e : Entity} (he : w.entity r = some e) (hk : ¬ w.Knows sceneId) :
    Placed w' ∧ Refuses w (.onEnterScene r a sceneId) w' ↔ e.locateScene = none := by
  obtain ⟨e₀, he₀, rfl⟩ := onEnterScene_unknown hs hk
  obtain rfl : e = e₀ := Option.some.inj (he.symm.trans he₀)
  have hw := writes_setEntity he { e with locateScene := none }
  have hscenes := setEntity_scenes w r { e with locateScene := none }
  constructor
  · rintro ⟨_, href⟩
    have hlocate := (href hk).1
    rw [hw.self, he, Option.map_some, Option.map_some, Option.some.injEq] at hlocate
    exact hlocate.symm
  · intro hl
    have hself : { e with locateScene := none } = e := by rw [← hl]
    have hent : ∀ r', (w.setEntity r { e with locateScene := none }).entity r' = w.entity r' := by
      intro r'
      by_cases hr : r' = r
      · rw [hr, hw.self, he, hself]
      · exact hw.entity_other hr
    refine ⟨⟨fun i j id hi hj => ?_, fun r' e' i he' hi => ?_⟩, fun _ => ⟨?_, ?_, fun i k => ?_⟩⟩
    · exact h.once i j id ((listed_congr_scenes hscenes i id).mp hi)
        ((listed_congr_scenes hscenes j id).mp hj)
    · rw [hent] at he'
      exact h.located r' e' i he' ((listed_congr_scenes hscenes i _).mp hi)
    · rw [hent]
    · rw [hent]
    · exact ⟨xBucket_congr hscenes i k, zBucket_congr hscenes i k⟩

theorem placed_stay (h : Placed w) (hs : stay pb w v = some w') :
    Placed w' ∧ Refuses w v w' ↔ EntersFree w v w' := by
  cases v with
  | onLeaveScene r a => exact iff_of_true ⟨placed_onLeaveScene h hs, trivial⟩ trivial
  | onEnterScene r a sceneId =>
    obtain ⟨e, he, _⟩ := onEnterScene_cases hs
    have hcond : EntersFree w (.onEnterScene r a sceneId) w' ↔ if w.Knows sceneId then
        (∀ i ≠ sceneId, ¬ w.Listed i e.id) ∧
          ∀ r' ≠ r, ∀ e', w.entity r' = some e' → e'.id = e.id → e'.locateScene = some sceneId
        else e.locateScene = none := by
      constructor
      · intro hfree; exact hfree e he
      · intro hfree e' he'
        obtain rfl : e = e' := Option.some.inj (he.symm.trans he')
        exact hfree
    rw [hcond]
    split
    · rename_i hk
      rw [← placed_onEnterScene_iff h hs he hk]
      exact and_iff_left fun hnot => absurd hk hnot
    · rename_i hk
      exact placed_unknown_iff h hs he hk

/-- **When scenes and entities agree.**  In a run of entering and leaving, by any
number of entities and with any scene ids, the index and the pointers agree in
every state reached and an unknown scene changes nothing, exactly if every
entity is free to enter when it does. -/
theorem placed_iff_entersFree (pb : Protobuf) (w : World) (h : Placed w) (vs : List Stay) :
    Always (stay pb) Placed w vs ∧ Along (stay pb) Refuses w vs ↔
      Along (stay pb) EntersFree w vs := by
  have hstep : ∀ w v w', Placed w → stay pb w v = some w' →
      (Placed w' ∧ Refuses w v w' ↔ EntersFree w v w') :=
    fun _ _ _ hp hs => placed_stay hp hs
  exact always_and_along_iff hstep vs w h

theorem originWorld_not_listed (i id : ℤ) : ¬ originWorld.Listed i id := by
  rintro ⟨k, hid | hid⟩
  · rw [xBucket, originWorld, UnorderedMap.find_insertAt] at hid
    split at hid <;> exact Finset.notMem_empty id hid
  · rw [zBucket, originWorld, UnorderedMap.find_insertAt] at hid
    split at hid <;> exact Finset.notMem_empty id hid

theorem originWorld_placed : Placed originWorld :=
  ⟨fun i _ id hi _ => absurd hi (originWorld_not_listed i id),
    fun _ e i _ hi => absurd hi (originWorld_not_listed i e.id)⟩

theorem originWorld_entersFree :
    Always (stay originProtobuf) Placed originWorld
        [.onEnterScene 0 originAmbient 1, .onLeaveScene 0 originAmbient] ∧
      Along (stay originProtobuf) Refuses originWorld
        [.onEnterScene 0 originAmbient 1, .onLeaveScene 0 originAmbient] := by
  refine (placed_iff_entersFree originProtobuf originWorld originWorld_placed _).mpr ?_
  refine fun w hw => ⟨fun e he => ?_, fun w' hw' => ⟨trivial, trivial⟩⟩
  rw [if_pos (by decide)]
  refine ⟨fun i _ => originWorld_not_listed i e.id, fun r' hr e' he' => ?_⟩
  rw [originWorld, World.entity, UnorderedMap.find_insertAt_ne _ hr] at he'
  cases he'

def wandering : List Stay := [.onEnterScene 0 originAmbient 1, .onEnterScene 0 originAmbient 2]

/-- It is still listed in the first, and points to none. -/
theorem wandering_not_placed : Placed originWorld ∧
    ¬ (Always (stay originProtobuf) Placed originWorld wandering ∧
      Along (stay originProtobuf) Refuses originWorld wandering) := by
  refine ⟨originWorld_placed, fun h => ?_⟩
  have hrun : (run (stay originProtobuf) originWorld wandering).map (fun w =>
      ((w.entity 0).map fun e => (e.id, e.locateScene), decide (7 ∈ w.xBucket 1 0))) =
        some (some (7, none), true) := by decide +kernel
  obtain ⟨w, hw, heq⟩ := Option.map_eq_some_iff.mp hrun
  simp only [Prod.mk.injEq, decide_eq_true_eq] at heq
  obtain ⟨hent, hlisted⟩ := heq
  obtain ⟨e, he, hfields⟩ := Option.map_eq_some_iff.mp hent
  rw [Prod.mk.injEq] at hfields
  have hlocate := (h.1.last _ _ hw).located 0 e 1 he ⟨0, Or.inl (hfields.1 ▸ hlisted)⟩
  rw [hfields.2] at hlocate
  cases hlocate

end GameService.World
