import GameService.World.Broadcast
import GameService.World.Membership
import GameService.World.Registration

/-!
# Departure

An entity that has left its scene, or died, is to be gone until it enters a scene
again: its id is in no index, and nothing it is still asked to do lists it again
or sends anything around.  A `Parting` is the world with the entities that have
called `OnLeaveScene` or `OnDeath` and not `OnEnterScene` since; the deeds are
these three calls, `StepMove` and `BroadCastCommonProp`, by any entity.

`OnDeath` only erases the registration, `OnLeaveScene` only the cells of the
current position, and neither resets `_locate_scene`, which is all that
`StepMove` and the broadcasts look at.  `gone_iff_keepsAway` is the exact
condition: an entity leaves, or dies, when its id is listed nowhere else, and
does nothing more as long as it points to a scene and is heard there.
-/

namespace GameService.World

open Lib Asset

variable {pb : Protobuf}

/-- The world and the entities that have departed. -/
structure Parting where
  world : World
  departed : Finset Ref := ∅

inductive Deed
  | onEnterScene (r : Ref) (a : Ambient) (sceneId : ℤ)
  | onLeaveScene (r : Ref) (a : Ambient)
  | onDeath (r : Ref)
  | stepMove (r : Ref) (a : Ambient) (position : Vector3)
  | broadCastCommonProp (r : Ref) (a : Ambient) (type : MsgType)

def deed (pb : Protobuf) (s : Parting) : Deed → Option Parting
  | .onEnterScene r a sceneId =>
    (s.world.onEnterScene pb a r sceneId).map fun w => ⟨w, s.departed.erase r⟩
  | .onLeaveScene r a => (s.world.onLeaveScene a r).map fun w => ⟨w, insert r s.departed⟩
  | .onDeath r => (s.world.onDeath r).map fun w => ⟨w, insert r s.departed⟩
  | .stepMove r a position => (s.world.stepMove pb a r position).map fun w => ⟨w, s.departed⟩
  | .broadCastCommonProp r a type =>
    (s.world.broadCastCommonProp pb a r type).map fun w => ⟨w, s.departed⟩

/-- **Who has departed is listed nowhere.** -/
def Gone (s : Parting) : Prop :=
  ∀ r ∈ s.departed, ∀ id, s.world.idOf r = some id → ∀ i, ¬ s.world.Listed i id

/-- Who has departed sends nothing, unless it enters again. -/
def Silent (s : Parting) : Deed → Parting → Prop
  | .onEnterScene _ _ _, _ => True
  | .onLeaveScene r _, s' | .onDeath r, s' | .stepMove r _ _, s' | .broadCastCommonProp r _ _, s' =>
    r ∈ s.departed → s'.world.messages = s.world.messages

/-- Nobody hears the entity: it points to no scene, or the scene finds nobody
around it who is registered. -/
def Unheard (w : World) (r : Ref) (a : Ambient) : Prop :=
  ∀ e sceneId s count ids s', w.entity r = some e → e.locateScene = some sceneId →
    w.scenes.find sceneId = some s →
    s.getNearByEntities a.orders e.position [] = some (count, ids, s') →
    count = 0 ∨ w.hearers ids = []

/-- The id is listed nowhere but in the cells its entity is at, in the scene it
points to. -/
def OnlyHere (w : World) (e : Entity) : Prop :=
  ∀ i k, (e.id ∈ w.xBucket i k → e.locateScene = some i ∧ toInt32 e.position.getX = some k) ∧
    (e.id ∈ w.zBucket i k → e.locateScene = some i ∧ toInt32 e.position.getZ = some k)

/-- The deed keeps those away who have departed. -/
def KeepsAway (s : Parting) : Deed → Parting → Prop
  | .onEnterScene r _ sceneId, _ => s.world.Knows sceneId →
    ∀ r' ∈ s.departed, r' ≠ r → s.world.idOf r' ≠ s.world.idOf r
  | .onLeaveScene r a, _ => (∀ e, s.world.entity r = some e → s.world.OnlyHere e) ∧
    (r ∈ s.departed → s.world.Unheard r a)
  | .onDeath r, _ => ∀ id, s.world.idOf r = some id → ∀ i, ¬ s.world.Listed i id
  | .stepMove r _ _, _ => ∀ e, s.world.entity r = some e → e.locateScene ≠ none →
    ∀ r' ∈ s.departed, s.world.idOf r' ≠ some e.id
  | .broadCastCommonProp r a _, _ => r ∈ s.departed → s.world.Unheard r a

variable {s s' : Parting} {w w' : World} {r : Ref} {a : Ambient} {e : Entity} {item : MsgItem}

/-- A broadcast sends nothing exactly if nobody hears it. -/
theorem sendNearbyMessage_silent (h : w.sendNearbyMessage a r item = some w') :
    w'.messages = w.messages ↔ w.Unheard r a := by
  obtain ⟨e, he, ⟨hl, rfl⟩ | ⟨sceneId, s, count, ids, s', hl, hs, hcall, hm⟩⟩ :=
    sendNearbyMessage_cases h
  · refine iff_of_true rfl fun e' sceneId s count ids s' he' hl' => ?_
    obtain rfl : e = e' := Option.some.inj (he.symm.trans he')
    rw [hl] at hl'
    cases hl'
  · have hiff : w.Unheard r a ↔ count = 0 ∨ w.hearers ids = [] := by
      constructor
      · intro hu; exact hu e sceneId s count ids s' he hl hs hcall
      · intro hor e₁ i₁ s₁ count₁ ids₁ s₁' he₁ hl₁ hs₁ hcall₁
        obtain rfl : e = e₁ := Option.some.inj (he.symm.trans he₁)
        obtain rfl : sceneId = i₁ := Option.some.inj (hl.symm.trans hl₁)
        obtain rfl : s = s₁ := Option.some.inj (hs.symm.trans hs₁)
        have heq := Option.some.inj (hcall.symm.trans hcall₁)
        simp only [Prod.mk.injEq] at heq
        rw [← heq.1, ← heq.2.1]
        exact hor
    rw [hm, hiff, List.append_right_eq_self]
    split
    · rename_i hcount
      exact iff_of_true rfl (Or.inl hcount)
    · rename_i hcount
      rw [List.map_eq_nil_iff]
      exact (or_iff_right hcount).symm

theorem broadCastCommonProp_silent {type : MsgType}
    (h : w.broadCastCommonProp pb a r type = some w') :
    w'.messages = w.messages ↔ w.Unheard r a := by
  rw [broadCastCommonProp, Option.bind_eq_bind, Option.bind_eq_some_iff] at h
  obtain ⟨e, _, h⟩ := h
  exact sendNearbyMessage_silent h

theorem sameCells_erase {s : Scene} {x z id : ℤ} (hx : id ∉ s.xEntities.bucket x)
    (hz : id ∉ s.zEntities.bucket z) : s.SameCells { s with
      xEntities := s.xEntities.eraseIn x id
      zEntities := s.zEntities.eraseIn z id } := by
  refine ⟨rfl, fun k => Finset.ext fun id' => ?_, fun k => Finset.ext fun id' => ?_⟩
  · rw [UnorderedMap.mem_eraseIn, and_iff_right_iff_imp]
    rintro hid ⟨rfl, rfl⟩
    exact hx hid
  · rw [UnorderedMap.mem_eraseIn, and_iff_right_iff_imp]
    rintro hid ⟨rfl, rfl⟩
    exact hz hid

theorem unheard_setScene {sceneId : ℤ} {s t : Scene} (hs : w.scenes.find sceneId = some s)
    (he : w.entity r = some e) (hl : e.locateScene = some sceneId) (hst : s.SameCells t) :
    (w.setScene sceneId t).Unheard r a ↔ w.Unheard r a := by
  have ht : (w.setScene sceneId t).scenes.find sceneId = some t :=
    UnorderedMap.find_insertAt_self _ _ _
  constructor
  · intro hu e₁ i s₁ count ids s' he₁ hl₁ hs₁ hcall
    obtain rfl : e = e₁ := Option.some.inj (he.symm.trans he₁)
    obtain rfl : sceneId = i := Option.some.inj (hl.symm.trans hl₁)
    obtain rfl : s = s₁ := Option.some.inj (hs.symm.trans hs₁)
    obtain ⟨t', hcall'⟩ := Scene.getNearByEntities_congr hst.x hst.z hcall
    exact hu e sceneId t count ids t' he hl ht hcall'
  · intro hu e₁ i t₁ count ids t' he₁ hl₁ ht₁ hcall
    obtain rfl : e = e₁ := Option.some.inj (he.symm.trans he₁)
    obtain rfl : sceneId = i := Option.some.inj (hl.symm.trans hl₁)
    obtain rfl : t = t₁ := Option.some.inj (ht.symm.trans ht₁)
    obtain ⟨s', hcall'⟩ := Scene.getNearByEntities_congr hst.symm.x hst.symm.z hcall
    exact hu e sceneId s count ids s' he hl hs hcall'

/-! ### One deed -/

theorem gone_onEnterScene {sceneId : ℤ} (h : Gone s)
    (hs : deed pb s (.onEnterScene r a sceneId) = some s') :
    Gone s' ↔ KeepsAway s (.onEnterScene r a sceneId) s' := by
  obtain ⟨w', hw', rfl⟩ := Option.map_eq_some_iff.mp hs
  have hids := onEnterScene_idOf hw'
  by_cases hk : s.world.Knows sceneId
  · obtain ⟨e, he, _⟩ := onEnterScene_cases hw'
    have hlisted := onEnterScene_listed hw' he hk
    constructor
    · intro h' _ r' hr' hne hid
      rw [idOf_of_entity he] at hid
      exact h' r' (Finset.mem_erase.mpr ⟨hne, hr'⟩) e.id ((hids r').trans hid) sceneId
        ((hlisted _ _).mpr (Or.inl ⟨rfl, rfl⟩))
    · intro hkeeps r' hr' id hid i hi
      obtain ⟨hne, hr'⟩ := Finset.mem_erase.mp hr'
      rw [hids] at hid
      rcases (hlisted i id).mp hi with ⟨_, rfl⟩ | hi
      · exact hkeeps hk r' hr' hne (hid.trans (idOf_of_entity he).symm)
      · exact h r' hr' id hid i hi
  · obtain ⟨e, _, rfl⟩ := onEnterScene_unknown hw' hk
    refine iff_of_true (fun r' hr' id hid i hi => ?_) fun hk' => absurd hk' hk
    exact h r' (Finset.mem_of_mem_erase hr') id ((hids r').symm.trans hid) i
      ((listed_congr_scenes (setEntity_scenes _ _ _) i id).mp hi)

theorem gone_onLeaveScene (h : Gone s) (hw : s.world.onLeaveScene a r = some w') :
    Gone ⟨w', insert r s.departed⟩ ↔ ∀ e, s.world.entity r = some e → s.world.OnlyHere e := by
  obtain ⟨e, he, hcases⟩ := onLeaveScene_cases hw
  have hent : ∀ r', w'.entity r' = s.world.entity r' := fun r' => by
    rw [World.entity, onLeaveScene_objects hw, World.entity]
  constructor
  · intro h' e' he'
    obtain rfl : e = e' := Option.some.inj (he.symm.trans he')
    have hnot := h' r (Finset.mem_insert_self r _) e.id (by rw [idOf, hent, he]; rfl)
    intro i k
    by_cases hl : e.locateScene = some i
    · obtain ⟨x, z, hleft⟩ := onLeaveScene_left hw he hl
      constructor
      · intro hid
        by_contra hcell
        refine hnot i ⟨k, Or.inl ((hleft.x k e.id).mpr ⟨?_, hid⟩)⟩
        rintro ⟨rfl, _⟩
        exact hcell ⟨hl, hleft.cellX⟩
      · intro hid
        by_contra hcell
        refine hnot i ⟨k, Or.inr ((hleft.z k e.id).mpr ⟨?_, hid⟩)⟩
        rintro ⟨rfl, _⟩
        exact hcell ⟨hl, hleft.cellZ⟩
    · have hsame := onLeaveScene_listed_ne hw he hl e.id
      exact ⟨fun hid => absurd (hsame.mpr ⟨k, Or.inl hid⟩) (hnot i),
        fun hid => absurd (hsame.mpr ⟨k, Or.inr hid⟩) (hnot i)⟩
  · intro honly r' hr' id hid i hi
    have hid' : s.world.idOf r' = some id := by rw [← hid, idOf, idOf, hent]
    rcases Finset.mem_insert.mp hr' with rfl | hr'
    · rw [idOf_of_entity he, Option.some.injEq] at hid'
      subst hid'
      by_cases hl : e.locateScene = some i
      · obtain ⟨x, z, hleft⟩ := onLeaveScene_left hw he hl
        obtain ⟨k, hk | hk⟩ := hi
        · obtain ⟨hne, hk⟩ := (hleft.x k e.id).mp hk
          have hcell := (((honly e he) i k).1 hk).2
          exact hne ⟨Option.some.inj (hcell.symm.trans hleft.cellX), rfl⟩
        · obtain ⟨hne, hk⟩ := (hleft.z k e.id).mp hk
          have hcell := (((honly e he) i k).2 hk).2
          exact hne ⟨Option.some.inj (hcell.symm.trans hleft.cellZ), rfl⟩
      · obtain ⟨k, hk | hk⟩ := (onLeaveScene_listed_ne hw he hl e.id).mp hi
        · exact hl (((honly e he) i k).1 hk).1
        · exact hl (((honly e he) i k).2 hk).1
    · exact h r' hr' id hid' i (onLeaveScene_listed_of hw hi)

/-- An entity that is listed nowhere leaves in silence if nobody hears it. -/
theorem silent_onLeaveScene (hw : w.onLeaveScene a r = some w') (he : w.entity r = some e)
    (hnot : ∀ i, ¬ w.Listed i e.id) : w'.messages = w.messages ↔ w.Unheard r a := by
  obtain ⟨e₀, he₀, hcases⟩ := onLeaveScene_cases hw
  obtain rfl : e = e₀ := Option.some.inj (he.symm.trans he₀)
  obtain ⟨hl, rfl⟩ | ⟨sceneId, s, x, z, hl, hs, _, _, hb⟩ := hcases
  · refine iff_of_true rfl fun e₁ i _ _ _ _ he₁ hl₁ => ?_
    obtain rfl : e = e₁ := Option.some.inj (he.symm.trans he₁)
    rw [hl] at hl₁
    cases hl₁
  · have hx : e.id ∉ s.xEntities.bucket x := fun hid =>
      hnot sceneId ⟨x, Or.inl (by rw [xBucket_of_find hs]; exact hid)⟩
    have hz : e.id ∉ s.zEntities.bucket z := fun hid =>
      hnot sceneId ⟨z, Or.inr (by rw [zBucket_of_find hs]; exact hid)⟩
    rw [← unheard_setScene hs he hl (sameCells_erase hx hz), ← sendNearbyMessage_silent hb]
    rfl

theorem gone_onDeath (h : Gone s) (hw : s.world.onDeath r = some w') :
    Gone ⟨w', insert r s.departed⟩ ↔
      ∀ id, s.world.idOf r = some id → ∀ i, ¬ s.world.Listed i id := by
  obtain ⟨_, _, rfl⟩ := Option.map_eq_some_iff.mp hw
  constructor
  · intro h' id hid
    exact h' r (Finset.mem_insert_self r _) id hid
  · intro hnot r' hr' id hid
    rcases Finset.mem_insert.mp hr' with rfl | hr'
    · exact hnot id hid
    · exact h r' hr' id hid

/-- A move brings nobody back if nobody with that id has departed. -/
theorem gone_stepMove {position : Vector3} (h : Gone s)
    (hw : s.world.stepMove pb a r position = some w') :
    (Gone ⟨w', s.departed⟩ ∧ (r ∈ s.departed → w'.messages = s.world.messages)) ↔
      ∀ e, s.world.entity r = some e → e.locateScene ≠ none →
        ∀ r' ∈ s.departed, s.world.idOf r' ≠ some e.id := by
  obtain ⟨e, he, ⟨hl, rfl⟩ | ⟨sceneId, _, _, _, hl, _⟩⟩ := stepMove_cases hw
  · refine iff_of_true ⟨h, fun _ => rfl⟩ fun e' he' hne => ?_
    obtain rfl : e = e' := Option.some.inj (he.symm.trans he')
    exact absurd hl hne
  · have hlisted := stepMove_listed hw he hl
    have hids := stepMove_idOf hw
    have hsome : e.locateScene ≠ none := by rw [hl]; exact Option.some_ne_none _
    constructor
    · rintro ⟨h', _⟩ e' he' _ r' hr' hid
      obtain rfl : e = e' := Option.some.inj (he.symm.trans he')
      exact h' r' hr' e.id ((hids r').trans hid) sceneId ((hlisted _ _).mpr (Or.inl ⟨rfl, rfl⟩))
    · intro hkeeps
      refine ⟨fun r' hr' id hid i hi => ?_, fun hr => ?_⟩
      · rw [hids] at hid
        rcases (hlisted i id).mp hi with ⟨_, rfl⟩ | hi
        · exact hkeeps e he hsome r' hr' hid
        · exact h r' hr' id hid i hi
      · exact absurd (idOf_of_entity he) (hkeeps e he hsome r hr)

theorem gone_deed {d : Deed} (h : Gone s) (hs : deed pb s d = some s') :
    Gone s' ∧ Silent s d s' ↔ KeepsAway s d s' := by
  cases d with
  | onEnterScene r a sceneId =>
    rw [← gone_onEnterScene h hs]
    exact and_iff_left trivial
  | onLeaveScene r a =>
    obtain ⟨w', hw', rfl⟩ := Option.map_eq_some_iff.mp hs
    refine and_congr (gone_onLeaveScene h hw') (forall_congr' fun hr => ?_)
    obtain ⟨e, he, _⟩ := onLeaveScene_cases hw'
    exact silent_onLeaveScene hw' he (h r hr e.id (idOf_of_entity he))
  | onDeath r =>
    obtain ⟨w', hw', rfl⟩ := Option.map_eq_some_iff.mp hs
    obtain ⟨_, _, rfl⟩ := Option.map_eq_some_iff.mp hw'
    exact (and_iff_left fun _ => rfl).trans (gone_onDeath h hw')
  | stepMove r a position =>
    obtain ⟨w', hw', rfl⟩ := Option.map_eq_some_iff.mp hs
    exact gone_stepMove h hw'
  | broadCastCommonProp r a type =>
    obtain ⟨w', hw', rfl⟩ := Option.map_eq_some_iff.mp hs
    have hframe := broadCastCommonProp_frame hw'
    have hgone : Gone ⟨w', s.departed⟩ := fun r' hr' id hid i hi =>
      h r' hr' id ((hframe.idOf r').symm.trans hid) i ((hframe.listed i id).mp hi)
    rw [KeepsAway, ← broadCastCommonProp_silent hw']
    exact and_iff_right hgone

/-- **When departing is for good.**  Throughout a run those who have departed are
listed nowhere and send nothing, exactly if every deed of the run keeps them
away. -/
theorem gone_iff_keepsAway (pb : Protobuf) (s : Parting) (h : Gone s) (ds : List Deed) :
    Always (deed pb) Gone s ds ∧ Along (deed pb) Silent s ds ↔ Along (deed pb) KeepsAway s ds := by
  have hstep : ∀ s d s', Gone s → deed pb s d = some s' →
      (Gone s' ∧ Silent s d s' ↔ KeepsAway s d s') := fun _ _ _ hg hs => gone_deed hg hs
  exact always_and_along_iff hstep ds s h

theorem originWorld_gone : Gone ⟨originWorld, ∅⟩ := fun _ hr => absurd hr (Finset.notMem_empty _)

def homecoming : List Deed :=
  [.onLeaveScene 0 originAmbient, .stepMove 0 originAmbient { x := some 5 },
    .onEnterScene 0 originAmbient 1]

theorem homecoming_gone :
    Always (deed originProtobuf) Gone ⟨originWorld, ∅⟩ homecoming ∧
      Along (deed originProtobuf) Silent ⟨originWorld, ∅⟩ homecoming := by
  refine (gone_iff_keepsAway originProtobuf ⟨originWorld, ∅⟩ originWorld_gone homecoming).mpr ?_
  have hentity : ∀ e, originWorld.entity 0 = some e →
      e = { id := 7, superCommonProp := { entityId := some 7 } } := fun e he =>
    (Option.some.inj he).symm
  have hleave : deed originProtobuf ⟨originWorld, ∅⟩ (.onLeaveScene 0 originAmbient) =
      some ⟨originWorld, {0}⟩ := rfl
  have hmove : deed originProtobuf ⟨originWorld, {0}⟩
      (.stepMove 0 originAmbient { x := some 5 }) = some ⟨originWorld, {0}⟩ := rfl
  rw [homecoming, along_cons_of_step hleave, along_cons_of_step hmove]
  refine ⟨⟨fun e _ i k => ⟨fun hid => ?_, fun hid => ?_⟩, fun hr => ?_⟩, fun e he hl => ?_, ?_⟩
  · exact absurd ⟨k, Or.inl hid⟩ (originWorld_not_listed i e.id)
  · exact absurd ⟨k, Or.inr hid⟩ (originWorld_not_listed i e.id)
  · exact absurd hr (Finset.notMem_empty _)
  · rw [hentity e he] at hl
    exact absurd rfl hl
  · refine fun s' _ => ⟨fun _ r' hr' hne => ?_, trivial⟩
    exact absurd (Finset.mem_singleton.mp hr') hne

def lateMove : List Deed :=
  [.onEnterScene 0 originAmbient 1, .onLeaveScene 0 originAmbient,
    .stepMove 0 originAmbient { x := some 5 }]

/-- The move lists the entity again, in cell `5`. -/
theorem lateMove_not_gone : Gone ⟨originWorld, ∅⟩ ∧
    ¬ (Always (deed originProtobuf) Gone ⟨originWorld, ∅⟩ lateMove ∧
      Along (deed originProtobuf) Silent ⟨originWorld, ∅⟩ lateMove) := by
  refine ⟨originWorld_gone, fun h => ?_⟩
  have hrun : (run (deed originProtobuf) ⟨originWorld, ∅⟩ lateMove).map (fun s =>
      (s.departed, s.world.idOf 0, decide (7 ∈ s.world.xBucket 1 5))) =
        some ({0}, some 7, true) := by decide +kernel
  obtain ⟨s, hs, heq⟩ := Option.map_eq_some_iff.mp hrun
  simp only [Prod.mk.injEq, decide_eq_true_eq] at heq
  obtain ⟨hdeparted, hid, hlisted⟩ := heq
  exact h.1.last _ _ hs 0 (hdeparted ▸ Finset.mem_singleton_self 0) 7 hid 1 ⟨5, Or.inl hlisted⟩

end GameService.World
