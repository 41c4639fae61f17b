import GameService.Lib.Run
import GameService.World.Index

/-!
# Registration

`EntityManager` finds an object by its id, and everything that is to reach an
entity goes through it.  An entity is registered when it enters a scene, and
taken out by `OnDeath` and by its destructor.  `Add` keeps the first object of
an id, and `Erase` takes whatever object the id has.

A `Roster` is the world with the entities that have entered a scene and have
neither died nor been destroyed since.  A turn is the creation of an object, a
call of `OnEnterScene` or `OnDeath`, or the destruction of an object to which no
pointer is left; the one in the registry counts.  Ids are whatever the creator
gives: the counter of the database, the `player_id` of a client's `EnterGame`,
the `global_id` of an asset.

`registered_iff_takesOwn` is the exact condition under which the registry has
every such entity, and loses an object only through the object itself: nobody
enters, dies or is destroyed while another object has its id in the registry.
-/

namespace GameService.World

open Lib Asset

variable {pb : Protobuf}

def getEntity (w : World) (entityId : ℤ) : Option Ref := w.entities.find entityId

/-- `EntityManager::Erase`, when somebody else holds the object. -/
def erase (w : World) (entityId : ℤ) : World := { w with entities := w.entities.erase entityId }

def onDeath (w : World) (r : Ref) : Option World := (w.idOf r).map w.erase

/-- `~Entity` and the end of the object; the registry has no pointer to it. -/
def destroy (w : World) (r : Ref) : Option World := do
  let entityId ← w.idOf r
  if w.getEntity entityId = some r then none
  else return { w.erase entityId with objects := w.objects.erase r }

/-- The world and the entities that are to be found in the registry. -/
structure Roster where
  world : World
  entered : Finset Ref := ∅

inductive Turn
  | create (r : Ref) (o : Object)
  | onEnterScene (r : Ref) (a : Ambient) (sceneId : ℤ)
  | onDeath (r : Ref)
  | destroy (r : Ref)

def Turn.subject : Turn → Ref
  | .create r _ => r
  | .onEnterScene r _ _ => r
  | .onDeath r => r
  | .destroy r => r

def turn (pb : Protobuf) (s : Roster) : Turn → Option Roster
  | .create r o =>
    match s.world.objects.find r with
    | none => some { s with world := { s.world with objects := s.world.objects.insertAt r o } }
    | some _ => none
  | .onEnterScene r a sceneId => (s.world.onEnterScene pb a r sceneId).map fun w =>
      ⟨w, if s.world.Knows sceneId then insert r s.entered else s.entered⟩
  | .onDeath r => (s.world.onDeath r).map fun w => ⟨w, s.entered.erase r⟩
  | .destroy r => (s.world.destroy r).map fun w => ⟨w, s.entered.erase r⟩

/-- **The registry has them all**: `GetEntity` of the id of an entity that has
entered is that entity. -/
def Registered (s : Roster) : Prop :=
  ∀ r ∈ s.entered, ∃ entityId, s.world.idOf r = some entityId ∧ s.world.getEntity entityId = some r

/-- No other object loses its registration. -/
def KeepsOthers (s : Roster) (t : Turn) (s' : Roster) : Prop :=
  ∀ entityId r, r ≠ t.subject → s.world.getEntity entityId = some r →
    s'.world.getEntity entityId = some r

/-- The registry has no other object under the id of this one. -/
def OwnsId (w : World) (r : Ref) : Prop :=
  ∀ entityId, w.idOf r = some entityId → ∀ r', w.getEntity entityId = some r' → r' = r

/-- An entity that enters a scene, dies or is destroyed has its id for itself. -/
def TakesOwn (s : Roster) : Turn → Roster → Prop
  | .create _ _, _ => True
  | .onEnterScene r _ sceneId, _ => s.world.Knows sceneId → s.world.OwnsId r
  | .onDeath r, _ => s.world.OwnsId r
  | .destroy r, _ => s.world.OwnsId r

instance (w : World) (r : Ref) : Decidable (w.OwnsId r) :=
  inferInstanceAs (Decidable (∀ entityId, w.idOf r = some entityId →
    ∀ r', w.getEntity entityId = some r' → r' = r))

instance (s : Roster) (t : Turn) (s' : Roster) : Decidable (TakesOwn s t s') :=
  match t with
  | .create _ _ => inferInstanceAs (Decidable True)
  | .onEnterScene r _ sceneId =>
    inferInstanceAs (Decidable (s.world.Knows sceneId → s.world.OwnsId r))
  | .onDeath r => inferInstanceAs (Decidable (s.world.OwnsId r))
  | .destroy r => inferInstanceAs (Decidable (s.world.OwnsId r))

/-! ### What a turn does to the registry -/

variable {s s' : Roster} {t : Turn} {r : Ref} {w : World} {entityId : ℤ}

theorem registered_create {o : Object} (h : Registered s)
    (hs : turn pb s (.create r o) = some s') : Registered s' ∧ KeepsOthers s (.create r o) s' := by
  cases hr : s.world.objects.find r with
  | some _ => rw [turn, hr] at hs; cases hs
  | none =>
    rw [turn, hr] at hs
    cases hs
    refine ⟨fun r' hr' => ?_, fun _ _ _ hget => hget⟩
    obtain ⟨entityId, hid, hget⟩ := h r' hr'
    have hne : r' ≠ r := by
      rintro rfl
      rw [idOf, World.entity, hr] at hid
      cases hid
    refine ⟨entityId, ?_, hget⟩
    rw [← hid, idOf, idOf, World.entity, World.entity, UnorderedMap.find_insertAt_ne _ hne]

theorem registered_onEnterScene {a : Ambient} {sceneId : ℤ} (h : Registered s)
    (hs : turn pb s (.onEnterScene r a sceneId) = some s') :
    Registered s' ∧ KeepsOthers s (.onEnterScene r a sceneId) s' ↔
      (s.world.Knows sceneId → s.world.OwnsId r) := by
  obtain ⟨w', hw', rfl⟩ := Option.map_eq_some_iff.mp hs
  have hids := onEnterScene_idOf hw'
  rcases onEnterScene_entities hw' with ⟨hk, hentities⟩ | ⟨hk, e, he, hentities⟩
  · refine ⟨fun _ hk' => absurd hk' hk, fun _ => ⟨fun r' hr' => ?_, fun id r' _ hget => ?_⟩⟩
    · change r' ∈ (if s.world.Knows sceneId then insert r s.entered else s.entered) at hr'
      rw [if_neg hk] at hr'
      obtain ⟨entityId, hid, hget⟩ := h r' hr'
      exact ⟨entityId, (hids r').trans hid, by rw [getEntity, hentities]; exact hget⟩
    · rw [getEntity, hentities]
      exact hget
  · have hid := idOf_of_entity he
    constructor
    · rintro ⟨hreg, _⟩ _ entityId hid' r' hget
      obtain rfl : e.id = entityId := Option.some.inj (hid.symm.trans hid')
      have hr : r ∈ (if s.world.Knows sceneId then insert r s.entered else s.entered) := by
        rw [if_pos hk]
        exact Finset.mem_insert_self r _
      obtain ⟨entityId, hidr, hgetr⟩ := hreg r hr
      obtain rfl : e.id = entityId := Option.some.inj (hid.symm.trans ((hids r).symm.trans hidr))
      rw [getEntity, hentities, UnorderedMap.find_emplace_of_some hget] at hgetr
      exact Option.some.inj hgetr
    · intro hown
      refine ⟨fun r' hr' => ?_, fun id r' _ hget => ?_⟩
      · change r' ∈ (if s.world.Knows sceneId then insert r s.entered else s.entered) at hr'
        rw [if_pos hk, Finset.mem_insert] at hr'
        rcases hr' with rfl | hr'
        · refine ⟨e.id, (hids r').trans hid, ?_⟩
          rw [getEntity, hentities]
          cases hfind : s.world.entities.find e.id with
          | none => exact UnorderedMap.find_emplace_of_none hfind r'
          | some r' =>
            obtain rfl := hown hk e.id hid r' hfind
            exact UnorderedMap.find_emplace_of_some hfind
        · obtain ⟨entityId, hid', hget⟩ := h r' hr'
          refine ⟨entityId, (hids r').trans hid', ?_⟩
          rw [getEntity, hentities]
          exact UnorderedMap.find_emplace_of_some hget
      · rw [getEntity, hentities]
        exact UnorderedMap.find_emplace_of_some hget

/-- Taking an id out of the registry takes nobody else out exactly if nobody else
has it. -/
theorem registered_erase (h : Registered s) (hid : s.world.idOf r = some entityId)
    (hentities : w.entities = s.world.entities.erase entityId)
    (hids : ∀ r', r' ≠ r → w.idOf r' = s.world.idOf r') :
    (Registered ⟨w, s.entered.erase r⟩ ∧ ∀ id r', r' ≠ r → s.world.getEntity id = some r' →
      w.getEntity id = some r') ↔ s.world.OwnsId r := by
  constructor
  · rintro ⟨_, hkeeps⟩ id hid' r' hget
    obtain rfl : entityId = id := Option.some.inj (hid.symm.trans hid')
    by_contra hne
    have hkept := hkeeps entityId r' hne hget
    rw [getEntity, hentities, UnorderedMap.find_erase_self] at hkept
    cases hkept
  · intro hown
    have hkeeps : ∀ id r', r' ≠ r → s.world.getEntity id = some r' → w.getEntity id = some r' := by
      intro id r' hne hget
      have hneId : id ≠ entityId := by
        rintro rfl
        exact hne (hown id hid r' hget)
      rw [getEntity, hentities, UnorderedMap.find_erase_ne _ hneId]
      exact hget
    refine ⟨fun r' hr' => ?_, hkeeps⟩
    obtain ⟨hne, hr'⟩ := Finset.mem_erase.mp hr'
    obtain ⟨id, hid', hget⟩ := h r' hr'
    exact ⟨id, (hids r' hne).trans hid', hkeeps id r' hne hget⟩

theorem registered_onDeath (h : Registered s) (hs : turn pb s (.onDeath r) = some s') :
    Registered s' ∧ KeepsOthers s (.onDeath r) s' ↔ s.world.OwnsId r := by
  obtain ⟨w', hw', rfl⟩ := Option.map_eq_some_iff.mp hs
  obtain ⟨entityId, hid, rfl⟩ := Option.map_eq_some_iff.mp hw'
  exact registered_erase h hid rfl fun _ _ => rfl

theorem registered_destroy (h : Registered s) (hs : turn pb s (.destroy r) = some s') :
    Registered s' ∧ KeepsOthers s (.destroy r) s' ↔ s.world.OwnsId r := by
  obtain ⟨w', hw', rfl⟩ := Option.map_eq_some_iff.mp hs
  obtain ⟨entityId, hid, hw'⟩ := Option.bind_eq_some_iff.mp hw'
  split at hw'
  · cases hw'
  · cases hw'
    refine registered_erase h hid rfl fun r' hne => ?_
    rw [idOf, idOf, World.entity, World.entity]
    show (Option.map Object.entity ((s.world.objects.erase r).find r')).map _ = _
    rw [UnorderedMap.find_erase_ne _ hne]

theorem registered_turn (h : Registered s) (hs : turn pb s t = some s') :
    Registered s' ∧ KeepsOthers s t s' ↔ TakesOwn s t s' := by
  cases t with
  | create r o => exact iff_of_true (registered_create h hs) trivial
  | onEnterScene r a sceneId => exact registered_onEnterScene h hs
  | onDeath r => exact registered_onDeath h hs
  | destroy r => exact registered_destroy h hs

/-- **When the registry can be relied on.**  Throughout a run every entity that
has entered a scene is found under its id, and nobody else's entry is removed,
exactly if nobody enters, dies or is destroyed while the registry has another
object under its id. -/
theorem registered_iff_takesOwn (pb : Protobuf) (s : Roster) (h : Registered s) (ts : List Turn) :
    Always (turn pb) Registered s ts ∧ Along (turn pb) KeepsOthers s ts ↔
      Along (turn pb) TakesOwn s ts := by
  have hstep : ∀ s t s', Registered s → turn pb s t = some s' →
      (Registered s' ∧ KeepsOthers s t s' ↔ TakesOwn s t s') :=
    fun _ _ _ hreg hs => registered_turn hreg hs
  exact always_and_along_iff hstep ts s h

def quietRoster : Roster where
  world := { scenes := (∅ : UnorderedMap ℤ Scene).insertAt 1 { id := 1 } }

theorem quietRoster_registered : Registered quietRoster :=
  fun _ hr => absurd hr (Finset.notMem_empty _)

def namesake (session : ℕ) : Object :=
  .player { id := 7, superCommonProp := { entityId := some 7 }, session := session }

theorem quietRoster_takesOwn :
    Always (turn originProtobuf) Registered quietRoster
        [.create 0 (namesake 1), .onEnterScene 0 originAmbient 1, .onDeath 0, .destroy 0,
          .create 1 (namesake 2)] ∧
      Along (turn originProtobuf) KeepsOthers quietRoster
        [.create 0 (namesake 1), .onEnterScene 0 originAmbient 1, .onDeath 0, .destroy 0,
          .create 1 (namesake 2)] :=
  (registered_iff_takesOwn originProtobuf quietRoster quietRoster_registered _).mpr
    (by decide +kernel)

/-- A player enters; a second one is given its id and is destroyed. -/
def namesakes : List Turn :=
  [.create 0 (namesake 1), .onEnterScene 0 originAmbient 1, .create 1 (namesake 2), .destroy 1]

/-- The first one is still there, but not in the registry. -/
theorem namesakes_not_registered : Registered quietRoster ∧
    ¬ (Always (turn originProtobuf) Registered quietRoster namesakes ∧
      Along (turn originProtobuf) KeepsOthers quietRoster namesakes) := by
  refine ⟨quietRoster_registered, fun h => ?_⟩
  have hrun : (run (turn originProtobuf) quietRoster namesakes).map (fun s =>
      (s.entered, s.world.idOf 0, s.world.getEntity 7)) = some ({0}, some 7, none) := by
    decide +kernel
  obtain ⟨s, hs, heq⟩ := Option.map_eq_some_iff.mp hrun
  simp only [Prod.mk.injEq] at heq
  obtain ⟨hentered, hid, hget⟩ := heq
  obtain ⟨entityId, hid', hget'⟩ := h.1.last _ _ hs 0 (hentered ▸ Finset.mem_singleton_self 0)
  obtain rfl : 7 = entityId := Option.some.inj (hid.symm.trans hid')
  rw [hget] at hget'
  cases hget'

end GameService.World
