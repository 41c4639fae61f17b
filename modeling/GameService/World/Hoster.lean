import GameService.Asset.Manager
import GameService.CommonUtil
import GameService.Player.Move
import Mathlib.Order.Monotone.Defs

/-!
# Residents

`Hoster.cpp`, and what `World::Load` does before there is any client.  The scenes
and the residents are made from the assets of two types, in the order in which the
hash set of each enumerates its pointers.  A resident takes the `global_id` of its
asset for its id and enters the scene that its `human_prop` names; one whose scene
is not known is left out.

`Update` is called at every beat of the world.  At every twentieth it draws two
numbers and moves the resident by them, always from the position in its asset,
which nothing changes.  That position is a `float` for each coordinate, and so is
the sum; a `Rounding` is what the conversion to `float` makes of an exact number.
-/

namespace GameService

open Lib Asset

/-- The casts of messages of the asset tables to their classes. -/
structure AssetClasses (μ : Type) where
  hoster : μ → Asset.Hoster
  scene : μ → Asset.Scene

namespace AssetClasses

variable {μ : Type} (c : AssetClasses μ)

/-- `dynamic_cast<Asset::Hoster*>`. -/
def castHoster (o : AssetObject μ) : Option Asset.Hoster :=
  if o.descriptor = .hoster then some (c.hoster o.message) else none

/-- `dynamic_cast<Asset::Scene*>`. -/
def castScene (o : AssetObject μ) : Option Asset.Scene :=
  if o.descriptor = .scene then some (c.scene o.message) else none

end AssetClasses

/-- The messages of a type as an iterator meets the pointers to them. -/
def AssetManager.messagesOf {μ : Type} (s : AssetManager μ) (order : Enumeration ℕ)
    (messageType : ℕ) : List (ℕ × AssetObject μ) :=
  (order.order (s.getMessagesByType messageType)).filterMap fun p =>
    (s.objects[p]?).map fun o => (p, o)

/-- `SceneManager::Load`, from the scenes so far. -/
def SceneManager.load {μ : Type} (c : AssetClasses μ) : List (ℕ × AssetObject μ) →
    UnorderedMap ℤ Scene → Bool × UnorderedMap ℤ Scene
  | [], scenes => (true, scenes)
  | (_, o) :: os, scenes =>
    match c.castScene o with
    | none => (false, scenes)
    | some s =>
      SceneManager.load c os
        (scenes.emplace s.getCommonProp.getGlobalId { id := s.getCommonProp.getGlobalId })

/-- What becomes of an exact number in a `float`. -/
structure Rounding where
  round : ℚ → ℚ
  mono : Monotone round

namespace Hoster

/-- `Hoster(Asset::Hoster*)`; the asset itself is its `_stuff`. -/
def new (hoster : Asset.Hoster) : Entity := { superCommonProp := hoster.getHumanProp }

/-- Where `Update` goes with these two numbers. -/
def destination (fl : Rounding) (hoster : Asset.Hoster) (x z : ℤ) : Vector3 :=
  let position := hoster.getHumanProp.getPosition
  { position with
    x := some (fl.round (position.getX + fl.round x))
    z := some (fl.round (position.getZ + fl.round z)) }

/-- `Update` with what `Random` draws.  The remainder is that of C++, which has the
sign of `heart_count`. -/
def update (pb : Protobuf) (fl : Rounding) (a : Ambient) (w : World) (r : Ref)
    (stuff : Asset.Hoster) (heartCount : ℤ) (draw : ℤ × ℤ) : Option (Bool × World) := do
  let e ← w.entity r
  match e.locateScene with
  | none => return (false, w)
  | some _ =>
    if heartCount.tmod 20 = 0 then
      let speed := stuff.getHumanProp.getSpeed
      let low ← checked32 (-speed)
      let x ← CommonUtil.random low speed draw.1
      let z ← CommonUtil.random low speed draw.2
      return (true, ← w.stepMove pb a r (destination fl stuff x z))
    else return (true, w)

/-- The numbers that `Random` may draw. -/
def Draws (stuff : Asset.Hoster) (draw : ℤ × ℤ) : Prop :=
  let speed := stuff.getHumanProp.getSpeed
  (-speed ≤ draw.1 ∧ draw.1 ≤ speed) ∧ -speed ≤ draw.2 ∧ draw.2 ≤ speed

instance (stuff : Asset.Hoster) (draw : ℤ × ℤ) : Decidable (Draws stuff draw) :=
  inferInstanceAs (Decidable (_ ∧ _))

section

variable {pb : Protobuf} {fl : Rounding} {a : Ambient} {w : World} {r : Ref} {e : Entity}
  {stuff : Asset.Hoster} {heartCount : ℤ} {draw : ℤ × ℤ} {sceneId : ℤ} {res : Bool × World}

theorem update_of_rest (he : w.entity r = some e) (hl : e.locateScene = some sceneId)
    (h : heartCount.tmod 20 ≠ 0) :
    update pb fl a w r stuff heartCount draw = some (true, w) := by
  simp only [update, he, hl, Option.bind_eq_bind, Option.bind_some, if_neg h, Option.pure_def]

/-- At every twentieth beat it moves to where it draws. -/
theorem update_eq_some_iff (he : w.entity r = some e) (hl : e.locateScene = some sceneId)
    (h : heartCount.tmod 20 = 0) : update pb fl a w r stuff heartCount draw = some res ↔
      InInt32 (-stuff.getHumanProp.getSpeed) ∧ Draws stuff draw ∧ res.1 = true ∧
        w.stepMove pb a r (destination fl stuff draw.1 draw.2) = some res.2 := by
  simp only [update, he, hl, Option.bind_eq_bind, Option.bind_some, if_pos h, Option.pure_def,
    Option.bind_eq_some_iff, CommonUtil.random, Option.ite_none_right_eq_some, Option.some.injEq,
    checked32_eq_some]
  constructor
  · rintro ⟨low, ⟨hlow, rfl⟩, x, ⟨hx, rfl⟩, z, ⟨hz, rfl⟩, w', hw', rfl⟩
    exact ⟨hlow, ⟨hx, hz⟩, rfl, hw'⟩
  · rintro ⟨hlow, ⟨hx, hz⟩, hres, hw'⟩
    exact ⟨_, ⟨hlow, rfl⟩, _, ⟨hx, rfl⟩, _, ⟨hz, rfl⟩, res.2, hw', Prod.ext hres.symm rfl⟩

end

end Hoster

/-- `_hosters`, and the `_stuff` of each of them. -/
structure HosterManager where
  hosters : Finset Ref := ∅
  stuff : UnorderedMap Ref Asset.Hoster := ∅

/-- What the birth of a resident takes from outside. -/
structure Birth where
  address : Ref
  ambient : Ambient

/-- A resident by its address and its asset. -/
structure Native where
  address : Ref
  asset : Asset.Hoster

namespace Native

def id (n : Native) : ℤ := n.asset.getCommonProp.getGlobalId

def sceneId (n : Native) : ℤ := n.asset.getHumanProp.getSceneId

def position (n : Native) : Vector3 := n.asset.getHumanProp.getPosition

def entity (n : Native) : Entity := (Hoster.new n.asset).setId n.id

def atHome (n : Native) : Entity := World.inScene n.entity n.sceneId

@[simp] theorem id_entity (n : Native) : n.entity.id = n.id := rfl

end Native

namespace HosterManager

variable {μ : Type} (c : AssetClasses μ) (pb : Protobuf)

/-- A resident is made, is born and goes into `_hosters`. -/
def bear (a : Ambient) (s : World × HosterManager) (n : Native) :
    Option (World × HosterManager) :=
  if s.1.objects.find n.address = none then
    (World.onEnterScene pb a
      { s.1 with objects := s.1.objects.insertAt n.address (.hoster n.entity) }
      n.address n.sceneId).map fun w =>
        (w, { hosters := insert n.address s.2.hosters
              stuff := s.2.stuff.insertAt n.address n.asset })
  else none

/-- `Load`, from where it stands. -/
def load (birth : ℕ → Birth) : List (ℕ × AssetObject μ) → World × HosterManager →
    Option (Bool × World × HosterManager)
  | [], s => some (true, s)
  | (p, o) :: os, s =>
    match c.castHoster o with
    | none => some (false, s)
    | some h =>
      if s.1.Knows h.getHumanProp.getSceneId then
        (bear pb (birth p).ambient s ⟨(birth p).address, h⟩).bind (load birth os)
      else load birth os s

end HosterManager

/-- What `World::Load` takes from outside, beyond the files. -/
structure Startup where
  scenes : Enumeration ℕ
  hosters : Enumeration ℕ
  birth : ℕ → Birth

def World.load {μ : Type} (codec : AssetCodec μ) (c : AssetClasses μ) (pb : Protobuf)
    (root : Option Listing) (u : Startup) : Option (Bool × World × HosterManager) :=
  let (loaded, assets) := AssetManager.load codec root
  if !loaded then some (false, {}, {})
  else
    let (loaded, scenes) := SceneManager.load c (assets.messagesOf u.scenes 9) ∅
    if !loaded then some (false, { scenes := scenes }, {})
    else HosterManager.load c pb u.birth (assets.messagesOf u.hosters 6) ({ scenes := scenes }, {})

end GameService
