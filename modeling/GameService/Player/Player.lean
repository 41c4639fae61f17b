import GameService.Player.Redis
import GameService.World.Entity

/-!
# Player

`Player.cpp`.  `Load` and `Save` carry a player between the object and its
record; the handlers of the client's packets act on the player at an address of
the world.  A `Game` is all they touch: the world, the database, and what was
sent to each session.

`Load` ignores whether the record parses, and returns `0` on every path, also
when there is no record; its callers take a non-zero value for failure.
-/

namespace GameService

open Lib Asset

namespace Player

/-- The values of `INVENTORY_TYPE` without the closing `COUNT`. -/
def inventoryTypes : ℕ := inventoryTypeDescriptor.length - 1

/-- The inventories `Load` adds so that there is one of each type. -/
def addedInventories (size : ℕ) : List Inventory :=
  (List.range' size (inventoryTypes - size)).map fun index =>
    { inventoryType := some (index + 1) }

/-- The `do` block of `Load`. -/
def initInventories (stuff : Asset.Player) : Asset.Player :=
  let inventories := stuff.getInventory.inventories
  if inventories.length < inventoryTypes then
    { stuff with
      inventory := some { inventories := inventories ++ addedInventories inventories.length } }
  else stuff

/-- `Load` with the record that `GetPlayer` returned; the first component is
what it returns. -/
def loadFrom (c : Codec Asset.Player) (record : Bytes) (p : Player) : ℤ × Player :=
  if record = [] then (0, p)
  else
    let stuff := (c.parse record).2
    let p := { p with stuff := stuff, superCommonProp := stuff.getCommonProp }
    (0, { p with stuff := initInventories p.stuff })

def load (c : Codec Asset.Player) (o : Outcome) (redis : Redis) (p : Player) : ℤ × Player :=
  loadFrom c (redis.getPlayer o p.id) p

/-- What `Save` writes to the player itself. -/
def saved (p : Player) : Player :=
  let prop := if p.superCommonProp.getEntityType = .player then p.superCommonProp
    else { p.superCommonProp with entityType := some .player }
  { p with superCommonProp := prop, stuff := { p.stuff with commonProp := some prop } }

def record (c : Codec Asset.Player) (p : Player) : Bytes := c.serialize p.saved.stuff

def save (c : Codec Asset.Player) (o : Outcome) (redis : Redis) (p : Player) : Player × Redis :=
  (p.saved, redis.savePlayer o p.id (p.record c))

@[simp] theorem saved_commonProp (p : Player) :
    p.saved.stuff.getCommonProp = p.saved.superCommonProp := rfl

theorem loadFrom_nil (c : Codec Asset.Player) (p : Player) : loadFrom c [] p = (0, p) := by
  rw [loadFrom, if_pos rfl]

theorem loadFrom_ret (c : Codec Asset.Player) (record : Bytes) (p : Player) :
    (loadFrom c record p).1 = 0 := by
  rw [loadFrom]
  split <;> rfl

theorem loadFrom_of_ne (c : Codec Asset.Player) {record : Bytes} (h : record ≠ []) (p : Player) :
    (loadFrom c record p).2.stuff = initInventories (c.parse record).2 ∧
      (loadFrom c record p).2.superCommonProp = (c.parse record).2.getCommonProp := by
  rw [loadFrom, if_neg h]
  exact ⟨rfl, rfl⟩

theorem initInventories_of_le {stuff : Asset.Player}
    (h : inventoryTypes ≤ stuff.getInventory.inventories.length) :
    initInventories stuff = stuff := if_neg (not_lt.mpr h)

@[simp] theorem initInventories_commonProp (stuff : Asset.Player) :
    (initInventories stuff).commonProp = stuff.commonProp := by
  rw [initInventories]
  split <;> rfl

end Player

/-- What a session is given to send. -/
inductive Outgoing
  | playerInfo (player : Asset.Player)
  | enterGame (message : EnterGame)
  deriving DecidableEq

/-- What the handlers of a player act on: the world, the database, and what was
passed to the `AsyncSend` of each session. -/
structure Game where
  world : World := {}
  redis : Redis := {}
  sent : ℕ → List Outgoing := fun _ => []

namespace Game

variable (pb : Protobuf)

def player (g : Game) (r : Ref) : Option Player :=
  match g.world.objects.find r with
  | some (.player p) => some p
  | _ => none

def setPlayer (g : Game) (r : Ref) (p : Player) : Game :=
  { g with world := { g.world with objects := g.world.objects.insertAt r (.player p) } }

def sendProtocol (g : Game) (p : Player) (message : Outgoing) : Game :=
  { g with sent := fun session =>
      if session = p.session then g.sent session ++ [message] else g.sent session }

def load (g : Game) (r : Ref) (o : Outcome) : Option (ℤ × Game) := do
  let p ← g.player r
  let (ret, p) := p.load pb.player o g.redis
  return (ret, g.setPlayer r p)

/-- `Save`, which always returns `0`. -/
def save (g : Game) (r : Ref) (o : Outcome) : Option Game := do
  let p ← g.player r
  let (p, redis) := p.save pb.player o g.redis
  return { g.setPlayer r p with redis := redis }

def sendPlayer (g : Game) (r : Ref) : Option Game := do
  let p ← g.player r
  return g.sendProtocol p (.playerInfo p.stuff)

/-- The body of `OnEnterGame` and of `CmdLogin`, with what they return. -/
def loadAndSend (g : Game) (r : Ref) (o : Outcome) : Option (ℤ × Game) := do
  let (ret, g) ← g.load pb r o
  if ret ≠ 0 then return (1, g)
  else return (0, ← g.sendPlayer r)

def onEnterGame (g : Game) (r : Ref) (o : Outcome) : Option (ℤ × Game) := g.loadAndSend pb r o

def cmdLogin (g : Game) (r : Ref) (o : Outcome) : Option (ℤ × Game) := g.loadAndSend pb r o

def cmdEnterScene (g : Game) (r : Ref) (a : Ambient) (sceneId : ℤ) : Option Game := do
  let sceneId := if sceneId = 0 then 589825 else sceneId
  return { g with world := ← g.world.onEnterScene pb a r sceneId }

def cmdMove (g : Game) (r : Ref) (a : Ambient) (position : Vector3) : Option Game := do
  return { g with world := ← g.world.stepMove pb a r position }

/-- `Logout`: the provisional data are not stored. -/
def logout (g : Game) (r : Ref) (a : Ambient) (o : Outcome) : Option Game := do
  let p ← g.player r
  let g := g.setPlayer r { p with stuff := { p.stuff with provisionalProp := some {} } }
  let g ← g.save pb r o
  return { g with world := ← g.world.onLeaveScene a r }

/-! ### What the handlers do -/

variable {pb} {g g' : Game} {r r' : Ref} {p p' : Player} {o : Outcome} {ret : ℤ}

@[simp] theorem player_setPlayer (g : Game) (r : Ref) (p : Player) :
    (g.setPlayer r p).player r = some p := by
  rw [player, setPlayer, UnorderedMap.find_insertAt_self]

theorem player_setPlayer_ne (g : Game) (h : r' ≠ r) (p : Player) :
    (g.setPlayer r p).player r' = g.player r' := by
  rw [player, player, setPlayer, UnorderedMap.find_insertAt_ne _ h]

@[simp] theorem sent_setPlayer (g : Game) (r : Ref) (p : Player) :
    (g.setPlayer r p).sent = g.sent := rfl

theorem player_eq_some : g.player r = some p ↔ g.world.objects.find r = some (.player p) := by
  rw [player]
  split
  · rename_i q h
    rw [h, Option.some.injEq, Option.some.injEq, Object.player.injEq]
  · rename_i h
    constructor
    · intro hp; cases hp
    · intro hp; exact absurd hp (h p)

theorem entity_of_player (h : g.player r = some p) : g.world.entity r = some p.toEntity := by
  rw [World.entity, player_eq_some.mp h]
  rfl

theorem player_congr (h : g'.world.objects.find r = g.world.objects.find r) :
    g'.player r = g.player r := by rw [player, h, player]

/-- **`Load`** leaves in the player what `Player.load` gives, and returns `0`. -/
theorem load_eq (h : g.player r = some p) (o : Outcome) :
    g.load pb r o = some (0, g.setPlayer r (p.load pb.player o g.redis).2) := by
  rw [load, h]
  simp only [Option.bind_eq_bind, Option.bind_some, Option.pure_def, Option.some.injEq,
    Prod.mk.injEq, and_true]
  exact Player.loadFrom_ret _ _ _

theorem save_eq (h : g.player r = some p) (o : Outcome) :
    g.save pb r o = some { g.setPlayer r p.saved with
      redis := g.redis.savePlayer o p.id (p.record pb.player) } := by
  rw [save, h]
  rfl

/-- **`OnEnterGame` and `CmdLogin`** send what `Load` left and return `0`,
whatever the database did. -/
theorem loadAndSend_eq (h : g.player r = some p) (o : Outcome) :
    g.loadAndSend pb r o = some (0,
      let p := (p.load pb.player o g.redis).2
      (g.setPlayer r p).sendProtocol p (.playerInfo p.stuff)) := by
  rw [loadAndSend, load_eq h]
  simp only [Option.bind_eq_bind, Option.bind_some, ne_eq, not_true_eq_false, if_false, sendPlayer,
    player_setPlayer]
  rfl

theorem save_eq_some (h : g.save pb r o = some g') : ∃ p, g.player r = some p ∧
    g' = { g.setPlayer r p.saved with
      redis := g.redis.savePlayer o p.id (p.record pb.player) } := by
  cases hp : g.player r with
  | none => rw [save, hp] at h; cases h
  | some p =>
    rw [save_eq hp, Option.some.injEq] at h
    exact ⟨p, rfl, h.symm⟩

theorem loadAndSend_eq_some (h : g.loadAndSend pb r o = some (ret, g')) :
    ∃ p, g.player r = some p ∧ g' = (g.setPlayer r (p.load pb.player o g.redis).2).sendProtocol
      (p.load pb.player o g.redis).2 (.playerInfo (p.load pb.player o g.redis).2.stuff) := by
  cases hp : g.player r with
  | none => rw [loadAndSend, load, hp] at h; cases h
  | some p =>
    rw [loadAndSend_eq hp, Option.some.injEq] at h
    cases h
    exact ⟨p, rfl, rfl⟩

/-- `OnEnterGame` and `CmdLogin` touch no other player, and store nothing. -/
theorem loadAndSend_other (h : g.loadAndSend pb r o = some (ret, g')) :
    (∀ r' ≠ r, g'.player r' = g.player r') ∧ g'.redis = g.redis := by
  obtain ⟨p, _, rfl⟩ := loadAndSend_eq_some h
  exact ⟨fun r' hr => player_setPlayer_ne g hr _, rfl⟩

end Game

end GameService
