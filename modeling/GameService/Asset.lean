import Mathlib.Data.Rat.Defs

/-!
# The protobuf data the server works on

The messages of `P_Asset.proto`, `P_Protocol.proto` and `P_Server.proto` that
the modelled functions read, build or store.  The fields keep the names of the
`.proto` files.  An `optional` field is an `Option`, so that a field that was
never set differs from one set to its default, as it does on the wire; the
getters give the default.  A `float` coordinate is taken as the exact number it
stands for.

`MsgItem` is the exception: nothing serializes it, so its fields hold the value
the getter would return, and the structure's defaults are the proto defaults.
-/

namespace GameService.Asset

/-- A `std::string` or a `bytes` field. -/
abbrev Bytes := List UInt8

/-! ### P_Asset.proto -/

/-- A value of an enumeration as its descriptor has it: the number, and the
`inventory_size` option of an `INVENTORY_TYPE`. -/
structure EnumValue where
  number : ℤ
  inventorySize : ℤ := 0
  deriving DecidableEq, Repr

/-- `INVENTORY_TYPE_descriptor()`: backpack, equipment, fashion and the closing
`COUNT`. -/
def inventoryTypeDescriptor : List EnumValue :=
  [⟨1, 64⟩, ⟨2, 6⟩, ⟨3, 16⟩, ⟨4, 0⟩]

inductive EntityType
  | null | player | host | npc | building | sea | air | land | particle
  deriving DecidableEq, Repr

inductive CampType
  | null | humon
  deriving DecidableEq, Repr

inductive GenderType
  | man | woman
  deriving DecidableEq, Repr

inductive ProfType
  | null | farmer | farmerHoster | farmerAndHoster | cowboy | bountyHunter
  deriving DecidableEq, Repr

inductive EntityActionStateType
  | idle | move | run | ride | fight
  deriving DecidableEq, Repr

structure Vector3 where
  x : Option ℚ := none
  y : Option ℚ := none
  z : Option ℚ := none
  deriving DecidableEq, Repr

def Vector3.getX (v : Vector3) : ℚ := v.x.getD 0
def Vector3.getZ (v : Vector3) : ℚ := v.z.getD 0

/-- The public properties of players, residents and monsters. -/
structure CommonProp where
  entityId : Option ℤ := none
  entityType : Option EntityType := none
  name : Option Bytes := none
  radius : Option ℚ := none
  height : Option ℚ := none
  level : Option ℤ := none
  gender : Option GenderType := none
  profession : Option ProfType := none
  speed : Option ℤ := none
  hp : Option ℤ := none
  mp : Option ℤ := none
  orientationX : Option ℤ := none
  orientationY : Option ℤ := none
  sceneId : Option ℤ := none
  position : Option Vector3 := none
  visibilityRange : Option ℚ := none
  campType : Option CampType := none
  skillsCount : Option ℤ := none
  skills : List ℤ := []
  levelUpId : Option ℤ := none
  actionStateType : Option EntityActionStateType := none
  deriving DecidableEq, Repr, Inhabited

def CommonProp.getEntityType (p : CommonProp) : EntityType := p.entityType.getD .host
def CommonProp.getEntityId (p : CommonProp) : ℤ := p.entityId.getD 0
def CommonProp.getPosition (p : CommonProp) : Vector3 := p.position.getD {}

/-- An item as it is stored; `typeT` is the number of its `ASSET_TYPE`. -/
structure ItemItem where
  typeT : Option ℤ := none
  stuff : Option Bytes := none
  stuffExtra : Option Bytes := none
  deriving DecidableEq, Repr

inductive VersionType
  | global | mainland | taiwan
  deriving DecidableEq, Repr

/-- The public properties of an asset. -/
structure AssetCommonProp where
  globalId : Option ℤ := none
  version : Option VersionType := none
  name : Option Bytes := none
  showName : Option Bytes := none
  desc : Option Bytes := none
  deriving DecidableEq, Repr

/-- What every kind of item has; `inventory` is the number of the
`INVENTORY_TYPE` it goes into. -/
structure ItemCommonProp where
  commonProp : Option AssetCommonProp := none
  quality : Option ℤ := none
  minLevelLimit : Option ℤ := none
  maxLevelLimit : Option ℤ := none
  pileMax : Option ℤ := none
  count : Option ℤ := none
  batchUse : Option Bool := none
  autoUse : Option Bool := none
  coolDownId : Option ℤ := none
  inventory : Option ℕ := none
  profMask : Option ProfType := none
  deriving DecidableEq, Repr

def ItemCommonProp.getInventory (p : ItemCommonProp) : ℕ := p.inventory.getD 1

/-- A resident; `human_prop` is what it has in common with players. -/
structure Hoster where
  commonProp : Option AssetCommonProp := none
  humanProp : Option CommonProp := none
  deriving DecidableEq, Repr

structure Scene where
  commonProp : Option AssetCommonProp := none
  deriving DecidableEq, Repr

inductive PotionType
  | hemo | magic | physicalStrength
  deriving DecidableEq, Repr

structure ItemPotion where
  typeT : Option ℤ := none
  itemCommonProp : Option ItemCommonProp := none
  potionType : Option PotionType := none
  increaseValue : Option ℤ := none
  deriving DecidableEq, Repr, Inhabited

inductive EquipType
  | helmet
  deriving DecidableEq, Repr

structure ItemEquipment where
  typeT : Option ℤ := none
  itemCommonProp : Option ItemCommonProp := none
  equipType : Option EquipType := none
  deriving DecidableEq, Repr, Inhabited

def CommonProp.getSpeed (p : CommonProp) : ℤ := p.speed.getD 1
def CommonProp.getSceneId (p : CommonProp) : ℤ := p.sceneId.getD 0
def AssetCommonProp.getGlobalId (p : AssetCommonProp) : ℤ := p.globalId.getD 0
def Hoster.getCommonProp (m : Hoster) : AssetCommonProp := m.commonProp.getD {}
def Hoster.getHumanProp (m : Hoster) : CommonProp := m.humanProp.getD {}
def Scene.getCommonProp (m : Scene) : AssetCommonProp := m.commonProp.getD {}
def ItemItem.getTypeT (m : ItemItem) : ℤ := m.typeT.getD 201
def ItemPotion.getTypeT (m : ItemPotion) : ℤ := m.typeT.getD 202
def ItemPotion.getItemCommonProp (m : ItemPotion) : ItemCommonProp := m.itemCommonProp.getD {}
def ItemEquipment.getTypeT (m : ItemEquipment) : ℤ := m.typeT.getD 203
def ItemEquipment.getItemCommonProp (m : ItemEquipment) : ItemCommonProp :=
  m.itemCommonProp.getD {}

/-! ### P_Protocol.proto -/

structure PlayerProvisionalProp where
  sightDistance : Option ℚ := none
  deriving DecidableEq, Repr

/-- An inventory; `inventoryType` is the number of its `INVENTORY_TYPE`. -/
structure Inventory where
  inventoryType : Option ℤ := none
  items : List ItemItem := []
  deriving DecidableEq, Repr

structure Inventories where
  inventories : List Inventory := []
  deriving DecidableEq, Repr

/-- The record of a player, `Asset::Player`. -/
structure Player where
  entityType : Option EntityType := none
  commonProp : Option CommonProp := none
  localZone : Option ℤ := none
  locateZone : Option ℤ := none
  inventory : Option Inventories := none
  provisionalProp : Option PlayerProvisionalProp := none
  deriving DecidableEq, Repr, Inhabited

def Player.getCommonProp (p : Player) : CommonProp := p.commonProp.getD {}
def Player.getInventory (p : Player) : Inventories := p.inventory.getD {}

/-- `META_TYPE`: which message a packet carries. -/
inductive MetaType
  | c2sBegin | c2sLogin | c2sSelectServer | c2sCreatePlayer | c2sEnterGame | c2sEnterScene
  | c2sMove | c2sCount
  | s2cBegin | s2cTicket | s2cServerList | s2cPlayers | s2cPlayerInfo | s2cMutableProperty
  | s2cAlterError | s2cSurroundingsChanged | s2cCount
  deriving DecidableEq, Repr

def MetaType.number : MetaType → ℕ
  | .c2sBegin => 1
  | .c2sLogin => 2
  | .c2sSelectServer => 3
  | .c2sCreatePlayer => 4
  | .c2sEnterGame => 5
  | .c2sEnterScene => 6
  | .c2sMove => 7
  | .c2sCount => 500
  | .s2cBegin => 501
  | .s2cTicket => 502
  | .s2cServerList => 503
  | .s2cPlayers => 504
  | .s2cPlayerInfo => 505
  | .s2cMutableProperty => 506
  | .s2cAlterError => 507
  | .s2cSurroundingsChanged => 508
  | .s2cCount => 1000

/-- What client and server send each other. -/
structure Meta where
  typeT : Option MetaType := none
  stuff : Option Bytes := none
  deriving DecidableEq, Repr

def Meta.getTypeT (m : Meta) : MetaType := m.typeT.getD .c2sBegin
def Meta.getStuff (m : Meta) : Bytes := m.stuff.getD []

structure CreatePlayer where
  typeT : Option MetaType := none
  deriving DecidableEq, Repr, Inhabited

structure Account where
  username : Option Bytes := none
  password : Option Bytes := none
  deriving DecidableEq, Repr

structure Login where
  typeT : Option MetaType := none
  account : Option Account := none
  deriving DecidableEq, Repr, Inhabited

structure EnterGame where
  typeT : Option MetaType := none
  playerId : Option ℤ := none
  deriving DecidableEq, Repr, Inhabited

structure EnterScene where
  typeT : Option MetaType := none
  sceneId : Option ℤ := none
  deriving DecidableEq, Repr, Inhabited

structure Move where
  typeT : Option MetaType := none
  moveTo : Option Vector3 := none
  deriving DecidableEq, Repr, Inhabited

/-- `SurroundingsChanged::ACTION_TYPE`. -/
inductive ActionType
  | enter | leave | move
  deriving DecidableEq, Repr

structure SurroundingsChanged where
  typeT : Option MetaType := none
  actionType : Option ActionType := none
  entityId : Option ℤ := none
  content : Option Bytes := none
  deriving DecidableEq, Repr

def EnterGame.getPlayerId (m : EnterGame) : ℤ := m.playerId.getD 0
def EnterScene.getSceneId (m : EnterScene) : ℤ := m.sceneId.getD 0
def Move.getMoveTo (m : Move) : Vector3 := m.moveTo.getD {}

/-! ### P_Server.proto -/

/-- `MSG_TYPE`, whose numbers go into the `type` field of a `MsgItem`. -/
inductive MsgType
  | begin | aoiEnter | aoiLeave | aoiMove
  deriving DecidableEq, Repr

def MsgType.number : MsgType → ℤ
  | .begin => 1
  | .aoiEnter => 2
  | .aoiLeave => 3
  | .aoiMove => 4

structure MsgItem where
  messageId : ℤ := 0
  type : ℤ := 0
  priority : ℤ := 10
  sender : ℤ := 0
  receiver : ℤ := 0
  time : ℤ := 0
  delay : ℤ := 0
  content : Bytes := []
  deriving DecidableEq, Repr

/-! ### Serialization -/

/-- The bytes of a message and back.  `parse` gives what `ParseFromString`
returns and what the message holds afterwards, also when it fails. -/
structure Codec (α : Type) where
  serialize : α → Bytes
  parse : Bytes → Bool × α

/-- A codec that is known on the messages of a table only. -/
def Codec.ofTable {α : Type} [DecidableEq α] [Inhabited α] (table : List (α × Bytes)) :
    Codec α where
  serialize m := ((table.find? (·.1 = m)).map (·.2)).getD []
  parse b := ((table.find? (·.2 = b)).map fun p => (true, p.1)).getD (false, default)

/-- The generated code of the messages that are serialized or parsed. -/
structure Protobuf where
  commonProp : Codec CommonProp
  player : Codec Player

end GameService.Asset
