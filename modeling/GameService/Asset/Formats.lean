import GameService.Asset
import GameService.Lib.Format

/-!
# The messages on the wire

The generated code of `P_Asset.proto` and `P_Protocol.proto`, for the messages that are
serialized or parsed: the fields with their numbers, each as the kind of its type.
-/

namespace GameService.Asset

open Lib Lib.Wire

/-! ### The enumerations -/

def EntityType.number : EntityType → ℕ
  | .null => 1
  | .player => 2
  | .host => 3
  | .npc => 4
  | .building => 5
  | .sea => 6
  | .air => 7
  | .land => 8
  | .particle => 9

def EntityType.value : Value EntityType :=
  .enum [.null, .player, .host, .npc, .building, .sea, .air, .land, .particle] number (by decide)
    (by decide)

def CampType.number : CampType → ℕ
  | .null => 1
  | .humon => 2

def CampType.value : Value CampType := .enum [.null, .humon] number (by decide) (by decide)

def GenderType.number : GenderType → ℕ
  | .man => 1
  | .woman => 2

def GenderType.value : Value GenderType := .enum [.man, .woman] number (by decide) (by decide)

def ProfType.number : ProfType → ℕ
  | .null => 0
  | .farmer => 1
  | .farmerHoster => 2
  | .farmerAndHoster => 3
  | .cowboy => 4
  | .bountyHunter => 16

def ProfType.value : Value ProfType :=
  .enum [.null, .farmer, .farmerHoster, .farmerAndHoster, .cowboy, .bountyHunter] number
    (by decide) (by decide)

def EntityActionStateType.number : EntityActionStateType → ℕ
  | .idle => 1
  | .move => 2
  | .run => 3
  | .ride => 4
  | .fight => 5

def EntityActionStateType.value : Value EntityActionStateType :=
  .enum [.idle, .move, .run, .ride, .fight] number (by decide) (by decide)

def ActionType.number : ActionType → ℕ
  | .enter => 1
  | .leave => 2
  | .move => 3

def ActionType.value : Value ActionType :=
  .enum [.enter, .leave, .move] number (by decide) (by decide)

def MetaType.value : Value MetaType :=
  .enum [.c2sBegin, .c2sLogin, .c2sSelectServer, .c2sCreatePlayer, .c2sEnterGame, .c2sEnterScene,
    .c2sMove, .c2sCount, .s2cBegin, .s2cTicket, .s2cServerList, .s2cPlayers, .s2cPlayerInfo,
    .s2cMutableProperty, .s2cAlterError, .s2cSurroundingsChanged, .s2cCount] number (by decide)
    (by decide)

def assetTypeValue : Value ℤ :=
  .enum [1, 2, 3, 4, 5, 6, 7, 8, 9, 10, 200, 201, 202, 203, 204] Int.toNat (by decide) (by decide)

def inventoryTypeValue : Value ℤ := .enum [1, 2, 3, 4] Int.toNat (by decide) (by decide)

/-! ### P_Asset.proto -/

def Vector3.format : Format Vector3 where
  empty := {}
  fields :=
    [.optional 1 .float { get := x, set v m := { m with x := v } },
      .optional 2 .float { get := y, set v m := { m with y := v } },
      .optional 3 .float { get := z, set v m := { m with z := v } }]
  distinct := by decide
  complete _ := rfl

def CommonProp.format : Format CommonProp where
  empty := {}
  fields :=
    [.optional 1 .int64 { get := entityId, set v m := { m with entityId := v } },
      .optional 2 EntityType.value { get := entityType, set v m := { m with entityType := v } },
      .optional 3 .byteString { get := name, set v m := { m with name := v } },
      .optional 4 .float { get := radius, set v m := { m with radius := v } },
      .optional 5 .float { get := height, set v m := { m with height := v } },
      .optional 6 .int32 { get := level, set v m := { m with level := v } },
      .optional 7 GenderType.value { get := gender, set v m := { m with gender := v } },
      .optional 8 ProfType.value { get := profession, set v m := { m with profession := v } },
      .optional 9 .int32 { get := speed, set v m := { m with speed := v } },
      .optional 10 .int32 { get := hp, set v m := { m with hp := v } },
      .optional 11 .int32 { get := mp, set v m := { m with mp := v } },
      .optional 12 .int32 { get := orientationX, set v m := { m with orientationX := v } },
      .optional 13 .int32 { get := orientationY, set v m := { m with orientationY := v } },
      .optional 14 .int64 { get := sceneId, set v m := { m with sceneId := v } },
      .optional 15 (.message Vector3.format)
        { get := position, set v m := { m with position := v } },
      .optional 16 .float { get := visibilityRange, set v m := { m with visibilityRange := v } },
      .optional 17 CampType.value { get := campType, set v m := { m with campType := v } },
      .optional 18 .int32 { get := skillsCount, set v m := { m with skillsCount := v } },
      .repeatedNumber 19 .int64 { get := skills, set v m := { m with skills := v } },
      .optional 20 .int64 { get := levelUpId, set v m := { m with levelUpId := v } },
      .optional 21 EntityActionStateType.value
        { get := actionStateType, set v m := { m with actionStateType := v } }]
  distinct := by decide
  complete m := by
    cases m
    simp only [List.foldl_cons, List.foldl_nil, MessageField.optional,
      MessageField.repeatedNumber, Value.overlay, List.nil_append]

def ItemItem.format : Format ItemItem where
  empty := {}
  fields :=
    [.optional 1 assetTypeValue { get := typeT, set v m := { m with typeT := v } },
      .optional 2 .byteString { get := stuff, set v m := { m with stuff := v } },
      .optional 3 .byteString { get := stuffExtra, set v m := { m with stuffExtra := v } }]
  distinct := by decide
  complete _ := rfl

/-! ### P_Protocol.proto -/

def PlayerProvisionalProp.format : Format PlayerProvisionalProp where
  empty := {}
  fields :=
    [.optional 1 .float { get := sightDistance, set v m := { m with sightDistance := v } }]
  distinct := by decide
  complete _ := rfl

def Inventory.format : Format Inventory where
  empty := {}
  fields :=
    [.optional 1 inventoryTypeValue
        { get := inventoryType, set v m := { m with inventoryType := v } },
      .repeated 2 (.message ItemItem.format) { get := items, set v m := { m with items := v } }]
  distinct := by decide
  complete _ := rfl

def Inventories.format : Format Inventories where
  empty := {}
  fields :=
    [.repeated 1 (.message Inventory.format)
        { get := inventories, set v m := { m with inventories := v } }]
  distinct := by decide
  complete _ := rfl

def Player.format : Format Player where
  empty := {}
  fields :=
    [.optional 1 EntityType.value { get := entityType, set v m := { m with entityType := v } },
      .optional 2 (.message CommonProp.format)
        { get := commonProp, set v m := { m with commonProp := v } },
      .optional 3 .int32 { get := localZone, set v m := { m with localZone := v } },
      .optional 4 .int32 { get := locateZone, set v m := { m with locateZone := v } },
      .optional 5 (.message Inventories.format)
        { get := inventory, set v m := { m with inventory := v } },
      .optional 6 (.message PlayerProvisionalProp.format)
        { get := provisionalProp, set v m := { m with provisionalProp := v } }]
  distinct := by decide
  complete _ := rfl

def CreatePlayer.format : Format CreatePlayer where
  empty := {}
  fields :=
    [.optional 1 MetaType.value { get := typeT, set v m := { m with typeT := v } }]
  distinct := by decide
  complete _ := rfl

def Account.format : Format Account where
  empty := {}
  fields :=
    [.optional 1 .byteString { get := username, set v m := { m with username := v } },
      .optional 2 .byteString { get := password, set v m := { m with password := v } }]
  distinct := by decide
  complete _ := rfl

def Login.format : Format Login where
  empty := {}
  fields :=
    [.optional 1 MetaType.value { get := typeT, set v m := { m with typeT := v } },
      .optional 2 (.message Account.format) { get := account, set v m := { m with account := v } }]
  distinct := by decide
  complete _ := rfl

def EnterGame.format : Format EnterGame where
  empty := {}
  fields :=
    [.optional 1 MetaType.value { get := typeT, set v m := { m with typeT := v } },
      .optional 2 .int64 { get := playerId, set v m := { m with playerId := v } }]
  distinct := by decide
  complete _ := rfl

def EnterScene.format : Format EnterScene where
  empty := {}
  fields :=
    [.optional 1 MetaType.value { get := typeT, set v m := { m with typeT := v } },
      .optional 2 .int64 { get := sceneId, set v m := { m with sceneId := v } }]
  distinct := by decide
  complete _ := rfl

def Move.format : Format Move where
  empty := {}
  fields :=
    [.optional 1 MetaType.value { get := typeT, set v m := { m with typeT := v } },
      .optional 2 (.message Vector3.format) { get := moveTo, set v m := { m with moveTo := v } }]
  distinct := by decide
  complete _ := rfl

def SurroundingsChanged.format : Format SurroundingsChanged where
  empty := {}
  fields :=
    [.optional 1 MetaType.value { get := typeT, set v m := { m with typeT := v } },
      .optional 2 ActionType.value { get := actionType, set v m := { m with actionType := v } },
      .optional 3 .int64 { get := entityId, set v m := { m with entityId := v } },
      .optional 4 .byteString { get := content, set v m := { m with content := v } }]
  distinct := by decide
  complete _ := rfl

/-! ### The generated code -/

/-- `SerializeAsString` and `ParseFromString` of a format. -/
def Codec.ofFormat {α : Type} (F : Format α) : Codec α where
  serialize := F.serialize
  parse := F.parse

end GameService.Asset
