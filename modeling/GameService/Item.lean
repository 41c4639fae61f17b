import GameService.Asset.Manager
import GameService.Player.Inventory

/-!
# How items are made

The constructors of `Item`, `Item_Potion` and `Item_Equipment`.  An item has two
members, `_stuff` and `_common_prop`.  `Item()` gives it a blank record to point to, and
the constructor that takes any message delegates to it, sets the record and copies the
`item_common_prop`.  Those of the two subclasses set the record only.  The one that takes
an `Item_Item` does not delegate, so there is no record that it could copy into, and the
one that takes a pointer keeps that and nothing else.

`Agrees` is what the constructors should have in common.  `never_agrees` says that it
holds of no message, and where each part of it does.
-/

namespace GameService

open Lib Asset

def AssetDescriptor.hasItemCommonProp : AssetDescriptor → Bool
  | .itemPotion | .itemEquipment => true
  | _ => false

/-- A message that is an item. -/
inductive ItemAsset
  | potion (message : ItemPotion)
  | equipment (message : ItemEquipment)

/-- A message of the asset tables.  One that is not an item is only serialized. -/
inductive AssetMessage
  | item (message : ItemAsset)
  | other (descriptor : AssetDescriptor) (plain : descriptor.hasItemCommonProp = false)
      (bytes : Bytes)

/-- The generated code that serializes items. -/
structure ItemProtobuf where
  potion : Codec ItemPotion
  equipment : Codec ItemEquipment

namespace ItemAsset

def descriptor : ItemAsset → AssetDescriptor
  | potion _ => .itemPotion
  | equipment _ => .itemEquipment

def getTypeT : ItemAsset → ℤ
  | potion message => message.getTypeT
  | equipment message => message.getTypeT

def getItemCommonProp : ItemAsset → ItemCommonProp
  | potion message => message.getItemCommonProp
  | equipment message => message.getItemCommonProp

def serializeAsString (pb : ItemProtobuf) : ItemAsset → Bytes
  | potion message => pb.potion.serialize message
  | equipment message => pb.equipment.serialize message

def HasDeclaredType (m : ItemAsset) : Prop := m.descriptor.typeField.map Nat.cast = some m.getTypeT

/-- The record of the item: the type of its class, and the message. -/
def record (pb : ItemProtobuf) (m : ItemAsset) : ItemItem where
  typeT := m.descriptor.typeField.map Nat.cast
  stuff := some (m.serializeAsString pb)

end ItemAsset

namespace AssetMessage

def descriptor : AssetMessage → AssetDescriptor
  | item message => message.descriptor
  | other descriptor _ _ => descriptor

def serializeAsString (pb : ItemProtobuf) : AssetMessage → Bytes
  | item message => message.serializeAsString pb
  | other _ _ bytes => bytes

def itemCommonProp : AssetMessage → Option ItemCommonProp
  | item message => some message.getItemCommonProp
  | other _ _ _ => none

end AssetMessage

namespace Item

/-! ### The constructors -/

/-- A call through `_stuff`, undefined if that is null. -/
def modifyStuff (f : ItemItem → ItemItem) (item : Item) : Option Item :=
  item.stuff.map fun stuff => { item with stuff := some (f stuff) }

def construct : Item := { stuff := some {} }

/-- `Item(pb::Message*)`, undefined for a message that lacks one of the fields it looks
up by their names. -/
def ofMessage (pb : ItemProtobuf) (message : AssetMessage) : Option Item := do
  let typeField ← message.descriptor.typeField
  let item ← construct.modifyStuff fun stuff => { stuff with typeT := some typeField }
  let item ← item.modifyStuff fun stuff =>
    { stuff with stuff := some (message.serializeAsString pb) }
  let commonProp ← message.itemCommonProp
  return { item with commonProp := commonProp }

/-- What the constructors of the subclasses do. -/
def ofStuff (stuff : Bytes) (typeT : ℤ) : Option Item := do
  let item ← construct.modifyStuff fun record => { record with stuff := some stuff }
  item.modifyStuff fun record => { record with typeT := some typeT }

def itemPotion (pb : ItemProtobuf) (stuff : ItemPotion) : Option Item :=
  ofStuff (pb.potion.serialize stuff) stuff.getTypeT

def itemEquipment (pb : ItemProtobuf) (stuff : ItemEquipment) : Option Item :=
  ofStuff (pb.equipment.serialize stuff) stuff.getTypeT

def ofAsset (pb : ItemProtobuf) : ItemAsset → Option Item
  | .potion stuff => itemPotion pb stuff
  | .equipment stuff => itemEquipment pb stuff

/-- `Item(Asset::Item_Item&)`: `_stuff` is still null. -/
def ofItem (item : ItemItem) : Option Item := modifyStuff (fun _ => item) {}

def ofShared (item : Option ItemItem) : Item := { stuff := item }

def getType (item : Item) : Option ℤ := item.stuff.map (·.getTypeT)

/-! ### What they should have in common -/

/-- Two items that cannot be told apart. -/
structure Same (item other : Item) : Prop where
  type : item.getType = other.getType
  stuff : item.stuff = other.stuff
  commonProp : item.commonProp = other.commonProp

/-- The message gives the same item by both ways. -/
def BuiltAlike (pb : ItemProtobuf) (m : ItemAsset) : Prop :=
  ∃ item other, ofMessage pb (.item m) = some item ∧ ofAsset pb m = some other ∧ Same item other

def Copied (pb : ItemProtobuf) (m : ItemAsset) : Prop :=
  ∃ item record other, ofMessage pb (.item m) = some item ∧ item.stuff = some record ∧
    ofItem record = some other ∧ Same other item

def Shared (pb : ItemProtobuf) (m : ItemAsset) : Prop :=
  ∃ item record, ofMessage pb (.item m) = some item ∧ item.stuff = some record ∧
    Same (ofShared (some record)) item

/-- **The constructors agree** on a message. -/
structure Agrees (pb : ItemProtobuf) (m : ItemAsset) : Prop where
  built : BuiltAlike pb m
  copied : Copied pb m
  shared : Shared pb m

/-! ### What each of them makes -/

variable {pb : ItemProtobuf} {m : ItemAsset}

theorem ofMessage_item (pb : ItemProtobuf) (m : ItemAsset) : ofMessage pb (.item m) =
    some { commonProp := m.getItemCommonProp, stuff := some (m.record pb) } := by
  cases m <;> rfl

theorem ofMessage_other {d : AssetDescriptor} {plain : d.hasItemCommonProp = false}
    {bytes : Bytes} : ofMessage pb (.other d plain bytes) = none := by
  rw [ofMessage, AssetMessage.descriptor]
  cases d.typeField <;> rfl

theorem ofAsset_eq (h : m.HasDeclaredType) :
    ofAsset pb m = some { stuff := some (m.record pb) } := by
  rw [ItemAsset.record, h]
  cases m <;> rfl

theorem ofItem_eq_none (record : ItemItem) : ofItem record = none := rfl

theorem builtAlike_iff (h : m.HasDeclaredType) :
    BuiltAlike pb m ↔ m.getItemCommonProp = {} := by
  rw [BuiltAlike, ofMessage_item, ofAsset_eq h]
  constructor
  · rintro ⟨item, other, hitem, hother, hsame⟩
    cases hitem
    cases hother
    exact hsame.commonProp
  · intro hprop
    exact ⟨_, _, rfl, rfl, rfl, rfl, hprop⟩

theorem not_copied (m : ItemAsset) : ¬ Copied pb m := by
  rintro ⟨item, record, other, -, -, hcopy, -⟩
  rw [ofItem_eq_none] at hcopy
  cases hcopy

theorem shared_iff (pb : ItemProtobuf) (m : ItemAsset) :
    Shared pb m ↔ m.getItemCommonProp = {} := by
  rw [Shared, ofMessage_item]
  constructor
  · rintro ⟨item, record, hitem, -, hsame⟩
    cases hitem
    exact hsame.commonProp.symm
  · intro hprop
    exact ⟨_, _, rfl, rfl, rfl, rfl, hprop.symm⟩

/-- **The constructors never agree.**  For every message of its class's type: copying a
record is undefined, and the other two ways give the item back if and only if it has no
common properties. -/
theorem never_agrees (pb : ItemProtobuf) (m : ItemAsset) (h : m.HasDeclaredType) :
    ¬ Agrees pb m ∧ (BuiltAlike pb m ↔ m.getItemCommonProp = {}) ∧
      (Shared pb m ↔ m.getItemCommonProp = {}) :=
  ⟨fun hagrees => not_copied m hagrees.copied, builtAlike_iff h, shared_iff pb m⟩

def potion : ItemPotion := { itemCommonProp := some { inventory := some 2 } }

def itemProtobuf : ItemProtobuf where
  potion := .ofTable [(potion, [0x12, 2, 0x50, 2])]
  equipment := .ofTable []

theorem potion_never_agrees : ¬ Agrees itemProtobuf (.potion potion) ∧
    (BuiltAlike itemProtobuf (.potion potion) ↔ potion.getItemCommonProp = {}) ∧
      (Shared itemProtobuf (.potion potion) ↔ potion.getItemCommonProp = {}) :=
  never_agrees itemProtobuf (.potion potion) rfl

/-- The record of the potion cannot be copied, and the properties are lost on the other
two ways. -/
theorem potion_not_agrees : (ItemAsset.potion potion).HasDeclaredType ∧
    ¬ BuiltAlike itemProtobuf (.potion potion) ∧ ¬ Copied itemProtobuf (.potion potion) ∧
      ¬ Shared itemProtobuf (.potion potion) ∧ ¬ Agrees itemProtobuf (.potion potion) := by
  have htype : (ItemAsset.potion potion).HasDeclaredType := rfl
  have hprop : (ItemAsset.potion potion).getItemCommonProp ≠ {} := by decide
  exact ⟨htype, fun h => hprop ((builtAlike_iff htype).mp h), not_copied _,
    fun h => hprop ((shared_iff _ _).mp h), fun h => not_copied _ h.copied⟩

end Item

end GameService
