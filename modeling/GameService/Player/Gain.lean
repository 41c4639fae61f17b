import GameService.Item

/-!
# Gaining an item by its id

`GainItem(int64_t)` looks the id up in the asset tables, makes an `Item` of the message
and gives it to `GainItem(Item*)`, whose result it drops: it returns `true` for every
message.  Three things are in the way of an item.  `PushBackItem` looks at the inventory
of the next type; if that is full nothing is added, and if there is none it throws.
Otherwise it throws after it has added a blank entry.  And the constructor of `Item` looks
for an `item_common_prop`, which is a null pointer in a message that is not an item.

`Gains` is what should come of an id.  `gains_iff` says for which ids it does, with any
tables and any player.
-/

namespace GameService

open Lib Asset

namespace Player

/-- `GainItem(int64_t)`: how it ends and the player it leaves. -/
def gainItemById (pb : ItemProtobuf) (s : AssetManager AssetMessage) (p : Player)
    (globalItemId : ℤ) : Option (Ended Bool × Player) :=
  match s.get globalItemId with
  | none => some (.returned false, p)
  | some i => do
    let assetItem ← s.objects[i]?
    let item ← Item.ofMessage pb assetItem.message
    let (ended, p) ← p.gainItem (some item)
    match ended with
    | .returned _ => return (.returned true, p)
    | .fatal => return (.fatal, p)

/-- `Get` returns this message. -/
def Gets (s : AssetManager AssetMessage) (id : ℤ) (message : AssetMessage) : Prop :=
  ∃ i object, s.get id = some i ∧ s.objects[i]? = some object ∧ object.message = message

/-- One entry is added to the inventories, and it is the record of the item. -/
def Added (pb : ItemProtobuf) (s : AssetManager AssetMessage) (id : ℤ) (p p' : Player) : Prop :=
  ∃ m index, Gets s id (.item m) ∧ index < p.inventories.length ∧
    p'.inventories = p.inventories.modify index (Inventory.add (m.record pb))

def TargetFull (p : Player) (inventoryType : ℕ) : Prop :=
  ∃ inventory ∈ p.inventories, ∃ value ∈ inventoryTypeDescriptor,
    inventory.inventoryType = some (inventoryType : ℤ) ∧ value.number = inventoryType ∧
    value.inventorySize ≤ inventory.items.length

/-- No asset has the id, or it is not an item, or there is no room for the item. -/
def Refused (s : AssetManager AssetMessage) (id : ℤ) (p : Player) : Prop :=
  s.get id = none ∨ (∃ d plain bytes, Gets s id (.other d plain bytes)) ∨
    ∃ m, Gets s id (.item m) ∧ TargetFull p m.getItemCommonProp.getInventory

/-- **What should come of an id**: `true` if and only if the item was added, and
otherwise, where there is nothing to gain, `false` with the inventories as they were. -/
def Gains (pb : ItemProtobuf) (s : AssetManager AssetMessage) (p : Player) (id : ℤ) : Prop :=
  ∃ gained p', p.gainItemById pb s id = some (.returned gained, p') ∧
    (gained = true ↔ Added pb s id p p') ∧
    (Refused s id p → gained = false ∧ p'.inventories = p.inventories)

variable {pb : ItemProtobuf} {s : AssetManager AssetMessage} {p p' : Player} {id : ℤ}
  {m : ItemAsset} {ended : Ended Bool}

/-! ### How it ends -/

theorem gainItemById_unknown (h : s.get id = none) :
    p.gainItemById pb s id = some (.returned false, p) := by
  rw [gainItemById, h]

theorem gainItemById_other {d : AssetDescriptor} {plain : d.hasItemCommonProp = false}
    {bytes : Bytes} (h : Gets s id (.other d plain bytes)) : p.gainItemById pb s id = none := by
  obtain ⟨i, object, hget, hobject, hmessage⟩ := h
  rw [gainItemById, hget]
  simp only [hobject, hmessage, Item.ofMessage_other, Option.bind_eq_bind, Option.bind_some,
    Option.bind_none]

/-- An item: `false` becomes `true`. -/
theorem gainItemById_item (h : Gets s id (.item m)) : p.gainItemById pb s id =
    (p.gainItem (some ⟨m.getItemCommonProp, some (m.record pb)⟩)).map fun result =>
      (match result.1 with | .returned _ => .returned true | .fatal => .fatal, result.2) := by
  obtain ⟨i, object, hget, hobject, hmessage⟩ := h
  rw [gainItemById, hget]
  simp only [hobject, hmessage, Item.ofMessage_item, Option.bind_eq_bind, Option.bind_some]
  cases p.gainItem (some ⟨m.getItemCommonProp, some (m.record pb)⟩) with
  | none => rfl
  | some result =>
    obtain ⟨ended, p'⟩ := result
    cases ended <;> rfl

/-- **What `GainItem` can do**: it returns `false` for an id that is not known, `true`
without an entry for one that is, or throws, with a blank entry or without one. -/
theorem gainItemById_cases (h : p.gainItemById pb s id = some (ended, p')) :
    (s.get id = none ∧ ended = .returned false ∧ p' = p) ∨
      (s.get id ≠ none ∧ ended = .returned true ∧ p'.inventories = p.inventories) ∨
      s.get id ≠ none ∧ ended = .fatal ∧ (p'.inventories = p.inventories ∨
        ∃ index, index < p.inventories.length ∧
          p'.inventories = p.inventories.modify index (Inventory.add {})) := by
  cases hget : s.get id with
  | none =>
    rw [gainItemById_unknown hget] at h
    cases h
    exact Or.inl ⟨rfl, rfl, rfl⟩
  | some i =>
    refine Or.inr ?_
    cases hobject : s.objects[i]? with
    | none =>
      rw [gainItemById, hget] at h
      simp only [hobject, Option.bind_eq_bind, Option.bind_none] at h
      cases h
    | some object =>
      cases hmessage : object.message with
      | other d plain bytes =>
        rw [gainItemById_other ⟨i, object, hget, hobject, hmessage⟩] at h
        cases h
      | item m =>
        rw [gainItemById_item ⟨i, object, hget, hobject, hmessage⟩, Option.map_eq_some_iff] at h
        obtain ⟨⟨pushed, q⟩, hpush, hresult⟩ := h
        rw [gainItem, pushBackItem] at hpush
        rcases pushBackItemOf_cases hpush with ⟨-, hinv⟩ | ⟨rfl, inventory, _, hi, -, -, hinv⟩
        · cases pushed with
          | returned gained =>
            cases hresult
            exact Or.inl ⟨Option.some_ne_none i, rfl, hinv⟩
          | fatal =>
            cases hresult
            exact Or.inr ⟨Option.some_ne_none i, rfl, Or.inl hinv⟩
        · cases hresult
          have hlt := (List.getElem?_eq_some_iff.mp hi).1
          exact Or.inr ⟨Option.some_ne_none i, rfl, Or.inr ⟨_, hlt, hinv⟩⟩

/-! ### What it should do -/

theorem Added.ne (h : Added pb s id p p') : p'.inventories ≠ p.inventories := by
  obtain ⟨m, index, -, hlt, hinv⟩ := h
  intro heq
  rw [heq] at hinv
  have hentry := congrArg (fun inventories => inventories[index]?) hinv
  rw [List.getElem?_modify_eq, List.getElem?_eq_getElem hlt] at hentry
  have hitems := congrArg (fun inventory => inventory.items.length) (Option.some.inj hentry)
  rw [Inventory.add, List.length_append, List.length_singleton] at hitems
  omega

/-- **When an id has the right answer.**  For all tables and every player, whatever its
inventories: if and only if no asset has the id.  No item is ever gained. -/
theorem gains_iff (pb : ItemProtobuf) (s : AssetManager AssetMessage) (p : Player) (id : ℤ) :
    Gains pb s p id ↔ s.get id = none := by
  constructor
  · rintro ⟨gained, p', hgain, hiff, -⟩
    rcases gainItemById_cases hgain with ⟨hget, -⟩ | ⟨-, hended, hinv⟩ | ⟨-, hended, -⟩
    · exact hget
    · cases hended
      exact absurd hinv (hiff.mp rfl).ne
    · cases hended
  · intro hget
    refine ⟨false, p, gainItemById_unknown hget, ?_, fun _ => ⟨rfl, rfl⟩⟩
    exact iff_of_false Bool.false_ne_true fun hadded => hadded.ne rfl

/-! ### Three ways to lose an item -/

def tonic : ItemPotion := { itemCommonProp := some { inventory := some 1 } }

def tonicProtobuf : ItemProtobuf where
  potion := .ofTable [(tonic, [0x12, 2, 0x50, 1])]
  equipment := .ofTable []

def tonicObject : AssetObject AssetMessage where
  origin := ("Item_Potion", { name := "tonic" })
  descriptor := .itemPotion
  message := .item (.potion tonic)
  globalId := 0xca0001
  typeT := 202

def sceneObject : AssetObject AssetMessage where
  origin := ("Scene", { name := "scene" })
  descriptor := .scene
  message := .other .scene rfl []
  globalId := 0x90001
  typeT := 9

def tonicAssets : AssetManager AssetMessage :=
  AssetManager.register (AssetManager.register {} tonicObject) sceneObject

def outfitted : Player :=
  newcomer.setInventories [⟨some 1, []⟩, ⟨some 2, List.replicate 6 {}⟩, ⟨some 3, []⟩]

theorem outfitted_setUp : SetUp inventoryTypes outfitted := by
  refine ⟨rfl, fun i inventory h => ?_⟩
  match i with
  | 0 => cases h; rfl
  | 1 => cases h; rfl
  | 2 => cases h; rfl
  | i + 3 => cases h

/-- The backpack is empty in each case.  The potion is reported as gained but is not
there, it leaves a blank entry and the call throws, and a scene is no item. -/
theorem tonic_not_gained :
    (SetUp inventoryTypes outfitted ∧
      outfitted.gainItemById tonicProtobuf tonicAssets 0xca0001 =
        some (.returned true, outfitted) ∧
      ¬ Gains tonicProtobuf tonicAssets outfitted 0xca0001) ∧
    (SetUp inventoryTypes newcomer ∧
      newcomer.gainItemById tonicProtobuf tonicAssets 0xca0001 =
        some (.fatal, newcomer.setInventories [⟨some 1, []⟩, ⟨some 2, [{}]⟩, ⟨some 3, []⟩]) ∧
      ¬ Gains tonicProtobuf tonicAssets newcomer 0xca0001) ∧
    newcomer.gainItemById tonicProtobuf tonicAssets 0x90001 = none ∧
      ¬ Gains tonicProtobuf tonicAssets newcomer 0x90001 := by
  have hfull : outfitted.gainItemById tonicProtobuf tonicAssets 0xca0001 =
      some (.returned true, outfitted) := by decide +kernel
  have hfatal : newcomer.gainItemById tonicProtobuf tonicAssets 0xca0001 =
      some (.fatal, newcomer.setInventories [⟨some 1, []⟩, ⟨some 2, [{}]⟩, ⟨some 3, []⟩]) := by
    decide +kernel
  have hscene : newcomer.gainItemById tonicProtobuf tonicAssets 0x90001 = none := by
    decide +kernel
  refine ⟨⟨outfitted_setUp, hfull, ?_⟩, ⟨newcomer_setUp, hfatal, ?_⟩, hscene, ?_⟩
  · rintro ⟨gained, p', hgain, hiff, -⟩
    cases hfull.symm.trans hgain
    exact (hiff.mp rfl).ne rfl
  · rintro ⟨gained, p', hgain, -⟩
    cases hfatal.symm.trans hgain
  · rintro ⟨gained, p', hgain, -⟩
    cases hscene.symm.trans hgain

end Player

end GameService
