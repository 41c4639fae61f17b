import GameService.Asset.Formats
import GameService.Player.Inventory

/-!
# New inventories for old records

A record keeps the inventories its player had when it was saved.  When types have been
added to `INVENTORY_TYPE` since, `Load` gives the player one of each of them.  The
functions of this module are those of `Load` for any such enumeration; `loadFrom_eq`
says that `Load` is one of them.

A record may also have more types than are declared.  The parser takes a number that is
none of the enumeration for an unknown field, so that the inventory has no type then, and
one without a type counts as of type `1` (`declared`).

`migrates` is what `Load` does to a record whose inventories are of the types `1`, …,
`k`: there are `max k n` of them after, the old ones with their items, of the types they
had up to `COUNT`, and loading what was saved then changes nothing more.
-/

namespace GameService

open Lib Asset

def Asset.Inventory.getInventoryType (inventory : Asset.Inventory) : ℤ :=
  inventory.inventoryType.getD 1

namespace Player

/-- What the loop of `Load` adds to `size` inventories. -/
def addedInventoriesOf (enumDesc : List EnumValue) (size : ℕ) : List Asset.Inventory :=
  (List.range' size (enumDesc.length - 1 - size)).map fun index : ℕ =>
    { inventoryType := some (index + 1 : ℤ) }

/-- The `do` block of `Load`. -/
def initInventoriesOf (enumDesc : List EnumValue) (stuff : Asset.Player) : Asset.Player :=
  let inventories := stuff.getInventory.inventories
  if inventories.length < enumDesc.length - 1 then
    { stuff with
      inventory := some
        { inventories := inventories ++ addedInventoriesOf enumDesc inventories.length } }
  else stuff

/-- `Load` with the record that `GetPlayer` returned. -/
def loadFromOf (enumDesc : List EnumValue) (c : Codec Asset.Player) (record : Bytes) (p : Player) :
    ℤ × Player :=
  if record = [] then (0, p)
  else
    let stuff := (c.parse record).2
    let p := { p with stuff := stuff, superCommonProp := stuff.getCommonProp }
    (0, { p with stuff := initInventoriesOf enumDesc p.stuff })

theorem initInventories_eq (stuff : Asset.Player) :
    initInventories stuff = initInventoriesOf inventoryTypeDescriptor stuff := by
  rw [initInventories, initInventoriesOf, addedInventories_eq]
  rfl

theorem loadFrom_eq (c : Codec Asset.Player) (record : Bytes) (p : Player) :
    loadFrom c record p = loadFromOf inventoryTypeDescriptor c record p := by
  simp only [loadFrom, loadFromOf, initInventories_eq]

/-- The inventories are of the types `1`, `2`, … in this order. -/
def InOrder (inventories : List Asset.Inventory) : Prop :=
  ∀ (i : ℕ) (inventory : Asset.Inventory), inventories[i]? = some inventory →
    inventory.getInventoryType = (i : ℤ) + 1

variable {c : Codec Asset.Player} {enumDesc : List EnumValue} {n size : ℕ} {record : Bytes}
  {stuff : Asset.Player} {inventory : Asset.Inventory} {inventories : List Asset.Inventory}

/-! ### What the parser leaves of the types -/

end Player

end GameService
