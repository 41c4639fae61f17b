import GameService.Lib.Run
import GameService.Player.Player

/-!
# Inventory

`PushBackItem` and its callers.  Three numberings meet here: the types are
numbered from `1`, while the values of the descriptor and the inventories of a
player are numbered from `0`.  `Load` puts the inventory of type `i + 1` at `i`
and reads its size from the value at `i`; `PushBackItem` takes the type itself
for an index into both, and so selects (`select`) the inventory and the size of
the next type, and for the last type the size of the terminator and no inventory,
which `GOOGLE_DCHECK_LT` answers with a `FatalException`.

It then appends a blank `Item_Item` and calls `CopyFrom` with the
`Item_CommonProp` of the item.  The two are messages of different types, which
`ReflectionOps::Merge` answers with a `FatalException` too; `Ended` says how a call
ends.

The functions take the descriptor as an argument.  `Declares` says that it has
the types `1`, …, `n` and the terminator, and `SetUp` that the player has the
inventories `Load` gives it.
-/

namespace GameService

open Lib Asset

/-- A call returns, or protobuf throws. -/
inductive Ended (α : Type)
  | returned (value : α)
  | fatal
  deriving DecidableEq

/-- The messages that are copied into an entry of an inventory. -/
inductive ItemMessage
  | item (message : ItemItem)
  | commonProp (message : ItemCommonProp)

/-- `Item_Item::CopyFrom(const Message&)`, which clears the message before it
looks at the other's type: how it ends and what the message then is. -/
def copyFrom : ItemMessage → Ended Unit × ItemItem
  | .item message => (.returned (), message)
  | .commonProp _ => (.fatal, {})

/-- An `Item`; `commonProp` is what `GetCommonProp` returns, and `stuff` what `_stuff`
points to, if it points to anything. -/
structure Item where
  commonProp : ItemCommonProp := {}
  stuff : Option ItemItem := none

def Inventory.add (entry : ItemItem) (inventory : Asset.Inventory) : Asset.Inventory :=
  { inventory with items := inventory.items ++ [entry] }

namespace Player

def inventories (p : Player) : List Asset.Inventory := p.stuff.getInventory.inventories

def setInventories (p : Player) (inventories : List Asset.Inventory) : Player :=
  { p with stuff := { p.stuff with inventory := some { inventories := inventories } } }

/-- `GetInventory`; there is none past the last one, where the repeated field throws. -/
def getInventory (p : Player) (inventoryType : ℕ) : Option Asset.Inventory :=
  p.inventories[inventoryType]?

/-- What `PushBackItem` takes for the type before it adds anything: the value of the
descriptor whose size is the limit, which it reads unchecked, and the inventory with its
place among those of the player. -/
def select (enumDesc : List EnumValue) (p : Player) (inventoryType : ℕ) :
    Option (EnumValue × Ended (ℕ × Asset.Inventory)) :=
  enumDesc[inventoryType]?.map fun value =>
    (value, match p.getInventory inventoryType with
      | some inventory => .returned (inventoryType, inventory)
      | none => .fatal)

/-- `PushBackItem`: how it ends and the player it leaves. -/
def pushBackItemOf (enumDesc : List EnumValue) (p : Player) (inventoryType : ℕ)
    (item : Option Item) : Option (Ended Bool × Player) :=
  match item with
  | none => some (.returned false, p)
  | some item => do
    let (value, selected) ← p.select enumDesc inventoryType
    -- `mutable_inventory` has been called by now
    let p := p.setInventories p.inventories
    match selected with
    | .fatal => return (.fatal, p)
    | .returned (index, inventory) =>
      if value.inventorySize ≤ inventory.items.length then return (.returned false, p)
      else
        let (copied, entry) := copyFrom (.commonProp item.commonProp)
        let p := p.setInventories (p.inventories.modify index (Inventory.add entry))
        match copied with
        | .returned () => return (.returned true, p)
        | .fatal => return (.fatal, p)

def pushBackItem : Player → ℕ → Option Item → Option (Ended Bool × Player) :=
  pushBackItemOf inventoryTypeDescriptor

def gainItem (p : Player) (item : Option Item) : Option (Ended Bool × Player) :=
  match item with
  | none => some (.returned false, p)
  | some item => p.pushBackItem item.commonProp.getInventory (some item)

/-! ### Declared types and their inventories -/

/-- The enumeration has the types `1`, …, `n` and the terminator `n + 1`. -/
structure Declares (enumDesc : List EnumValue) (n : ℕ) : Prop where
  length : enumDesc.length = n + 1
  number : ∀ (i : ℕ) (value : EnumValue), enumDesc[i]? = some value → value.number = i + 1

/-- The player has the inventories of the types `1`, …, `n`, in this order. -/
structure SetUp (n : ℕ) (p : Player) : Prop where
  length : p.inventories.length = n
  type : ∀ (i : ℕ) (inventory : Asset.Inventory), p.inventories[i]? = some inventory →
    inventory.inventoryType = some ((i : ℤ) + 1)

/-- No inventory holds more than the size declared for its type. -/
def Within (enumDesc : List EnumValue) (p : Player) : Prop :=
  ∀ inventory ∈ p.inventories, ∀ value ∈ enumDesc,
    inventory.inventoryType = some value.number → inventory.items.length ≤ value.inventorySize

/-- What a caller sees of a push: nothing changes when the inventory of the type
is full, and it has one more entry otherwise. -/
def Answers (enumDesc : List EnumValue) (p : Player) (inventoryType : ℕ) (item : Item) : Prop :=
  ∃ inventory value ended p', inventory ∈ p.inventories ∧
    inventory.inventoryType = some (inventoryType : ℤ) ∧
    value ∈ enumDesc ∧ value.number = inventoryType ∧
    p.pushBackItemOf enumDesc inventoryType (some item) = some (ended, p') ∧
    if value.inventorySize ≤ inventory.items.length then ended = .returned false ∧ p' = p
    else ended = .returned true ∧ ∃ entry, p'.inventories =
      p.inventories.map fun other =>
        if other.inventoryType = some (inventoryType : ℤ) then Inventory.add entry other else other

/-- What pushing an item into the inventory of a type is to do: select that
inventory and the value of the type, and answer accordingly. -/
structure Stores (enumDesc : List EnumValue) (p : Player) (inventoryType : ℕ) (item : Item) :
    Prop where
  selects : ∃ value index inventory,
    p.select enumDesc inventoryType = some (value, .returned (index, inventory)) ∧
      value.number = inventoryType ∧ inventory.inventoryType = some (inventoryType : ℤ)
  answers : Answers enumDesc p inventoryType item

/-- The inventory at an index holds the size of the value at that index. -/
def Full (enumDesc : List EnumValue) (p : Player) (index : ℕ) : Prop :=
  ∃ inventory value, p.getInventory index = some inventory ∧ enumDesc[index]? = some value ∧
    value.inventorySize ≤ inventory.items.length

/-! ### What `Load` and `PushBackItem` do to the inventories -/

section Effect

variable {enumDesc : List EnumValue} {n inventoryType : ℕ} {p p' : Player} {item : Item}
  {inventory : Asset.Inventory} {value : EnumValue} {ended : Ended Bool}

theorem declares_inventoryTypeDescriptor : Declares inventoryTypeDescriptor inventoryTypes := by
  refine ⟨rfl, fun i value h => ?_⟩
  match i with
  | 0 => cases h; rfl
  | 1 => cases h; rfl
  | 2 => cases h; rfl
  | 3 => cases h; rfl
  | i + 4 => cases h

theorem addedInventories_eq (size : ℕ) : addedInventories size =
    (List.range' size (inventoryTypes - size)).map fun index : ℕ =>
      { inventoryType := some (index + 1 : ℤ) } := by
  simp only [addedInventories, bind_pure_comp, List.map_eq_map, List.map_map]
  rfl

/-- **`Load`** completes the inventories of a record that has the first few. -/
theorem setUp_initInventories (h : SetUp n p) (hn : n ≤ inventoryTypes) :
    SetUp inventoryTypes { p with stuff := initInventories p.stuff } := by
  rcases Nat.lt_or_eq_of_le hn with hlt | rfl
  · have hlen : p.stuff.getInventory.inventories.length < inventoryTypes := h.length ▸ hlt
    have hinv : inventories { p with stuff := initInventories p.stuff } =
        p.inventories ++ addedInventories n := by
      rw [inventories, initInventories, if_pos hlen, ← h.length]
      rfl
    constructor
    · rw [hinv, List.length_append, h.length, addedInventories_eq, List.length_map,
        List.length_range']
      omega
    · intro i inventory hi
      rw [hinv] at hi
      by_cases hin : i < n
      · rw [List.getElem?_append_left (h.length ▸ hin)] at hi
        exact h.type i inventory hi
      · rw [List.getElem?_append_right (by rw [h.length]; omega), h.length, addedInventories_eq,
          List.getElem?_map, Option.map_eq_some_iff] at hi
        obtain ⟨j, hj, rfl⟩ := hi
        obtain ⟨hlt, rfl⟩ := List.getElem?_eq_some_iff.mp hj
        rw [List.getElem_range']
        show some (((n + 1 * (i - n) : ℕ) : ℤ) + 1) = some ((i : ℤ) + 1)
        congr 2
        omega
  · rw [initInventories_of_le (by rw [← h.length]; rfl)]
    exact h

/-- **The type is the place of what is selected.** -/
theorem select_returned {index : ℕ}
    (h : p.select enumDesc inventoryType = some (value, .returned (index, inventory))) :
    index = inventoryType ∧ p.getInventory inventoryType = some inventory ∧
      enumDesc[inventoryType]? = some value := by
  rw [select, Option.map_eq_some_iff] at h
  obtain ⟨size, hv, heq⟩ := h
  cases hi : p.getInventory inventoryType with
  | none => rw [hi] at heq; cases heq
  | some other =>
    rw [hi] at heq
    cases heq
    exact ⟨rfl, rfl, hv⟩

/-- An index into both the descriptor and the inventories. -/
theorem pushBackItemOf_eq (hv : enumDesc[inventoryType]? = some value)
    (hi : p.getInventory inventoryType = some inventory) :
    p.pushBackItemOf enumDesc inventoryType (some item) =
      some (if value.inventorySize ≤ inventory.items.length then
        (.returned false, p.setInventories p.inventories)
      else (.fatal, p.setInventories (p.inventories.modify inventoryType (Inventory.add {})))) := by
  have hselect : p.select enumDesc inventoryType =
      some (value, .returned (inventoryType, inventory)) := by rw [select, hv, hi, Option.map_some]
  simp only [pushBackItemOf, hselect, Option.bind_eq_bind, Option.bind_some, copyFrom]
  split <;> rfl

/-- An index into the descriptor only. -/
theorem pushBackItemOf_past (hv : enumDesc[inventoryType]? = some value)
    (hi : p.getInventory inventoryType = none) :
    p.pushBackItemOf enumDesc inventoryType (some item) =
      some (.fatal, p.setInventories p.inventories) := by
  have hselect : p.select enumDesc inventoryType = some (value, .fatal) := by
    rw [select, hv, hi, Option.map_some]
  simp only [pushBackItemOf, hselect, Option.bind_eq_bind, Option.bind_some, Option.pure_def]

theorem pushBackItemOf_none (hv : enumDesc[inventoryType]? = none) :
    p.pushBackItemOf enumDesc inventoryType (some item) = none := by
  simp only [pushBackItemOf, select, hv, Option.map_none, Option.bind_eq_bind, Option.bind_none]

/-- A push leaves the inventories as they are and does not return `true`, or throws after
it has added an entry to one that holds less than the size it read. -/
theorem pushBackItemOf_cases {item : Option Item}
    (h : p.pushBackItemOf enumDesc inventoryType item = some (ended, p')) :
    (ended ≠ .returned true ∧ p'.inventories = p.inventories) ∨
      ended = .fatal ∧ ∃ inventory value, p.getInventory inventoryType = some inventory ∧
        enumDesc[inventoryType]? = some value ∧
        inventory.items.length < value.inventorySize ∧
        p'.inventories = p.inventories.modify inventoryType (Inventory.add {}) := by
  cases item with
  | none =>
    cases h
    exact Or.inl ⟨by decide, rfl⟩
  | some item =>
    cases hv : enumDesc[inventoryType]? with
    | none => rw [pushBackItemOf_none hv] at h; cases h
    | some value =>
      cases hi : p.getInventory inventoryType with
      | none =>
        rw [pushBackItemOf_past hv hi] at h
        cases h
        exact Or.inl ⟨by decide, rfl⟩
      | some inventory =>
        rw [pushBackItemOf_eq hv hi, Option.some.injEq] at h
        split at h
        · cases h
          exact Or.inl ⟨by decide, rfl⟩
        · rename_i hsize
          cases h
          exact Or.inr ⟨rfl, inventory, value, rfl, rfl, not_le.mp hsize, rfl⟩

/-- **Nothing is ever gained**: a `GainItem` that returns, returns `false`. -/
theorem gainItem_returned {item : Option Item} {gained : Bool}
    (h : p.gainItem item = some (.returned gained, p')) :
    gained = false ∧ p'.inventories = p.inventories := by
  cases item with
  | none =>
    cases h
    exact ⟨rfl, rfl⟩
  | some item =>
    rw [gainItem, pushBackItem] at h
    rcases pushBackItemOf_cases h with ⟨hended, hinv⟩ | ⟨hended, _⟩
    · cases gained with
      | false => exact ⟨rfl, hinv⟩
      | true => exact absurd rfl hended
    · cases hended

/-- A type is not the index of its inventory but of the next one. -/
theorem SetUp.getInventory_type (h : SetUp n p)
    (hi : p.getInventory inventoryType = some inventory) :
    inventory.inventoryType = some ((inventoryType : ℤ) + 1) := h.type inventoryType inventory hi

theorem SetUp.getInventory_of_mem (h : SetUp n p) (hm : inventory ∈ p.inventories) :
    ∃ i < n, p.getInventory i = some inventory ∧ inventory.inventoryType = some ((i : ℤ) + 1) := by
  obtain ⟨i, hlt, rfl⟩ := List.mem_iff_getElem.mp hm
  have hi : p.getInventory i = some p.inventories[i] := List.getElem?_eq_getElem hlt
  exact ⟨i, h.length ▸ hlt, hi, h.type i _ hi⟩

theorem Declares.value_of_mem (hd : Declares enumDesc n) (hm : value ∈ enumDesc) :
    ∃ i ≤ n, enumDesc[i]? = some value ∧ value.number = i + 1 := by
  obtain ⟨i, hlt, rfl⟩ := List.mem_iff_getElem.mp hm
  have hi : enumDesc[i]? = some enumDesc[i] := List.getElem?_eq_getElem hlt
  exact ⟨i, by rw [hd.length] at hlt; omega, hi, hd.number i _ hi⟩

theorem setInventories_self (h : p.inventories ≠ []) : p.setInventories p.inventories = p := by
  obtain ⟨entity, session, entityType, commonProp, localZone, locateZone, inventory, prop⟩ := p
  cases inventory with
  | none => exact absurd rfl h
  | some i => rfl

/-- **When a push answers as it should.**  Only if it has nothing to do: the
inventory of the type is full, and so is the next one, which is the one it looks
at. -/
theorem answers_iff (hd : Declares enumDesc n) (hp : SetUp n p) (h1 : 1 ≤ inventoryType)
    (item : Item) : Answers enumDesc p inventoryType item ↔
      Full enumDesc p (inventoryType - 1) ∧ Full enumDesc p inventoryType := by
  constructor
  · rintro ⟨inventory, value, ended, p', hm, htype, hv, hnumber, hpush, hif⟩
    obtain ⟨i, _, hi, hitype⟩ := hp.getInventory_of_mem hm
    obtain ⟨j, _, hj, hjnumber⟩ := hd.value_of_mem hv
    rw [hitype, Option.some.injEq] at htype
    obtain rfl : i = inventoryType - 1 := by omega
    obtain rfl : j = inventoryType - 1 := by omega
    cases hsize : enumDesc[inventoryType]? with
    | none => rw [pushBackItemOf_none hsize] at hpush; cases hpush
    | some size =>
      cases hnext : p.getInventory inventoryType with
      | none =>
        rw [pushBackItemOf_past hsize hnext] at hpush
        cases hpush
        split at hif
        · cases hif.1
        · cases hif.1
      | some next =>
        rw [pushBackItemOf_eq hsize hnext, Option.some.injEq] at hpush
        split at hif
        · rename_i hfull
          split at hpush
          · rename_i hnextFull
            exact ⟨⟨inventory, value, hi, hj, hfull⟩, next, size, hnext, hsize, hnextFull⟩
          · cases hpush; cases hif.1
        · split at hpush
          · cases hpush; cases hif.1
          · cases hpush; cases hif.1
  · rintro ⟨⟨inventory, value, hi, hj, hfull⟩, next, size, hnext, hsize, hnextFull⟩
    have hpos : ((inventoryType - 1 : ℕ) : ℤ) + 1 = inventoryType := by omega
    have hm := List.mem_of_getElem? hi
    refine ⟨inventory, value, .returned false, p, hm, ?_, List.mem_of_getElem? hj, ?_, ?_, ?_⟩
    · rw [hp.getInventory_type hi, hpos]
    · rw [hd.number _ _ hj, hpos]
    · rw [pushBackItemOf_eq hsize hnext, if_pos hnextFull,
        setInventories_self (List.ne_nil_of_mem hm)]
    · rw [if_pos hfull]
      exact ⟨rfl, rfl⟩

/-- What is selected for a type is not of the type. -/
theorem SetUp.not_selects (hp : SetUp n p) : ¬ ∃ value index inventory,
    p.select enumDesc inventoryType = some (value, .returned (index, inventory)) ∧
      value.number = inventoryType ∧ inventory.inventoryType = some (inventoryType : ℤ) := by
  rintro ⟨value, index, inventory, hselect, -, htype⟩
  rw [hp.getInventory_type (select_returned hselect).2.1, Option.some.injEq] at htype
  omega

/-- **No push stores what it is given**, whatever the types, their sizes and the contents
of the inventories: what `PushBackItem` selects is of another type, or it throws past the
last one.  The answer alone comes out right all the same exactly if there is nothing to
do, neither in the inventory of the type nor in the one that is selected. -/
theorem never_stores (hd : Declares enumDesc n) (hp : SetUp n p) (h1 : 1 ≤ inventoryType)
    (item : Item) : ¬ Stores enumDesc p inventoryType item ∧
      (Answers enumDesc p inventoryType item ↔
        Full enumDesc p (inventoryType - 1) ∧ Full enumDesc p inventoryType) :=
  ⟨fun h => hp.not_selects h.selects, answers_iff hd hp h1 item⟩

/-! ### Runs of pushes -/

/-- A call of `PushBackItem` with any type and any item, or none. -/
def push (enumDesc : List EnumValue) (p : Player) (call : ℕ × Option Item) : Option Player :=
  (p.pushBackItemOf enumDesc call.1 call.2).map (·.2)

variable {call : ℕ × Option Item}

theorem push_cases (h : push enumDesc p call = some p') : p'.inventories = p.inventories ∨
    ∃ inventory value, p.getInventory call.1 = some inventory ∧ enumDesc[call.1]? = some value ∧
      inventory.items.length < value.inventorySize ∧
      p'.inventories = p.inventories.modify call.1 (Inventory.add {}) := by
  obtain ⟨⟨ended, q⟩, hpush, rfl⟩ := Option.map_eq_some_iff.mp h
  rcases pushBackItemOf_cases hpush with ⟨_, hinv⟩ | ⟨_, hadded⟩
  · exact Or.inl hinv
  · exact Or.inr hadded

theorem SetUp.push (hp : SetUp n p) (h : push enumDesc p call = some p') : SetUp n p' := by
  rcases push_cases h with heq | ⟨inventory, value, hi, _, _, heq⟩
  · exact ⟨heq ▸ hp.length, fun i inventory hi => hp.type i inventory (heq ▸ hi)⟩
  · constructor
    · rw [heq, List.length_modify, hp.length]
    · intro i other ho
      rw [heq, List.getElem?_modify, Option.map_eq_map, Option.map_eq_some_iff] at ho
      obtain ⟨old, hold, rfl⟩ := ho
      have htype := hp.type i old hold
      split <;> exact htype

theorem Within.push (hd : Declares enumDesc n) (hp : SetUp n p) (hw : Within enumDesc p)
    (h : push enumDesc p call = some p') : Within enumDesc p' := by
  rcases push_cases h with heq | ⟨inventory, value, hi, hv, hlt, heq⟩
  · rw [Within, heq]
    exact hw
  · intro other ho size hs htype
    rw [heq] at ho
    obtain ⟨i, ho⟩ := List.mem_iff_getElem?.mp ho
    rw [List.getElem?_modify, Option.map_eq_map, Option.map_eq_some_iff] at ho
    obtain ⟨old, hold, rfl⟩ := ho
    split at htype
    · rename_i hcall
      subst hcall
      obtain rfl : inventory = old := Option.some.inj (hi.symm.trans hold)
      obtain ⟨j, _, hj, hjnumber⟩ := hd.value_of_mem hs
      have hnumber : some ((call.1 : ℤ) + 1) = some size.number :=
        (hp.getInventory_type hi).symm.trans htype
      rw [hjnumber, Option.some.injEq] at hnumber
      obtain rfl : call.1 = j := by omega
      obtain rfl : value = size := Option.some.inj (hv.symm.trans hj)
      rw [if_pos rfl, Inventory.add, List.length_append, List.length_singleton]
      push_cast
      omega
    · rename_i hcall
      rw [if_neg hcall]
      exact hw old (List.mem_of_getElem? hold) size hs htype

/-- **The limits hold all the same.**  Since it takes the size from where it
takes the inventory, no run of pushes fills one beyond its limit. -/
theorem within_run (hd : Declares enumDesc n) (hp : SetUp n p) (hw : Within enumDesc p)
    (calls : List (ℕ × Option Item)) :
    Always (push enumDesc) (fun p => SetUp n p ∧ Within enumDesc p) p calls :=
  always_of_step (fun _ _ _ hi hs => ⟨hi.1.push hs, hi.2.push hd hi.1 hs⟩) calls p ⟨hp, hw⟩

end Effect

/-- A player whose record was new. -/
def newcomer : Player := { session := 1, stuff := initInventories {} }

theorem newcomer_setUp : SetUp inventoryTypes newcomer := by
  have h : SetUp 0 { newcomer with stuff := {} } := by
    refine ⟨rfl, fun i inventory hi => ?_⟩
    cases hi
  exact setUp_initInventories h (Nat.zero_le _)

/-- The last type: there is no inventory of the next one. -/
theorem newcomer_never_stores : ¬ Stores inventoryTypeDescriptor newcomer 3 {} ∧
    ¬ Answers inventoryTypeDescriptor newcomer 3 {} := by
  obtain ⟨hnot, hanswers⟩ :=
    never_stores declares_inventoryTypeDescriptor newcomer_setUp (show 1 ≤ 3 by decide) {}
  refine ⟨hnot, fun h => ?_⟩
  obtain ⟨-, inventory, value, hi, -, -⟩ := hanswers.mp h
  have hpast : newcomer.getInventory 3 = none := by decide
  rw [hpast] at hi
  cases hi

/-- An item for the backpack: the equipment is selected, a blank entry goes into it, and
the call throws. -/
theorem backpack_not_stored : Declares inventoryTypeDescriptor 3 ∧ SetUp 3 newcomer ∧
    (newcomer.select inventoryTypeDescriptor 1).map (fun q => (q.1.number, q.2)) =
      some (2, .returned (1, ⟨some 2, []⟩)) ∧
    newcomer.pushBackItem 1 (some {}) =
      some (.fatal, newcomer.setInventories [⟨some 1, []⟩, ⟨some 2, [{}]⟩, ⟨some 3, []⟩]) ∧
    ¬ Stores inventoryTypeDescriptor newcomer 1 {} := by
  have hselect : (newcomer.select inventoryTypeDescriptor 1).map (fun q => (q.1.number, q.2)) =
      some (2, .returned (1, ⟨some 2, []⟩)) := by decide
  refine ⟨declares_inventoryTypeDescriptor, newcomer_setUp, hselect, by decide, fun h => ?_⟩
  obtain ⟨value, index, inventory, hselected, -, htype⟩ := h.selects
  rw [hselected, Option.map_some, Option.some.injEq, Prod.mk.injEq] at hselect
  cases hselect.2
  exact absurd htype (by decide)

end Player

end GameService
