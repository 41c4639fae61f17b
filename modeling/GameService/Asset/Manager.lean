import GameService.Asset
import GameService.Lib.FixedWidth
import GameService.Lib.Unordered

/-!
# The asset files

`AssetManager` of `Asset.cpp`.  `LoadAssets` goes through a directory and its
subdirectories; each file in a directory is a message of the type that the
directory is named after.  A file begins with the length of the message in decimal,
and the message follows.

A `Listing` is a directory in the order in which an iterator goes through it.  A
file comes with what reading it depends on: whether it opens, its bytes, how many
of them `readsome` finds in the buffer, and what the array it is read into holds
before.  A pointer to a message is its place in `objects`.
-/

namespace GameService

open Lib Asset

/-! ### The messages of P_Asset.proto -/

/-- The messages of the file, in its order. -/
inductive AssetDescriptor
  | vector3 | commonProp | assetCommonProp | plant | commonLimit | coolDown | hoster | harm | skill
  | levelUpCurve | scene | particle | itemCommonProp | itemItem | itemPotion | itemEquipment
  deriving DecidableEq, Repr

namespace AssetDescriptor

def fileDescriptor : List AssetDescriptor :=
  [.vector3, .commonProp, .assetCommonProp, .plant, .commonLimit, .coolDown, .hoster, .harm, .skill,
    .levelUpCurve, .scene, .particle, .itemCommonProp, .itemItem, .itemPotion, .itemEquipment]

def name : AssetDescriptor → String
  | .vector3 => "Vector3"
  | .commonProp => "CommonProp"
  | .assetCommonProp => "AssetCommonProp"
  | .plant => "Plant"
  | .commonLimit => "CommonLimit"
  | .coolDown => "CoolDown"
  | .hoster => "Hoster"
  | .harm => "Harm"
  | .skill => "Skill"
  | .levelUpCurve => "LevelUpCurve"
  | .scene => "Scene"
  | .particle => "Particle"
  | .itemCommonProp => "Item_CommonProp"
  | .itemItem => "Item_Item"
  | .itemPotion => "Item_Potion"
  | .itemEquipment => "Item_Equipment"

/-- The default of the field `type_t`, which is the first of every message that has
it. -/
def typeField : AssetDescriptor → Option ℕ
  | .plant => some 2
  | .commonLimit => some 3
  | .coolDown => some 5
  | .hoster => some 6
  | .skill => some 7
  | .levelUpCurve => some 8
  | .scene => some 9
  | .particle => some 10
  | .itemItem => some 201
  | .itemPotion => some 202
  | .itemEquipment => some 203
  | _ => none

/-- The message has a `common_prop`, or an `item_common_prop` that has one. -/
def hasCommonProp : AssetDescriptor → Bool
  | .plant | .commonLimit | .coolDown | .hoster | .skill | .levelUpCurve | .scene => true
  | .particle | .itemCommonProp | .itemPotion | .itemEquipment => true
  | _ => false

def findMessageTypeByName (messageName : String) : Option AssetDescriptor :=
  fileDescriptor.find? fun d => d.name = messageName

end AssetDescriptor

/-- The generated code of these messages.  `overrun` is what `ParseFromArray` makes
of an array and a negative length; `globalId` is the `global_id` of a message's
`common_prop`. -/
structure AssetCodec (μ : Type) where
  parse : AssetDescriptor → Bytes → Bool × μ
  overrun : AssetDescriptor → (ℕ → UInt8) → ℤ → Bool × μ
  globalId : AssetDescriptor → μ → ℤ

def AssetCodec.ofIds (ids : List (Bytes × ℤ)) : AssetCodec Bytes where
  parse _ b := ((ids.find? (·.1 = b)).isSome, b)
  overrun _ _ _ := (false, [])
  globalId _ b := ((ids.find? (·.1 = b)).map (·.2)).getD 0

/-! ### Reading a file -/

structure AssetFile where
  name : String
  opens : Bool := true
  bytes : Bytes := []
  inAvail : ℕ := 8191
  stack : ℕ → UInt8 := fun _ => 0

/-- A number that `>>` has read: its value, whether the stream is still good, and
what is left of it. -/
structure Extracted where
  value : ℤ
  good : Bool
  rest : Bytes

def isSpace (b : UInt8) : Bool := b = 32 ∨ 9 ≤ b ∧ b ≤ 13

def isDigit (b : UInt8) : Bool := 48 ≤ b ∧ b ≤ 57

/-- The sign of a number, and what follows it. -/
def sign : Bytes → ℤ × Bytes
  | 45 :: rest => (-1, rest)
  | 43 :: rest => (1, rest)
  | bytes => (1, bytes)

/-- `>>` for an `int32_t`.  Without a digit it gives `0`, and a number that does not
fit gives the bound that it is beyond; the stream is not good any more then, and
neither is it when the number goes up to its end. -/
def extractInt32 (bytes : Bytes) : Extracted :=
  let (factor, bytes) := sign (bytes.dropWhile isSpace)
  let digits := bytes.takeWhile isDigit
  let rest := bytes.dropWhile isDigit
  let value := factor * digits.foldl (fun n b => 10 * n + ((b.toNat : ℤ) - 48)) 0
  if digits = [] then ⟨0, false, rest⟩
  else if value < -2 ^ 31 then ⟨-2 ^ 31, false, rest⟩
  else if 2 ^ 31 ≤ value then ⟨2 ^ 31 - 1, false, rest⟩
  else ⟨value, rest ≠ [], rest⟩

namespace AssetFile

def size (f : AssetFile) : ℤ := (extractInt32 f.bytes).value

/-- `readsome`, which takes at most what the buffer of the stream holds. -/
def received (f : AssetFile) : Bytes :=
  let header := extractInt32 f.bytes
  if header.good then header.rest.take (min f.inAvail f.size.toNat) else []

/-- The array `content` after that. -/
def content (f : AssetFile) (i : ℕ) : UInt8 := (f.received[i]?).getD (f.stack i)

end AssetFile

def AssetCodec.parseFromArray {μ : Type} (c : AssetCodec μ) (d : AssetDescriptor)
    (f : AssetFile) : Bool × μ :=
  if 0 ≤ f.size then c.parse d ((List.range f.size.toNat).map f.content)
  else c.overrun d f.content f.size

/-- A message in the tables: the folder and the file it comes from, the message, its
`global_id`, and the type that its class declares. -/
structure AssetObject (μ : Type) where
  origin : String × AssetFile
  descriptor : AssetDescriptor
  message : μ
  globalId : ℤ
  typeT : ℕ

/-- What is done with a file up to the point where it goes into the tables; nothing
where `LoadAssets` returns `false`.  Whether the message was parsed is not looked
at. -/
def readAsset {μ : Type} (c : AssetCodec μ) (folder : String) (f : AssetFile) :
    Option (AssetObject μ) :=
  if f.opens = false then none
  else if f.size = 0 ∨ f.size > 1024 then none
  else do
    let d ← AssetDescriptor.findMessageTypeByName folder
    let message := (c.parseFromArray d f).2
    let typeT ← d.typeField
    if d.hasCommonProp then
      return ⟨(folder, f), d, message, c.globalId d message, typeT⟩
    else none

/-! ### The tables -/

/-- A directory, as an iterator goes through it. -/
inductive Listing
  | done
  | file (f : AssetFile) (rest : Listing)
  | dir (name : String) (entries rest : Listing)

/-- `messages`, `_assets` and `_assets_bytypes`, and the messages that the last two
point to. -/
structure AssetManager (μ : Type) where
  messages : UnorderedMap ℕ AssetDescriptor := ∅
  objects : List (AssetObject μ) := []
  assets : UnorderedMap ℤ ℕ := ∅
  assetsBytypes : UnorderedMap ℕ (Finset ℕ) := ∅

namespace AssetManager

variable {μ : Type}

/-- The message of a file goes into both tables. -/
def register (s : AssetManager μ) (o : AssetObject μ) : AssetManager μ :=
  { s with
    objects := s.objects ++ [o]
    assets := s.assets.emplace o.globalId s.objects.length
    assetsBytypes := s.assetsBytypes.insertIn o.typeT s.objects.length }

/-- `LoadAssets` of the rest of a directory.  What it returns for a subdirectory is
not looked at. -/
def loadAssets (c : AssetCodec μ) (folder : String) :
    Listing → AssetManager μ → Bool × AssetManager μ
  | .done, s => (true, s)
  | .dir name entries rest, s => loadAssets c folder rest (loadAssets c name entries s).2
  | .file f rest, s =>
    match readAsset c folder f with
    | none => (false, s)
    | some o => loadAssets c folder rest (s.register o)

/-- The first half of `Load`: for each type the first message that declares it. -/
def loadMessages : AssetManager μ where
  messages := AssetDescriptor.fileDescriptor.foldl (UnorderedMap.enter AssetDescriptor.typeField) ∅

/-- `Load`, of the directory `./Asset/Asset/` if there is one. -/
def load (c : AssetCodec μ) (root : Option Listing) : Bool × AssetManager μ :=
  match root with
  | none => (true, loadMessages)
  | some listing => loadAssets c "Asset" listing loadMessages

def getMessage (s : AssetManager μ) (messageType : ℕ) : Option AssetDescriptor :=
  s.messages.find messageType

def getMessagesByType (s : AssetManager μ) (messageType : ℕ) : Finset ℕ :=
  s.assetsBytypes.bucket messageType

def get (s : AssetManager μ) (globalId : ℤ) : Option ℕ := s.assets.find globalId

def getMessageTypeFrom (globalId : ℤ) : ℤ := wrap32 (globalId / 2 ^ 16)

end AssetManager

/-- The files below a directory, each with its folder, in the order in which they are
read. -/
def Listing.files (folder : String) : Listing → List (String × AssetFile)
  | .done => []
  | .file f rest => (folder, f) :: rest.files folder
  | .dir name entries rest => entries.files name ++ rest.files folder

/-! ### What loading leaves in the tables -/

namespace AssetManager

variable {μ : Type} {c : AssetCodec μ} {s : AssetManager μ} {o : AssetObject μ}

/-- The tables are of the objects: `_assets` has the first with each id, and
`_assets_bytypes` has all of them. -/
structure Tabled (s : AssetManager μ) : Prop where
  assets : ∀ id, s.get id = s.objects.findIdx? fun o => o.globalId = id
  assetsBytypes : ∀ t p, p ∈ s.getMessagesByType t ↔ ∃ o, s.objects[p]? = some o ∧ o.typeT = t

theorem tabled_loadMessages : Tabled (loadMessages : AssetManager μ) :=
  ⟨fun _ => rfl, fun _ _ => iff_of_false (Finset.notMem_empty _) fun ⟨_, ho, _⟩ => by cases ho⟩

theorem Tabled.register (h : Tabled s) (o : AssetObject μ) : Tabled (s.register o) := by
  constructor
  · intro id
    show (s.assets.emplace o.globalId s.objects.length).find id = (s.objects ++ [o]).findIdx? _
    have hself := h.assets o.globalId
    have hid := h.assets id
    rw [get] at hself hid
    rw [UnorderedMap.find_emplace, hid, hself, List.findIdx?_append, List.findIdx?_singleton]
    by_cases heq : id = o.globalId
    · rw [if_pos heq, heq, if_pos (decide_eq_true rfl)]
      cases s.objects.findIdx? fun o' => decide (o'.globalId = o.globalId) with
      | none => simp
      | some p => rfl
    · rw [if_neg heq, if_neg fun hd => heq (of_decide_eq_true hd).symm, Option.map_none,
        Option.or_none]
  · intro t p
    show p ∈ (s.assetsBytypes.insertIn o.typeT s.objects.length).bucket t ↔
      ∃ o', (s.objects ++ [o])[p]? = some o' ∧ o'.typeT = t
    have hp := h.assetsBytypes t p
    rw [getMessagesByType] at hp
    rw [UnorderedMap.mem_insertIn, hp]
    rcases lt_trichotomy p s.objects.length with hlt | rfl | hgt
    · rw [List.getElem?_append_left hlt]
      exact or_iff_right fun hself => absurd hself.2 hlt.ne
    · rw [List.getElem?_concat_length]
      constructor
      · rintro (⟨rfl, -⟩ | ⟨o', ho, -⟩)
        · exact ⟨o, rfl, rfl⟩
        · rw [List.getElem?_eq_none le_rfl] at ho
          cases ho
      · rintro ⟨o', ho, ht⟩
        cases ho
        exact Or.inl ⟨ht.symm, rfl⟩
    · have hnone : (s.objects ++ [o])[p]? = none := by
        rw [List.getElem?_eq_none_iff, List.length_append, List.length_singleton]
        exact hgt
      rw [hnone, List.getElem?_eq_none hgt.le]
      constructor
      · rintro (⟨-, rfl⟩ | ⟨o', ho, -⟩)
        · exact absurd hgt (lt_irrefl _)
        · cases ho
      · rintro ⟨o', ho, -⟩
        cases ho

end AssetManager

end GameService
