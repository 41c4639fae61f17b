import GameService.Asset.Tables

/-!
# What is read from a file

An asset file is the length of a message in decimal and then the message.  `LoadAssets`
reads the length, rejects `0` and anything above `1024`, and takes that many bytes with
`readsome` into an array on the stack.  It does not look at how many bytes there were, so
the rest of the array is whatever was there before; it does not reject a negative length;
and it does not look at what `ParseFromArray` returns.

`Faithful` is what should come of a file, whatever its bytes: it is rejected, or the
message that it encodes is registered.  `faithful_iff` is the exact condition, for a file
that fits the buffer of the stream.
-/

namespace GameService

open Lib Asset

namespace AssetFile

/-- What follows the length. -/
def payload (f : AssetFile) : Bytes := (extractInt32 f.bytes).rest

/-- `readsome` finds the whole file in the buffer. -/
def Buffered (f : AssetFile) : Prop := f.payload.length ≤ f.inAvail

instance (f : AssetFile) : Decidable f.Buffered :=
  inferInstanceAs (Decidable (f.payload.length ≤ f.inAvail))

/-- The length is one of a message, and so many bytes follow it. -/
structure Whole (f : AssetFile) : Prop where
  size : 1 ≤ f.size ∧ f.size ≤ 1024
  payload : f.size.toNat ≤ f.payload.length

variable {f : AssetFile}

/-- A stream that has read a length is still good if something follows. -/
theorem good_of_size {b : Bytes} (h : 1 ≤ (extractInt32 b).value ∧ (extractInt32 b).value ≤ 1024) :
    (extractInt32 b).good = decide ((extractInt32 b).rest ≠ []) := by
  revert h
  rw [extractInt32]
  dsimp only
  split
  · intro h
    exact absurd (show (1 : ℤ) ≤ 0 from h.1) (by decide)
  · split
    · intro h
      exact absurd (show (1 : ℤ) ≤ -2 ^ 31 from h.1) (by decide)
    · split
      · intro h
        exact absurd (show (2 : ℤ) ^ 31 - 1 ≤ 1024 from h.2) (by decide)
      · intro _
        rfl

/-- **What is read** of a file that is whole is the message. -/
theorem received_eq (hw : f.Whole) (hb : f.Buffered) :
    f.received = f.payload.take f.size.toNat := by
  have hlen := hw.payload
  have hsize := hw.size
  have hne : f.payload ≠ [] := by
    intro hnil
    rw [hnil, List.length_nil] at hlen
    omega
  have hmin : min f.inAvail f.size.toNat = f.size.toNat := by
    have : f.payload.length ≤ f.inAvail := hb
    omega
  have hgood : (extractInt32 f.bytes).good = true :=
    (good_of_size hw.size).trans (decide_eq_true hne)
  rw [received, hgood, if_pos rfl, hmin]
  rfl

/-- The array has nothing else in it then. -/
theorem map_content (hw : f.Whole) (hb : f.Buffered) :
    (List.range f.size.toNat).map f.content = f.payload.take f.size.toNat := by
  have hlen : (f.payload.take f.size.toNat).length = f.size.toNat := by
    rw [List.length_take]
    exact min_eq_left hw.payload
  refine List.ext_getElem ?_ fun i hi hi' => ?_
  · rw [List.length_map, List.length_range, hlen]
  · rw [List.getElem_map, List.getElem_range, content, received_eq hw hb,
      List.getElem?_eq_getElem hi', Option.getD_some]

end AssetFile

namespace AssetManager

variable {μ : Type} {c : AssetCodec μ} {s : AssetManager μ} {folder : String} {f : AssetFile}
  {o : AssetObject μ}

def IsAssetFolder (folder : String) : Prop :=
  ∃ d t, AssetDescriptor.findMessageTypeByName folder = some d ∧ d.typeField = some t ∧
    d.hasCommonProp = true

/-- The object has the message that the file encodes. -/
structure Encodes (c : AssetCodec μ) (folder : String) (f : AssetFile) (o : AssetObject μ) :
    Prop where
  whole : f.Whole
  origin : o.origin = (folder, f)
  descriptor : AssetDescriptor.findMessageTypeByName folder = some o.descriptor
  typeT : o.descriptor.typeField = some o.typeT
  message : c.parse o.descriptor (f.payload.take f.size.toNat) = (true, o.message)
  globalId : o.globalId = c.globalId o.descriptor o.message

/-- **What should come of a file**: `LoadAssets` returns `false`, or registers the
message that the file encodes. -/
def Faithful (c : AssetCodec μ) (folder : String) (f : AssetFile) (s : AssetManager μ) : Prop :=
  loadAssets c folder (.file f .done) s = (false, s) ∨
    ∃ o, Encodes c folder f o ∧ loadAssets c folder (.file f .done) s = (true, s.register o)

def Parses (c : AssetCodec μ) (folder : String) (f : AssetFile) : Prop :=
  ∀ d, AssetDescriptor.findMessageTypeByName folder = some d →
    (c.parse d (f.payload.take f.size.toNat)).1 = true

/-- `LoadAssets` has a reason to return `false` that it looks at. -/
def Rejected (folder : String) (f : AssetFile) : Prop :=
  f.opens = false ∨ f.size = 0 ∨ f.size > 1024 ∨ ¬ IsAssetFolder folder

/-! ### Reading and registering -/

theorem loadAssets_file (c : AssetCodec μ) (folder : String) (f : AssetFile) (s : AssetManager μ) :
    loadAssets c folder (.file f .done) s =
      match readAsset c folder f with
      | none => (false, s)
      | some o => (true, s.register o) := by
  rw [loadAssets]
  cases readAsset c folder f <;> rfl

theorem readAsset_eq_none_iff : readAsset c folder f = none ↔ Rejected folder f := by
  rw [Rejected, readAsset]
  by_cases hopens : f.opens = false
  · rw [if_pos hopens]
    exact iff_of_true rfl (Or.inl hopens)
  · rw [if_neg hopens, or_iff_right hopens, ← or_assoc]
    by_cases hsize : f.size = 0 ∨ f.size > 1024
    · rw [if_pos hsize]
      exact iff_of_true rfl (Or.inl hsize)
    · rw [if_neg hsize, or_iff_right hsize, IsAssetFolder]
      cases hd : AssetDescriptor.findMessageTypeByName folder with
      | none => simp
      | some d =>
        cases ht : d.typeField with
        | none => simp [ht]
        | some t =>
          cases hprop : d.hasCommonProp <;> simp [ht, hprop]

/-- The object that is registered for a file that is whole and parses. -/
theorem readAsset_encodes (hw : f.Whole) (hb : f.Buffered) (hparses : Parses c folder f)
    (h : readAsset c folder f = some o) : Encodes c folder f o := by
  have horigin := readAsset_origin h
  rw [readAsset] at h
  obtain ⟨-, h⟩ := Option.ite_none_left_eq_some.mp h
  obtain ⟨-, h⟩ := Option.ite_none_left_eq_some.mp h
  obtain ⟨d, hd, h⟩ := Option.bind_eq_some_iff.mp h
  obtain ⟨t, ht, h⟩ := Option.bind_eq_some_iff.mp h
  obtain ⟨-, h⟩ := Option.ite_none_right_eq_some.mp h
  have hnonneg : 0 ≤ f.size := by
    have := hw.size
    omega
  have hparse : c.parseFromArray d f = c.parse d (f.payload.take f.size.toNat) := by
    rw [AssetCodec.parseFromArray, if_pos hnonneg, AssetFile.map_content hw hb]
  cases h
  refine ⟨hw, horigin, hd, ht, ?_, rfl⟩
  exact Prod.ext (hparses d hd) (congrArg Prod.snd hparse).symm

/-- **When a file is read faithfully.**  For every file that fits the buffer of the
stream, every folder and every content of the tables: if and only if it is rejected for
its length, its folder or because it does not open, or its length is right, so many
bytes follow, and they are parsed. -/
theorem faithful_iff (c : AssetCodec μ) (folder : String) (f : AssetFile) (s : AssetManager μ)
    (hb : f.Buffered) : Faithful c folder f s ↔
      Rejected folder f ∨ f.Whole ∧ Parses c folder f := by
  rw [Faithful, loadAssets_file, ← readAsset_eq_none_iff (c := c)]
  cases ho : readAsset c folder f with
  | none => exact iff_of_true (Or.inl rfl) (Or.inl rfl)
  | some o =>
    constructor
    · rintro (hfalse | ⟨o', hencodes, -⟩)
      · cases hfalse
      · refine Or.inr ⟨hencodes.whole, fun d hd => ?_⟩
        obtain rfl := Option.some.inj (hd.symm.trans hencodes.descriptor)
        rw [hencodes.message]
    · rintro (hnone | ⟨hw, hparses⟩)
      · cases hnone
      · exact Or.inr ⟨o, readAsset_encodes hw hb hparses ho, rfl⟩

theorem findScene : AssetDescriptor.findMessageTypeByName "Scene" = some .scene := by decide +kernel

theorem sceneFile_faithful : Faithful assetCodec "Scene" sceneFile {} := by
  refine (faithful_iff assetCodec "Scene" sceneFile {} (by decide +kernel)).mpr (Or.inr ⟨?_, ?_⟩)
  · exact ⟨by decide +kernel, by decide +kernel⟩
  · intro d hd
    cases hd.symm.trans findScene
    decide +kernel

def negativeFile : AssetFile := { name := "negative", bytes := [45, 49] }

def shortFile : AssetFile := { name := "short", bytes := [49, 48, 8] }

def garbageFile : AssetFile := { name := "garbage", bytes := [49, 10] }

/-- A scene is registered for a length that is negative, for too few bytes and for a
byte that is not parsed. -/
theorem malformed_not_faithful :
    (negativeFile.Buffered ∧ ¬ Faithful assetCodec "Scene" negativeFile {}) ∧
      (shortFile.Buffered ∧ ¬ Faithful assetCodec "Scene" shortFile {}) ∧
      (garbageFile.Buffered ∧ ¬ Faithful assetCodec "Scene" garbageFile {}) := by
  have hread : ∀ f ∈ [negativeFile, shortFile, garbageFile],
      (readAsset assetCodec "Scene" f).isSome := by
    intro f hf
    rcases List.mem_cons.mp hf with rfl | hf
    · decide +kernel
    · rcases List.mem_cons.mp hf with rfl | hf
      · decide +kernel
      · rcases List.mem_singleton.mp hf with rfl
        decide +kernel
  have hencodes : ∀ f ∈ [negativeFile, shortFile, garbageFile],
      Faithful assetCodec "Scene" f {} → ∃ o, Encodes assetCodec "Scene" f o := by
    intro f hf h
    obtain ⟨o, ho⟩ := Option.isSome_iff_exists.mp (hread f hf)
    rw [Faithful, loadAssets_file, ho] at h
    obtain hfalse | ⟨o', ho', -⟩ := h
    · cases hfalse
    · exact ⟨o', ho'⟩
  refine ⟨⟨by decide +kernel, fun h => ?_⟩, ⟨by decide +kernel, fun h => ?_⟩,
    by decide +kernel, fun h => ?_⟩
  · obtain ⟨o, ho⟩ := hencodes _ (by simp) h
    exact absurd ho.whole.size (by decide +kernel)
  · obtain ⟨o, ho⟩ := hencodes _ (by simp) h
    exact absurd ho.whole.payload (by decide +kernel)
  · obtain ⟨o, ho⟩ := hencodes _ (by simp) h
    have hd : o.descriptor = .scene := Option.some.inj (ho.descriptor.symm.trans findScene)
    have hparsed : (assetCodec.parse o.descriptor _).1 = true := congrArg Prod.fst ho.message
    rw [hd] at hparsed
    exact absurd hparsed (by decide +kernel)

end AssetManager

end GameService
