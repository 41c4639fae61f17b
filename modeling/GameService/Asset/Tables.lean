import GameService.Asset.Loading

/-!
# The two tables of assets

An asset is in `_assets` under its `global_id` and in `_assets_bytypes` under the
type of its class, and the upper half of the id is meant to be that type.  The two
tables are filled apart: a second file with an id that is taken goes into the table
of types only, so it is the order of the directory that says which one `Get`
returns; and nobody compares the id with the folder.

`Agrees` says that the tables agree and do not depend on the order.  For a directory
of well-formed files, `agrees_iff` has the exact condition: the ids are distinct, and
each has the type of its folder.
-/

namespace GameService

open Lib Asset

namespace Listing

def append : Listing → Listing → Listing
  | done, l => l
  | file f rest, l => file f (rest.append l)
  | dir name entries rest, l => dir name entries (rest.append l)

/-- The same directory in another order, and its subdirectories likewise. -/
inductive Shuffle : Listing → Listing → Prop
  | refl (l : Listing) : Shuffle l l
  | swap (a b l : Listing) : Shuffle (a.append (b.append l)) (b.append (a.append l))
  | file (f : AssetFile) {l l' : Listing} (h : Shuffle l l') : Shuffle (.file f l) (.file f l')
  | dir (name : String) {e e' l l' : Listing} (he : Shuffle e e') (hl : Shuffle l l') :
      Shuffle (.dir name e l) (.dir name e' l')
  | trans {l l' l'' : Listing} (h : Shuffle l l') (h' : Shuffle l' l'') : Shuffle l l''

theorem files_append (folder : String) : ∀ l l' : Listing,
    (l.append l').files folder = l.files folder ++ l'.files folder := by
  intro l l'
  induction l with
  | done => rfl
  | file f rest ih => rw [append, files, files, ih, List.cons_append]
  | dir name entries rest _ ihr => rw [append, files, files, ihr, List.append_assoc]

theorem Shuffle.files_perm {l l' : Listing} (h : Shuffle l l') :
    ∀ folder, (l.files folder).Perm (l'.files folder) := by
  induction h with
  | refl l => intro folder; exact .refl _
  | swap a b l =>
    intro folder
    rw [files_append, files_append, files_append, files_append, ← List.append_assoc,
      ← List.append_assoc]
    exact List.perm_append_comm.append_right _
  | file f h ih => intro folder; exact (ih folder).cons _
  | dir name he hl ihe ihl => intro folder; exact (ihe name).append (ihl folder)
  | trans h h' ih ih' => intro folder; exact (ih folder).trans (ih' folder)

end Listing

namespace AssetManager

variable {μ : Type} {c : AssetCodec μ} {s : AssetManager μ} {l l' : Listing}

/-- What `Get` gives: the class of the message and its contents. -/
def contents (s : AssetManager μ) (globalId : ℤ) : Option (AssetDescriptor × μ) :=
  (s.get globalId).bind fun p => (s.objects[p]?).map fun o => (o.descriptor, o.message)

/-- **The tables agree**: a message is among those of a type if and only if that is
its type and `Get` returns it, its id has its type, and what `Get` returns is the
same for all orders. -/
def Agrees (c : AssetCodec μ) (l : Listing) : Prop :=
  (load c (some l)).1 = true →
    (∀ p o, (load c (some l)).2.objects[p]? = some o →
      (∀ t, p ∈ (load c (some l)).2.getMessagesByType t ↔
        t = o.typeT ∧ (load c (some l)).2.get o.globalId = some p) ∧
      getMessageTypeFrom o.globalId = o.typeT) ∧
    ∀ l', l.Shuffle l' → ∀ id,
      (load c (some l')).2.contents id = (load c (some l)).2.contents id

/-- The ids are distinct, and each has the type of its folder in its upper half. -/
def Numbered (c : AssetCodec μ) (l : Listing) : Prop :=
  ((l.files "Asset").map (fileId c)).Nodup ∧
    ∀ x ∈ l.files "Asset", ∀ o, readAsset c x.1 x.2 = some o →
      getMessageTypeFrom o.globalId = o.typeT

theorem Tabled.contents_eq (h : Tabled s) (id : ℤ) : s.contents id =
    (s.objects.find? fun o => o.globalId = id).map fun o => (o.descriptor, o.message) := by
  rw [contents, h.assets, List.find?_eq_bind_findIdx?_getElem?, Option.map_bind]
  rfl

theorem mem_readAll {files : List (String × AssetFile)} {o : AssetObject μ} :
    o ∈ readAll c files ↔ ∃ x ∈ files, readAsset c x.1 x.2 = some o := List.mem_filterMap

/-- With distinct ids the order of the directory does not matter. -/
theorem contents_shuffle (h : ∀ x ∈ l.files "Asset", (readAsset c x.1 x.2).isSome)
    (hnodup : ((l.files "Asset").map (fileId c)).Nodup) (hs : l.Shuffle l') (id : ℤ) :
    (load c (some l')).2.contents id = (load c (some l)).2.contents id := by
  have hperm := hs.files_perm "Asset"
  have h' : ∀ x ∈ l'.files "Asset", (readAsset c x.1 x.2).isSome :=
    fun x hx => h x (hperm.mem_iff.mpr hx)
  obtain ⟨-, htabled, hobjects⟩ := load_of_isSome h
  obtain ⟨-, htabled', hobjects'⟩ := load_of_isSome h'
  rw [(map_readAll _ h).2, List.nodup_map_iff (Option.some_injective ℤ)] at hnodup
  have hread : (readAll c (l.files "Asset")).Perm (readAll c (l'.files "Asset")) :=
    hperm.filterMap _
  rw [htabled.contents_eq, htabled'.contents_eq, hobjects, hobjects',
    find?_perm (·.globalId) hnodup hread id]

/-- **When the tables agree.**  For any directory of well-formed files: the tables
agree, and are the same for every order in which the directories are gone through,
if and only if the ids are distinct and each has the type of its folder. -/
theorem agrees_iff (c : AssetCodec μ) (l : Listing)
    (hgood : ∀ x ∈ l.files "Asset", WellFormed c x.1 x.2) : Agrees c l ↔ Numbered c l := by
  have h : ∀ x ∈ l.files "Asset", (readAsset c x.1 x.2).isSome :=
    fun x hx => isSome_readAsset (hgood x hx)
  obtain ⟨htrue, htabled, hobjects⟩ := load_of_isSome h
  have hnodup : ((l.files "Asset").map (fileId c)).Nodup ↔
      ∀ p o, (load c (some l)).2.objects[p]? = some o →
        (load c (some l)).2.get o.globalId = some p := by
    rw [(map_readAll _ h).2, List.nodup_map_iff (Option.some_injective ℤ), ← hobjects]
    exact htabled.get_iff_nodup.symm
  constructor
  · intro hagrees
    obtain ⟨htables, -⟩ := hagrees htrue
    refine ⟨hnodup.mpr fun p o ho => ?_, fun x hx o ho => ?_⟩
    · exact (((htables p o ho).1 o.typeT).mp (htabled.mem_getMessagesByType ho)).2
    · have hmem : o ∈ (load c (some l)).2.objects := hobjects ▸ mem_readAll.mpr ⟨x, hx, ho⟩
      obtain ⟨p, hp⟩ := List.mem_iff_getElem?.mp hmem
      exact (htables p o hp).2
  · rintro ⟨hids, htypes⟩ -
    refine ⟨fun p o ho => ⟨fun t => ?_, ?_⟩, fun l' hs id => contents_shuffle h hids hs id⟩
    · rw [htabled.assetsBytypes, ho]
      constructor
      · rintro ⟨o', ho', ht⟩
        cases ho'
        exact ⟨ht.symm, hnodup.mp hids p o ho⟩
      · rintro ⟨ht, -⟩
        exact ⟨o, rfl, ht.symm⟩
    · have hmem : o ∈ readAll c (l.files "Asset") := hobjects ▸ List.mem_of_getElem? ho
      obtain ⟨x, hx, hread⟩ := mem_readAll.mp hmem
      exact htypes x hx o hread

def sceneBytes : Bytes := [0x12, 8, 8, 0x81, 0x80, 0x24, 0x10, 1, 0x1a, 0]

def namedSceneBytes : Bytes := [0x12, 9, 8, 0x81, 0x80, 0x24, 0x10, 1, 0x1a, 1, 0x61]

def hosterBytes : Bytes := [0x12, 8, 8, 0x81, 0x80, 0x18, 0x10, 1, 0x1a, 0]

def assetCodec : AssetCodec Bytes :=
  .ofIds [(sceneBytes, 0x90001), (namedSceneBytes, 0x90001), (hosterBytes, 0x60001)]

def sceneFile : AssetFile := { name := "scene", bytes := [49, 48] ++ sceneBytes }

def namedSceneFile : AssetFile := { name := "a", bytes := [49, 49] ++ namedSceneBytes }

def hosterFile : AssetFile := { name := "hoster", bytes := [49, 48] ++ hosterBytes }

theorem sceneFile_wellFormed : WellFormed assetCodec "Scene" sceneFile :=
  ⟨rfl, by decide +kernel, by decide +kernel, .scene, 9, by decide +kernel, rfl, rfl,
    by decide +kernel⟩

def tidyAssets : Listing :=
  .dir "Scene" (.file sceneFile .done) (.dir "Hoster" (.file hosterFile .done) .done)

theorem tidyAssets_agrees :
    (∀ x ∈ tidyAssets.files "Asset", WellFormed assetCodec x.1 x.2) ∧
      Agrees assetCodec tidyAssets := by
  have hgood : ∀ x ∈ tidyAssets.files "Asset", WellFormed assetCodec x.1 x.2 := by
    intro x hx
    rcases List.mem_cons.mp hx with rfl | hx
    · exact sceneFile_wellFormed
    · rcases List.mem_singleton.mp hx with rfl
      exact ⟨rfl, by decide +kernel, by decide +kernel, .hoster, 6, by decide +kernel, rfl, rfl,
        by decide +kernel⟩
  refine ⟨hgood, (agrees_iff assetCodec tidyAssets hgood).mpr ⟨by decide +kernel, ?_⟩⟩
  intro x hx o ho
  have htypes : ∀ x ∈ tidyAssets.files "Asset", (readAsset assetCodec x.1 x.2).all
      (fun o => getMessageTypeFrom o.globalId = o.typeT) = true := by
    intro x hx
    rcases List.mem_cons.mp hx with rfl | hx
    · decide +kernel
    · rcases List.mem_singleton.mp hx with rfl
      decide +kernel
  have hall := htypes x hx
  rw [ho] at hall
  exact of_decide_eq_true hall

/-- Two scenes with one id, and a scene in the folder of the residents. -/
def twinScenes : Listing := .dir "Scene" (.file sceneFile (.file namedSceneFile .done)) .done

def strayScene : Listing := .dir "Hoster" (.file sceneFile .done) .done

/-- The second of the twins is a scene that `Get` does not return, and the stray one
is a resident with the id of a scene. -/
theorem twinsAndStray_not_agree :
    (∀ x ∈ twinScenes.files "Asset", WellFormed assetCodec x.1 x.2) ∧
    (∀ x ∈ strayScene.files "Asset", WellFormed assetCodec x.1 x.2) ∧
      ¬ Agrees assetCodec twinScenes ∧ ¬ Agrees assetCodec strayScene := by
  refine ⟨fun x hx => ?_, fun x hx => ?_, fun h => ?_, fun h => ?_⟩
  · rcases List.mem_cons.mp hx with rfl | hx
    · exact sceneFile_wellFormed
    · rcases List.mem_singleton.mp hx with rfl
      exact ⟨rfl, by decide +kernel, by decide +kernel, .scene, 9, by decide +kernel, rfl, rfl,
        by decide +kernel⟩
  · rcases List.mem_singleton.mp hx with rfl
    exact ⟨rfl, by decide +kernel, by decide +kernel, .hoster, 6, by decide +kernel, rfl, rfl,
      by decide +kernel⟩
  · obtain ⟨htables, -⟩ := h (by decide +kernel)
    obtain ⟨o, ho⟩ : ∃ o, (load assetCodec (some twinScenes)).2.objects[1]? = some o :=
      Option.isSome_iff_exists.mp (by decide +kernel)
    have hid : ((load assetCodec (some twinScenes)).2.objects[1]?).map (·.globalId) =
        some 0x90001 := by decide +kernel
    rw [ho, Option.map_some, Option.some.injEq] at hid
    have hget := (((htables 1 o ho).1 9).mp (by decide +kernel)).2
    rw [hid] at hget
    exact absurd hget (by decide +kernel)
  · obtain ⟨htables, -⟩ := h (by decide +kernel)
    obtain ⟨o, ho⟩ : ∃ o, (load assetCodec (some strayScene)).2.objects[0]? = some o :=
      Option.isSome_iff_exists.mp (by decide +kernel)
    have htypes : ((load assetCodec (some strayScene)).2.objects[0]?).map (fun o =>
        (o.globalId, o.typeT)) = some (0x90001, 6) := by decide +kernel
    rw [ho, Option.map_some, Option.some.injEq, Prod.mk.injEq] at htypes
    have htype := (htables 0 o ho).2
    rw [htypes.1, htypes.2] at htype
    exact absurd htype (by decide)

end AssetManager

end GameService
