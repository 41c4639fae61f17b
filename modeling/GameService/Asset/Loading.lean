import GameService.Asset.Manager

/-!
# What `Load` reports

`Load` is meant to return `true` only when every asset has been loaded: `LoadAssets`
gives up at the first file with something wrong.  But it drops what it returns for a
subdirectory, and all assets are in subdirectories; it takes a directory that does
not exist for an empty one; it never looks at whether a message was parsed; and a
second file with a `global_id` does not get into the table.

`Truthful` is what the return value should mean.  A file in the asset directory
itself makes `Load` return `false`, since no message is called `Asset`.
`truthful_iff` says that this aside `Load` is right if and only if there is a
directory and nothing is wrong with it.
-/

namespace GameService

open Lib Asset

def Listing.HasFile : Listing → Prop
  | .done => False
  | .file _ _ => True
  | .dir _ _ rest => rest.HasFile

/-- The file opens, begins with a length that the message has room for and that so
many bytes follow, is in a folder of an asset message, and is parsed as one. -/
structure WellFormed {μ : Type} (c : AssetCodec μ) (folder : String) (f : AssetFile) : Prop where
  opens : f.opens = true
  size : 1 ≤ f.size ∧ f.size ≤ 1024
  whole : f.received.length = f.size.toNat
  parsed : ∃ d t, AssetDescriptor.findMessageTypeByName folder = some d ∧ d.typeField = some t ∧
    d.hasCommonProp = true ∧ (c.parse d f.received).1 = true

namespace AssetManager

variable {μ : Type} {c : AssetCodec μ} {s : AssetManager μ} {o : AssetObject μ}
  {folder : String} {f : AssetFile} {l : Listing}

/-- Each of the files has a message, and each message can be found under its
`global_id` and its type. -/
def Registered (s : AssetManager μ) (files : List (String × AssetFile)) : Prop :=
  s.objects.map (·.origin) = files ∧ ∀ p o, s.objects[p]? = some o →
    s.get o.globalId = some p ∧ p ∈ s.getMessagesByType o.typeT

/-- **`Load` returns `true` only if** the directory exists and every file below it is
well formed and registered. -/
def Truthful (c : AssetCodec μ) (root : Option Listing) : Prop :=
  (load c root).1 = true → ∃ l, root = some l ∧
    (∀ x ∈ l.files "Asset", WellFormed c x.1 x.2) ∧
    Registered (load c root).2 (l.files "Asset")

def fileId (c : AssetCodec μ) (x : String × AssetFile) : Option ℤ :=
  (readAsset c x.1 x.2).map (·.globalId)

/-- The directory exists, and it has a file in it, or all files below it are well
formed and their ids are distinct. -/
def Sound (c : AssetCodec μ) (root : Option Listing) : Prop :=
  ∃ l, root = some l ∧ (l.HasFile ∨ (∀ x ∈ l.files "Asset", WellFormed c x.1 x.2) ∧
    ((l.files "Asset").map (fileId c)).Nodup)

/-! ### A file -/

theorem readAsset_origin (h : readAsset c folder f = some o) : o.origin = (folder, f) := by
  rw [readAsset] at h
  obtain ⟨-, h⟩ := Option.ite_none_left_eq_some.mp h
  obtain ⟨-, h⟩ := Option.ite_none_left_eq_some.mp h
  obtain ⟨d, -, h⟩ := Option.bind_eq_some_iff.mp h
  obtain ⟨t, -, h⟩ := Option.bind_eq_some_iff.mp h
  obtain ⟨-, h⟩ := Option.ite_none_right_eq_some.mp h
  cases h
  rfl

theorem isSome_readAsset (h : WellFormed c folder f) : (readAsset c folder f).isSome := by
  obtain ⟨d, t, hd, ht, hprop, -⟩ := h.parsed
  have hsize : ¬ (f.size = 0 ∨ f.size > 1024) := by
    have := h.size
    omega
  rw [readAsset, if_neg (by rw [h.opens]; decide), if_neg hsize, hd]
  show ((d.typeField).bind fun typeT => _).isSome
  rw [ht, Option.bind_some, if_pos hprop]
  rfl

/-! ### A directory -/

/-- The messages in files that all have one. -/
def readAll (c : AssetCodec μ) (files : List (String × AssetFile)) : List (AssetObject μ) :=
  files.filterMap fun x => readAsset c x.1 x.2

theorem objects_foldl_register (os : List (AssetObject μ)) : ∀ s : AssetManager μ,
    (os.foldl register s).objects = s.objects ++ os := by
  induction os with
  | nil => intro s; exact (List.append_nil _).symm
  | cons o os ih =>
    intro s
    rw [List.foldl_cons, ih, register, List.append_assoc]
    rfl

/-- **Where every file has a message**, `LoadAssets` registers them all. -/
theorem loadAssets_of_isSome : ∀ (l : Listing) (folder : String) (s : AssetManager μ),
    (∀ x ∈ l.files folder, (readAsset c x.1 x.2).isSome) →
    loadAssets c folder l s = (true, (readAll c (l.files folder)).foldl register s) := by
  intro l
  induction l with
  | done => intro folder s _; rfl
  | file f rest ih =>
    intro folder s h
    obtain ⟨o, ho⟩ : ∃ o, readAsset c folder f = some o :=
      Option.isSome_iff_exists.mp (h (folder, f) List.mem_cons_self)
    have hcons : readAll c ((folder, f) :: rest.files folder) =
        o :: readAll c (rest.files folder) := List.filterMap_cons_some ho
    rw [loadAssets, ho]
    dsimp only
    rw [ih folder _ fun x hx => h x (List.mem_cons_of_mem _ hx), Listing.files, hcons,
      List.foldl_cons]
  | dir name entries rest ihe ihr =>
    intro folder s h
    rw [Listing.files] at h ⊢
    rw [loadAssets, ihe name s fun x hx => h x (List.mem_append_left _ hx),
      ihr folder _ fun x hx => h x (List.mem_append_right _ hx), readAll, readAll, readAll,
      List.filterMap_append, List.foldl_append]

/-- Whatever the files, the tables are of the messages that were added, and each of
these is the one of its file. -/
theorem loadAssets_adds : ∀ (l : Listing) (folder : String) (s : AssetManager μ), Tabled s →
    Tabled (loadAssets c folder l s).2 ∧ ∃ added,
      (loadAssets c folder l s).2.objects = s.objects ++ added ∧
      ∀ o ∈ added, readAsset c o.origin.1 o.origin.2 = some o := by
  intro l
  induction l with
  | done =>
    intro folder s h
    exact ⟨h, [], (List.append_nil _).symm, fun o ho => absurd ho List.not_mem_nil⟩
  | file f rest ih =>
    intro folder s h
    rw [loadAssets]
    cases ho : readAsset c folder f with
    | none => exact ⟨h, [], (List.append_nil _).symm, fun o ho => absurd ho List.not_mem_nil⟩
    | some o =>
      obtain ⟨ht, added, hobj, hadded⟩ := ih folder (s.register o) (h.register o)
      refine ⟨ht, o :: added, ?_, fun o' ho' => ?_⟩
      · dsimp only
        rw [hobj, register, List.append_assoc]
        rfl
      · rcases List.mem_cons.mp ho' with rfl | ho'
        · rw [readAsset_origin ho]
          exact ho
        · exact hadded o' ho'
  | dir name entries rest ihe ihr =>
    intro folder s h
    rw [loadAssets]
    obtain ⟨ht, added, hobj, hadded⟩ := ihe name s h
    obtain ⟨ht', added', hobj', hadded'⟩ := ihr folder _ ht
    refine ⟨ht', added ++ added', ?_, fun o ho => ?_⟩
    · rw [hobj', hobj, List.append_assoc]
    · rcases List.mem_append.mp ho with ho | ho
      · exact hadded o ho
      · exact hadded' o ho

/-- **The result is that of the directory's own files**, of which there are none. -/
theorem loadAssets_of_not_hasFile : ∀ (l : Listing) (folder : String) (s : AssetManager μ),
    ¬ l.HasFile → (loadAssets c folder l s).1 = true := by
  intro l
  induction l with
  | done => intro folder s _; rfl
  | file f rest _ => intro folder s h; exact absurd trivial h
  | dir name entries rest _ ihr => intro folder s h; exact ihr folder _ h

theorem readAsset_root (c : AssetCodec μ) (f : AssetFile) : readAsset c "Asset" f = none := by
  have hnone : AssetDescriptor.findMessageTypeByName "Asset" = none := by decide
  rw [readAsset, hnone]
  split
  · rfl
  · split <;> rfl

theorem loadAssets_root : ∀ (l : Listing) (s : AssetManager μ), l.HasFile →
    (loadAssets c "Asset" l s).1 = false := by
  intro l
  induction l with
  | done => intro s h; exact absurd h id
  | file f rest _ => intro s _; rw [loadAssets, readAsset_root]
  | dir name entries rest _ ihr => intro s h; exact ihr _ h

/-! ### The tables after loading -/

theorem map_readAll : ∀ files : List (String × AssetFile),
    (∀ x ∈ files, (readAsset c x.1 x.2).isSome) →
    (readAll c files).map (·.origin) = files ∧
      files.map (fileId c) = ((readAll c files).map (·.globalId)).map some := by
  intro files
  induction files with
  | nil => intro _; exact ⟨rfl, rfl⟩
  | cons x files ih =>
    intro h
    obtain ⟨o, ho⟩ := Option.isSome_iff_exists.mp (h x List.mem_cons_self)
    obtain ⟨horigin, hid⟩ := ih fun y hy => h y (List.mem_cons_of_mem _ hy)
    have hcons : readAll c (x :: files) = o :: readAll c files := List.filterMap_cons_some ho
    rw [hcons, List.map_cons, List.map_cons, List.map_cons, List.map_cons, horigin, hid,
      readAsset_origin ho, fileId, ho]
    exact ⟨rfl, rfl⟩

theorem load_of_isSome (h : ∀ x ∈ l.files "Asset", (readAsset c x.1 x.2).isSome) :
    (load c (some l)).1 = true ∧ Tabled (load c (some l)).2 ∧
      (load c (some l)).2.objects = readAll c (l.files "Asset") := by
  have htabled := (loadAssets_adds (c := c) l "Asset" _ tabled_loadMessages).1
  have hload := loadAssets_of_isSome l "Asset" loadMessages h
  rw [hload] at htabled
  rw [load, hload]
  exact ⟨rfl, htabled, (objects_foldl_register _ _).trans (List.nil_append _)⟩

theorem Tabled.mem_getMessagesByType {p : ℕ} (h : Tabled s) (ho : s.objects[p]? = some o) :
    p ∈ s.getMessagesByType o.typeT := (h.assetsBytypes o.typeT p).mpr ⟨o, ho, rfl⟩

/-- **Every message can be found** if and only if the ids are distinct. -/
theorem Tabled.get_iff_nodup (h : Tabled s) :
    (∀ p o, s.objects[p]? = some o → s.get o.globalId = some p) ↔
      (s.objects.map (·.globalId)).Nodup := by
  rw [← findIdx?_eq_some_iff_nodup]
  simp only [h.assets]

theorem registered_iff (h : ∀ x ∈ l.files "Asset", (readAsset c x.1 x.2).isSome) :
    Registered (load c (some l)).2 (l.files "Asset") ↔
      ((l.files "Asset").map (fileId c)).Nodup := by
  obtain ⟨-, htabled, hobjects⟩ := load_of_isSome h
  obtain ⟨horigin, hid⟩ := map_readAll _ h
  rw [hid, List.nodup_map_iff (Option.some_injective ℤ), ← hobjects, ← htabled.get_iff_nodup,
    Registered, hobjects, horigin]
  constructor
  · intro hreg p o ho
    exact (hreg.2 p o ho).1
  · intro hget
    refine ⟨rfl, fun p o ho => ⟨hget p o ho, htabled.mem_getMessagesByType ?_⟩⟩
    rw [hobjects]
    exact ho

/-- **When `Load` is right.**  For any directory, or none, in any order: `Load`
returns `true` only if there is a directory and every file below it is well formed
and registered, if and only if there is one and either it has a file in it, for
which `Load` returns `false`, or all files below it are well formed and have
distinct ids. -/
theorem truthful_iff (c : AssetCodec μ) (root : Option Listing) :
    Truthful c root ↔ Sound c root := by
  cases root with
  | none =>
    refine iff_of_false (fun h => ?_) fun ⟨_, hl, _⟩ => by cases hl
    obtain ⟨_, hl, _⟩ := h rfl
    cases hl
  | some l =>
    by_cases hfile : l.HasFile
    · have hfalse : (load c (some l)).1 = false := loadAssets_root l _ hfile
      refine iff_of_true (fun htrue => ?_) ⟨l, rfl, Or.inl hfile⟩
      rw [hfalse] at htrue
      cases htrue
    · have htrue : (load c (some l)).1 = true := loadAssets_of_not_hasFile l "Asset" _ hfile
      constructor
      · intro h
        obtain ⟨l', hl, hgood, hreg⟩ := h htrue
        cases hl
        refine ⟨l, rfl, Or.inr ⟨hgood, ?_⟩⟩
        exact (registered_iff fun x hx => isSome_readAsset (hgood x hx)).mp hreg
      · rintro ⟨l', hl, hfile' | ⟨hgood, hnodup⟩⟩ _
        · cases hl
          exact absurd hfile' hfile
        · cases hl
          refine ⟨l, rfl, hgood, ?_⟩
          exact (registered_iff fun x hx => isSome_readAsset (hgood x hx)).mpr hnodup

/-- A scene that does not open, one whose message is not parsed, and no directory. -/
theorem badScene_not_truthful :
    let unopened : AssetFile := { name := "a", opens := false }
    let unparsed : AssetFile := { name := "a", bytes := [49, 10] }
    ¬ Truthful (.ofIds []) (some (.dir "Scene" (.file unopened .done) .done)) ∧
    ¬ Truthful (.ofIds []) (some (.dir "Scene" (.file unparsed .done) .done)) ∧
    ¬ Truthful (.ofIds []) none := by
  refine ⟨fun h => ?_, fun h => ?_, fun h => ?_⟩
  · obtain ⟨l, hl, hgood, -⟩ := h rfl
    cases hl
    cases (hgood _ List.mem_cons_self).opens
  · obtain ⟨l, hl, hgood, -⟩ := h rfl
    cases hl
    obtain ⟨d, t, -, -, -, hparsed⟩ := (hgood _ List.mem_cons_self).parsed
    cases hparsed
  · obtain ⟨l, hl, -⟩ := h rfl
    cases hl

end AssetManager

end GameService
