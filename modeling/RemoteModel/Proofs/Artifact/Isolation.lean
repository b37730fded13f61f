import RemoteModel.Artifact.Prebuilt
import RemoteModel.Proofs.Artifact.Registering
import RemoteModel.Proofs.Artifact.Touched
import RemoteModel.Proofs.Calls.Single
import RemoteModel.Proofs.Files.Zones

/-!
What is done for one id and the files of another one. Where ids, names and versions lead down and no
link lies in the cache, all that is written or removed for an id lies in its own folders, and what lies
in the folders of an id apart from it or outside the cache stays.
-/

namespace RemoteModel

open RemoteModel.Tree

namespace Path

/-- A text that leads down from wherever it is appended. -/
structure IsPlain (t : Text) : Prop where
  anchor : (ofText t).anchor = .here
  down : twoDots ∉ (ofText t).parts

instance (t : Text) : Decidable (IsPlain t) :=
  decidable_of_iff ((ofText t).anchor = .here ∧ twoDots ∉ (ofText t).parts)
    ⟨fun h => ⟨h.1, h.2⟩, fun h => ⟨h.anchor, h.down⟩⟩

def names (t : Text) : List Text := (ofText t).parts

theorem child_plain (p : Path) {t : Text} (h : IsPlain t) : p.child t = p.below (names t) := by
  rw [child, join, h.anchor]
  rfl

theorem child_name (p : Path) {part : Text} (h : IsPart part) : p.child part = p.below [part] :=
  child_part p h

end Path

open RemoteModel.Path (IsPlain IsPart names)

namespace ModelCache

/-- The folders of an id: where its model is registered, where it is deployed and where it lies. -/
def folders (c : ModelCache) (id : Text) : List Path :=
  [c.layout.registerPath id none none, c.layout.deployPath id, c.layout.modelPath id none none]

def shelves : List Text := ["register", "deploy", "models"]

/-- What the system sees of a text that leads down. -/
def written (t : Text) : List Bytes := (names t).map FileName.bytes

/-- Two ids of which neither lies in the folder of the other. -/
structure Apart (a b : Text) : Prop where
  notAbove : ¬written a <+: written b
  notBelow : ¬written b <+: written a

instance (a b : Text) : Decidable (Apart a b) :=
  decidable_of_iff (¬written a <+: written b ∧ ¬written b <+: written a)
    ⟨fun h => ⟨h.1, h.2⟩, fun h => ⟨h.notAbove, h.notBelow⟩⟩

/-- Ids of which one lies in the folder of the other are not apart, whatever the shelves. -/
theorem written_of_along {cache : Place} {shelf shelf' a b : Text}
    (h : cache.along (shelf :: names a) <+: cache.along (shelf' :: names b)) :
    written a <+: written b := by
  have hbytes := Place.bytes_prefix_of_along h
  rw [List.map_cons, List.map_cons, List.cons_prefix_cons] at hbytes
  exact hbytes.2

theorem isPart_shelf {shelf : Text} (h : shelf ∈ shelves) : IsPart shelf := by
  simp only [shelves, List.mem_cons, List.not_mem_nil, or_false] at h
  rcases h with rfl | rfl | rfl <;> exact ⟨by decide, by decide⟩

theorem folders_eq (c : ModelCache) {id : Text} (hid : IsPlain id) :
    c.folders id = shelves.map fun shelf => c.layout.modelsPath.below (shelf :: names id) := by
  have hfolder (shelf : Text) (h : shelf ∈ shelves) :
      (c.layout.modelsPath.child shelf).child id = c.layout.modelsPath.below (shelf :: names id) := by
    rw [Path.child_plain _ hid, Path.child_name _ (isPart_shelf h), Path.below_below,
      List.singleton_append]
  simp only [shelves, List.map_cons, List.map_nil]
  rw [← hfolder "register" (by decide), ← hfolder "deploy" (by decide),
    ← hfolder "models" (by decide)]
  rfl

theorem registerPath_bare (c : ModelCache) {id : Text} (hid : IsPlain id) :
    c.layout.registerPath id none none = c.layout.modelsPath.below ("register" :: names id) :=
  (List.cons.inj (c.folders_eq hid)).1

theorem shelf_down {shelf id : Text} (hshelf : shelf ∈ shelves) (hid : IsPlain id) :
    twoDots ∉ shelf :: names id := by
  rw [List.mem_cons, not_or]
  refine ⟨?_, hid.down⟩
  rintro rfl
  exact absurd hshelf (by decide)

def askedVersion (r : Registration) : Option Text → Text
  | none | some [] => r.version
  | some version => version

def registered (id version name : Text) : List Text :=
  Text.ofString "register" :: names id ++ (names version ++ names name)

theorem registerPath_eq (c : ModelCache) {id version name : Text} (hid : IsPlain id)
    (hversion : IsPlain version) (hname : IsPlain name) :
    c.layout.registerPath id (some name) (some version) =
      c.layout.modelsPath.below (registered id version name) := by
  have hregister : IsPart "register" := isPart_shelf (by decide)
  change (((c.layout.modelsPath.child _).child id).child version).child name = _
  rw [Path.child_name _ hregister, Path.child_plain _ hid, Path.child_plain _ hversion,
    Path.child_plain _ hname, Path.below_below, Path.below_below, Path.below_below, registered]
  simp

theorem stagingFolder_eq (c : ModelCache) {r : Registration} {id : Text} {version : Option Text}
    (hid : IsPlain id) (hversion : IsPlain (askedVersion r version)) (hname : IsPlain r.name) :
    c.stagingFolder r id version =
      c.layout.modelsPath.below (registered id (askedVersion r version) r.name) := by
  rw [← c.registerPath_eq hid hversion hname]
  rcases version with _ | _ | _ <;> rfl

theorem registered_down {id version name : Text} (hid : IsPlain id) (hversion : IsPlain version)
    (hname : IsPlain name) : twoDots ∉ registered id version name := by
  rw [registered, List.mem_append, List.mem_append, not_or, not_or]
  exact ⟨shelf_down (by decide) hid, hversion.down, hname.down⟩

section

variable {c : ModelCache} {t : Tree} {base : Path} {tops : List (List Text)} {names : List Text}
variable {r : Registration} {h : Host}

theorem filled_endures (hfree : t.Linkless base) (hwithin : Within tops names) :
    Endures (base.below names) (Filled base tops t) :=
  ⟨fun _ hfilled => hfilled.makeFolders _, fun _ _ _ hfilled => hfilled.write hfree hwithin⟩

theorem cleared_discard (hh : Cleared base tops t h.files) (hfree : t.Linkless base)
    (hwithin : Within tops names) :
    Cleared base tops t (discard (base.below names) h).files := by
  rw [discard_files]
  exact hh.remove hfree hwithin

theorem archive_below (hproper : (base.below names).IsProper) (hnames : names ≠ []) :
    ∃ name, name ≠ twoDots ∧
      archivePath (base.below names) = base.below (names.dropLast ++ [name]) := by
  obtain ⟨name, hname, harchive⟩ := archivePath_eq hproper
  refine ⟨name, hname, ?_⟩
  rw [harchive, Path.below, List.dropLast_append_of_ne_nil hnames, Path.below, List.append_assoc]

theorem chunks_below : chunksPath (base.below names) = base.below (names ++ [Text.ofString "chunks"]) := by
  rw [← Path.below_below]
  exact Path.child_name _ isPart_chunks

theorem chunk_below (number : Nat) :
    Files.chunkPath (base.below names) number = base.below (names ++ [Text.ofNat number]) := by
  rw [← Path.below_below]
  exact Path.child_name _ (Path.isPart_ofNat number)

theorem splitArchive_cleared (archive : Path) (hfree : t.Linkless base)
    (hwithin : Within tops names) (hh : Filled base tops t h.files) :
    Cleared base tops t (c.splitArchive archive (base.below names) h).2.files := by
  have hchunk (number : Nat) :
      Endures (Files.chunkPath (base.below names) number) (Filled base tops t) := by
    obtain ⟨top, htop, hunder⟩ := hwithin.under
    rw [chunk_below]
    exact filled_endures hfree
      (within_snoc hwithin.down (Path.ofNat_ne_twoDots number) htop hunder)
  have hsplit := Files.split_endures hchunk archive c.layout.chunkSize hh
  unfold splitArchive
  split
  next hrun =>
    rw [hrun] at hsplit
    exact hsplit.cleared
  next f files hrun =>
    rw [hrun] at hsplit
    have hcleared : Cleared base tops t files := hsplit.cleared
    dsimp only
    split
    next => exact cleared_discard (h := { h with files }) hcleared hfree hwithin
    next => exact hcleared

theorem accept_cleared (task : Text) (archive : Path) (hfree : t.Linkless base)
    (hwithin : Within tops names) (hh : Filled base tops t h.files) :
    Cleared base tops t (c.accept r task archive (base.below names) h).2.files := by
  unfold accept
  dsimp only
  split
  next => exact hh.cleared
  next =>
    split
    next => exact hh.cleared
    next =>
      have hsplit := splitArchive_cleared (c := c) archive hfree hwithin hh
      split
      next hrun =>
        rw [hrun] at hsplit
        exact hsplit
      next hrun =>
        rw [hrun] at hsplit
        exact hsplit

theorem document_cleared [HostEncoder] (unreadable : Json.ReadError → Failure) (url : Text)
    (hfree : h.files.Linkless base) (hwithin : Within tops names) :
    Cleared base tops h.files (c.document unreadable url (base.below names) h).2.files := by
  have hget := get_endures (filled_endures hfree hwithin) c url (.refl base tops h.files)
  unfold document download
  dsimp only
  generalize c.get url (base.below names) h = end' at hget ⊢
  obtain ⟨result, h₁⟩ := end'
  cases result <;> exact hget.cleared

end

section

variable {c : ModelCache} {id : Text} {r : Registration} {h : Host}

theorem register_cleared [HostEncoder] {version : Option Text} (hid : IsPlain id)
    (hversion : IsPlain (askedVersion r version)) (hname : IsPlain r.name)
    (hfree : h.files.Linkless c.layout.modelsPath) :
    Cleared c.layout.modelsPath [(registered id (askedVersion r version) r.name).dropLast] h.files
      (c.register r id version h).2.files := by
  have hdown := registered_down hid hversion hname
  have hsome : registered id (askedVersion r version) r.name ≠ [] := by simp [registered]
  have hproper := c.isProper_stagingFolder r id version
  unfold register
  dsimp only
  rw [c.stagingFolder_eq hid hversion hname] at hproper ⊢
  generalize registered id (askedVersion r version) r.name = place at *
  obtain ⟨name, hlast, harchive⟩ := archive_below hproper hsome
  rw [harchive, chunks_below]
  have hwithin : Within [place.dropLast] (place.dropLast ++ [name]) :=
    within_snoc (fun hmem => hdown (List.dropLast_subset place hmem)) hlast List.mem_cons_self
      (List.prefix_refl _)
  have hchunks : Within [place.dropLast] (place ++ [Text.ofString "chunks"]) :=
    within_snoc hdown (by decide) List.mem_cons_self (List.dropLast_prefix place)
  have hfetch := fetch_endures (filled_endures hfree hwithin) c r
    (h := HasJournal.log [announcement r id] h) (.refl _ _ h.files)
  split
  next hrun =>
    rw [hrun] at hfetch
    exact cleared_discard hfetch.cleared hfree hwithin
  next h₁ hrun =>
    rw [hrun] at hfetch
    have haccept := accept_cleared (c := c) (r := r) id
      (c.layout.modelsPath.below (place.dropLast ++ [name])) hfree hchunks hfetch
    exact cleared_discard haccept hfree hwithin

theorem staged_cleared [HostEncoder] (unreadable : Json.ReadError → Failure) (url : Text) {name : Text}
    (hid : IsPlain id) (hversion : IsPlain r.version) (hname : IsPlain r.name)
    (hpart : IsPart name) (hdown : name ≠ twoDots)
    (hfree : h.files.Linkless c.layout.modelsPath) :
    Cleared c.layout.modelsPath ["register" :: names id] h.files
      (c.staged unreadable r id url name h).2.files := by
  have hregister : Text.ofString "register" ∈ shelves := by decide
  have hwithin : Within ["register" :: names id] (registered id r.version r.name ++ [name]) :=
    within_snoc (registered_down hid hversion hname) hdown List.mem_cons_self
      (List.prefix_append _ _)
  have hfolder : Within ["register" :: names id] ("register" :: names id) :=
    ⟨by simp, shelf_down (by decide) hid, _, List.mem_cons_self, List.prefix_refl _⟩
  have hdocument := document_cleared (c := c) unreadable url hfree hwithin
  unfold staged
  dsimp only
  rw [c.registerPath_eq hid hversion hname, Path.child_name _ hpart, Path.below_below,
    c.registerPath_bare hid]
  exact cleared_discard hdocument hfree hfolder

theorem metaList_cleared [HostEncoder] (hid : IsPlain id) (hversion : IsPlain r.version)
    (hname : IsPlain r.name) (hfree : h.files.Linkless c.layout.modelsPath) :
    Cleared c.layout.modelsPath ["register" :: names id] h.files (c.metaList r id h).2.files := by
  have hbare := (Filled.refl c.layout.modelsPath ["register" :: names id] h.files).cleared
  unfold metaList
  split
  next => exact hbare
  next => exact hbare
  next url _ _ =>
    have hstaged := staged_cleared .metaListNotJson url hid hversion hname
      (show IsPart metaListName from ⟨by decide, by decide⟩) (by decide) hfree
    generalize c.staged .metaListNotJson r id url metaListName h = end' at hstaged ⊢
    split <;> exact hstaged

theorem prebuilt_cleared [HostEncoder] (hid : IsPlain id) (hversion : IsPlain r.version)
    (hname : IsPlain r.name) (hfree : h.files.Linkless c.layout.modelsPath) :
    Cleared c.layout.modelsPath ["register" :: names id] h.files (c.prebuilt r id h).2.files := by
  have hbare := (Filled.refl c.layout.modelsPath ["register" :: names id] h.files).cleared
  unfold prebuilt
  split
  next => exact hbare
  next => exact hbare
  next => exact hbare
  next format _ _ _ =>
    have hstaged := staged_cleared .configNotJson
      (c.layout.prebuiltConfigUrl r.name r.version format.name) hid hversion hname
      (show IsPart configName from ⟨by decide, by decide⟩) (by decide) hfree
    dsimp only
    generalize c.staged .configNotJson r id (c.layout.prebuiltConfigUrl r.name r.version format.name)
      configName h = end' at hstaged ⊢
    split <;> exact hstaged

theorem within_folder {folder : Path} (hid : IsPlain id) (hfolder : folder ∈ c.folders id) :
    ∃ names', folder = c.layout.modelsPath.below names' ∧
      Within (shelves.map (· :: names id)) names' := by
  rw [c.folders_eq hid, List.mem_map] at hfolder
  obtain ⟨shelf, hshelf, rfl⟩ := hfolder
  exact ⟨_, rfl, by simp, shelf_down hshelf hid, _, List.mem_map_of_mem hshelf, List.prefix_refl _⟩

theorem folder_discard {t : Tree} {folder : Path} (hid : IsPlain id)
    (hfree : t.Linkless c.layout.modelsPath) (hfolder : folder ∈ c.folders id)
    (hh : Cleared c.layout.modelsPath (shelves.map (· :: names id)) t h.files) :
    Cleared c.layout.modelsPath (shelves.map (· :: names id)) t (discard folder h).files ∧
      (Files.checkPath folder = .ok () → ¬(discard folder h).files.Names folder) := by
  obtain ⟨names', rfl, hwithin⟩ := within_folder hid hfolder
  refine ⟨cleared_discard hh hfree hwithin, fun hpath => ?_⟩
  rw [discard_files]
  exact hh.not_names hfree hwithin hpath

theorem not_names_discard {p folder : Path} (hnot : ¬h.files.Names folder) :
    ¬(discard p h).files.Names folder := by
  rw [discard_files]
  rintro ⟨node, hnode⟩
  exact hnot ⟨node, (Files.extends_remove p h.files).find hnode⟩

theorem forget_cleared (hid : IsPlain id) (hfree : h.files.Linkless c.layout.modelsPath) :
    Cleared c.layout.modelsPath (shelves.map (· :: names id)) h.files (c.forget id h).files ∧
      ∀ folder ∈ c.folders id, Files.checkPath folder = .ok () →
        ¬(c.forget id h).files.Names folder := by
  have hbare := (Filled.refl c.layout.modelsPath (shelves.map (· :: names id)) h.files).cleared
  obtain ⟨hmodel, hgone⟩ := folder_discard hid hfree
    (show c.layout.modelPath id none none ∈ c.folders id by simp [folders]) hbare
  obtain ⟨hdeploy, hgone'⟩ := folder_discard hid hfree
    (show c.layout.deployPath id ∈ c.folders id by simp [folders]) hmodel
  obtain ⟨hregister, hgone''⟩ := folder_discard hid hfree
    (show c.layout.registerPath id none none ∈ c.folders id by simp [folders]) hdeploy
  refine ⟨hregister, fun folder hfolder hpath => ?_⟩
  simp only [folders, List.mem_cons, List.not_mem_nil, or_false] at hfolder
  rcases hfolder with rfl | rfl | rfl
  · exact hgone'' hpath
  · exact not_names_discard (hgone' hpath)
  · exact not_names_discard (not_names_discard (hgone hpath))

end

inductive Job where
  | forget
  | register (r : Registration) (version : Option Text)
  | metaList (r : Registration)
  | prebuilt (r : Registration)

namespace Job

def run [HostEncoder] (c : ModelCache) (id : Text) (h : Host) : Job → Host
  | forget => c.forget id h
  | register r version => (c.register r id version h).2
  | metaList r => (c.metaList r id h).2
  | prebuilt r => (c.prebuilt r id h).2

/-- The name and the version of a model lead down. -/
def IsTidy : Job → Prop
  | forget => True
  | register r version => IsPlain (askedVersion r version) ∧ IsPlain r.name
  | metaList r | prebuilt r => IsPlain r.version ∧ IsPlain r.name

/-- The archive of a registration does not lie beside the folder of the id. -/
def IsNamed : Job → Prop
  | register r version => names (askedVersion r version) ++ names r.name ≠ []
  | forget | metaList _ | prebuilt _ => True

/-- The names under which a job works in the cache. -/
def workplaces (id : Text) : Job → List (List Text)
  | forget => shelves.map (· :: names id)
  | register r version => [(registered id (askedVersion r version) r.name).dropLast]
  | metaList _ | prebuilt _ => ["register" :: names id]

theorem run_cleared [HostEncoder] (c : ModelCache) (job : Job) {id : Text} {h : Host} (hid : IsPlain id)
    (htidy : job.IsTidy) (hfree : h.files.Linkless c.layout.modelsPath) :
    Cleared c.layout.modelsPath (job.workplaces id) h.files (job.run c id h).files := by
  cases job with
  | forget => exact (forget_cleared hid hfree).1
  | register r version => exact register_cleared hid htidy.1 htidy.2 hfree
  | metaList r => exact metaList_cleared hid htidy.1 htidy.2 hfree
  | prebuilt r => exact prebuilt_cleared hid htidy.1 htidy.2 hfree

theorem workplaces_under {job : Job} (hnamed : job.IsNamed) (id : Text) :
    ∀ top ∈ job.workplaces id, ∃ shelf ∈ shelves, shelf :: names id <+: top := by
  have hregister : Text.ofString "register" ∈ shelves := by decide
  intro top htop
  cases job with
  | forget =>
      obtain ⟨shelf, hshelf, rfl⟩ := List.mem_map.mp htop
      exact ⟨shelf, hshelf, List.prefix_refl _⟩
  | register r version =>
      rw [List.mem_singleton.mp htop, registered, List.dropLast_append_of_ne_nil hnamed]
      exact ⟨_, hregister, List.prefix_append _ _⟩
  | metaList r => exact ⟨_, hregister, (List.mem_singleton.mp htop) ▸ List.prefix_refl _⟩
  | prebuilt r => exact ⟨_, hregister, (List.mem_singleton.mp htop) ▸ List.prefix_refl _⟩

theorem not_zone (c : ModelCache) {job : Job} (hnamed : job.IsNamed) {a b : Text} (hb : IsPlain b)
    (hapart : Apart a b) {t : Tree} (hfree : t.Linkless c.layout.modelsPath) {folder : Path}
    (hfolder : folder ∈ c.folders b) {root place : Place} (hroot : t.Reaches folder root)
    (hplace : root <+: place) : ¬t.Zone c.layout.modelsPath (job.workplaces a) place := by
  rintro ⟨cache, hcache, top, htop, hzone⟩
  obtain ⟨shelf, _, hunder⟩ := workplaces_under hnamed a top htop
  rw [c.folders_eq hb, List.mem_map] at hfolder
  obtain ⟨shelf', hshelf', rfl⟩ := hfolder
  obtain ⟨other, hother, rfl⟩ := hroot.below hfree (shelf_down hshelf' hb)
  obtain rfl := hcache.unique hother
  have hzone' := (Place.along_prefix cache hunder).trans hzone
  rcases List.prefix_or_prefix_of_prefix hzone' hplace with h | h
  · exact hapart.notAbove (written_of_along h)
  · exact hapart.notBelow (written_of_along h)

/-- What is done for an id leaves alone what lies in the folders of an id apart from it, and what lies
outside the cache: nothing that is there changes or goes, and nothing but folders comes new. Of an id
that is forgotten nothing is left. -/
theorem run_isolated [HostEncoder] (c : ModelCache) (job : Job) {a : Text} {h : Host} (ha : IsPlain a)
    (htidy : job.IsTidy) (hfree : h.files.Linkless c.layout.modelsPath) :
    (job.IsNamed → ∀ b, IsPlain b → Apart a b → ∀ folder ∈ c.folders b, ∀ root,
      h.files.Reaches folder root → ∀ place, root <+: place →
        Keeps h.files (job.run c a h).files place) ∧
    (∀ place, (∀ cache, h.files.Reaches c.layout.modelsPath cache → ¬cache <+: place) →
      Keeps h.files (job.run c a h).files place) ∧
    (job = .forget → ∀ folder ∈ c.folders a, Files.checkPath folder = .ok () →
      ¬(job.run c a h).files.Names folder) := by
  have hcleared := run_cleared c job ha htidy hfree
  refine ⟨?_, ?_, ?_⟩
  · intro hnamed b hb hapart folder hfolder root hroot place hplace
    exact hcleared.keeps place (not_zone c hnamed hb hapart hfree hfolder hroot hplace)
  · intro place houtside
    refine hcleared.keeps place ?_
    rintro ⟨cache, hcache, top, _, hunder⟩
    exact houtside cache hcache ((Place.prefix_along cache top).trans hunder)
  · rintro rfl
    exact (forget_cleared ha hfree).2

end Job

def sharedHost : Host :=
  let folder := smallCache.layout.registerPath "u" none none
  let files := (Files.makeFolders folder smallHost.files).2
  { smallHost with files := (Files.write files (folder.child "x") [1]).toOption.getD files }

theorem sharedHost_linkless : sharedHost.files.Linkless smallCache.layout.modelsPath :=
  linkless_of_nodes (by decide +kernel) _

theorem shared_host_isolated :
    sharedHost.files.Linkless smallCache.layout.modelsPath ∧
      Keeps sharedHost.files
        (Job.run smallCache "t" sharedHost (.register (smallRegistration "a.zip" "1") none)).files
        ["ml_cache", "models_cache", "register", "u", "x"] ∧
      Keeps sharedHost.files
        (Job.run smallCache "t" sharedHost (.register (smallRegistration "a.zip" "1") none)).files
        ["a.zip"] ∧
      ¬(Job.run smallCache "u" sharedHost .forget).files.Names
        (smallCache.layout.registerPath "u" none none) := by
  obtain ⟨hothers, houtside, _⟩ := Job.run_isolated smallCache
    (.register (smallRegistration "a.zip" "1") none) (a := "t") (by decide)
    ⟨by decide, by decide⟩ sharedHost_linkless
  obtain ⟨_, _, hforgotten⟩ := Job.run_isolated smallCache .forget (a := "u") (by decide) trivial
    sharedHost_linkless
  have hcache : sharedHost.files.Reaches smallCache.layout.modelsPath ["ml_cache", "models_cache"] :=
    .of_locate (.refl _) (by decide +kernel)
  have hfolder : sharedHost.files.Reaches (smallCache.layout.registerPath "u" none none)
      ["ml_cache", "models_cache", "register", "u"] :=
    .of_locate (.refl _) (by decide +kernel)
  refine ⟨sharedHost_linkless, ?_, ?_, ?_⟩
  · exact hothers (show names "1" ++ names "m" ≠ [] by decide) "u" (by decide) (by decide) _
      List.mem_cons_self _ hfolder _ (by decide)
  · refine houtside _ fun cache hother => ?_
    obtain rfl := hcache.unique hother
    decide
  · exact hforgotten rfl _ List.mem_cons_self (by decide +kernel)

/-- A job for an id, and a file in the folder of another id or, without one, outside the cache. -/
structure Stray where
  id : Text
  job : Job
  other : Option Text
  file : Text

namespace Stray

def cache : ModelCache :=
  { smallCache with layout := { smallLayout with
      repositoryEndpoint := some "http://h"
      metaListEndpoint := some "http://h/l" } }

def path (s : Stray) : Path :=
  match s.other with
  | some other => (cache.layout.registerPath other none none).child s.file
  | none => (Path.ofText "/").child s.file

/-- The file is there; where ids are registered, l is a link to m and k one to the root. -/
def host (s : Stray) : Host :=
  let link (name : Text) (target : Path) (t : Tree) : Tree :=
    (t.makeLink target (cache.layout.registerPath name none none)).toOption.getD t
  let made := (Files.makeFolders cache.layout.registerRoot (Files.makeFolders s.path.parent .empty).2).2
  let filled := (Files.write made s.path [1]).toOption.getD made
  { Host.start 0 with
    files := link "l" (Path.ofText "m") (link "k" (Path.ofText "/") filled)
    exchanges := [Executor.plainAnswer 200 [0x6e, 0x6f]] }

def registration (name version : Text) : Registration :=
  { smallRegistration "none" version with name }

/-- An id of the two halves that stand for the bytes of é. -/
def spelledId : Text := [.half ⟨0x4C3, by decide⟩, .half ⟨0x4A9, by decide⟩]

/-- One thing is amiss in each: an id or a name that is anchored or steps back, an id above or below the
other one or of the same bytes, an archive without a name, or a link. -/
def all : List Stray :=
  [⟨"", .forget, some "m", "x"⟩,
   ⟨"..", .forget, some "m", "x"⟩,
   ⟨"/ml_cache/models_cache/register/m", .forget, some "m", "x"⟩,
   ⟨"./m", .forget, some "m", "x"⟩,
   ⟨"m", .forget, some "m/n", "x"⟩,
   ⟨"m/n", .forget, some "m", "n"⟩,
   ⟨spelledId, .forget, some "é", "x"⟩,
   ⟨"m", .forget, some "/ml_cache/models_cache/register/m", "x"⟩,
   ⟨"m", .forget, some "..", "register/m/x"⟩,
   ⟨"l/n", .forget, some "m/n", "x"⟩,
   ⟨"a", .register (registration "" "") none, some "a.zip", "x"⟩,
   ⟨"a", .register (registration "m" "..") none, some "m.zip", "x"⟩,
   ⟨"a", .register (registration "m" "1") (some ".."), some "m.zip", "x"⟩,
   ⟨"a", .register (registration "/ml_cache/models_cache/register/m" "1") none, some "m.zip", "x"⟩,
   ⟨"a", .metaList (registration "/ml_cache/models_cache/register/m" "1"), some "m",
      metaListName⟩,
   ⟨"a", .prebuilt (registration "m" ".."), some "m", configName⟩,
   ⟨"/f", .forget, none, "f"⟩,
   ⟨"../../../f", .forget, none, "f"⟩,
   ⟨"k/f", .forget, none, "f"⟩,
   ⟨"a", .register (registration "/f" "1") none, none, "f.zip"⟩,
   ⟨"a", .prebuilt (registration "/" "1"), none, configName⟩]

/-- What is done for the one id takes or changes the file, which is not its own. -/
def Reaches [HostEncoder] (s : Stray) : Prop :=
  s.other ≠ some s.id ∧ (Files.read s.host.files s.path).toOption = some [1] ∧
    (Files.read (s.job.run cache s.id s.host).files s.path).toOption ≠ some [1]

instance [HostEncoder] (s : Stray) : Decidable s.Reaches := inferInstanceAs (Decidable (_ ∧ _ ∧ _))

end Stray

theorem strays_reach : Stray.all.Forall Stray.Reaches := by
  decide +kernel

end ModelCache

end RemoteModel
