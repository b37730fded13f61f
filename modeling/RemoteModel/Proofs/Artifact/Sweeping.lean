import RemoteModel.Proofs.Artifact.Isolation

/-!
What inquiries about prebuilt models leave. The document that is fetched is staged in the folder of its
task, and the folder is swept as a whole: whatever came of the inquiry, chunks of an earlier
registration go with the document, and nothing outside the folder goes.
-/

namespace RemoteModel

open RemoteModel.Tree
open RemoteModel.Path (IsPlain IsPart names)

namespace Tree

/-- A tree in which a file may have been written, and the folders above it made. -/
structure Touched (t : Tree) (target : Path) (t' : Tree) : Prop where
  links : SameLinks t t'
  keeps : ∀ place, ¬t.Reaches target place → Keeps t t' place

variable {t t' : Tree} {target : Path} {anchor : Anchor} {front : List Text} {name : Text}

theorem touched_endures (t : Tree) (target : Path) : Endures target (Touched t target) where
  made t' h := by
    have hmade := Files.makeFolders_keeps target.parent t'
    exact ⟨h.links.trans (Keeps.sameLinks hmade), fun place hplace =>
      (h.keeps place hplace).trans (hmade place)⟩
  written t' t'' content h hwrite := by
    obtain ⟨root, hroot, hstored⟩ := write_eq_ok (Files.write_eq_ok_iff.mp hwrite).2
    refine ⟨h.links.trans hstored.sameWays.sameLinks, fun place hplace => ?_⟩
    have hother : place ≠ root := by
      rintro rfl
      exact hplace (.of_locate h.links hroot)
    exact (h.keeps place hplace).trans (.inl (hstored.node?_other hother))

theorem locate_named (hlinks : SameLinks t t') (hname : name ≠ twoDots) {place : Place}
    (h : t'.locate false ⟨anchor, front ++ [name]⟩ = .ok place) :
    ∃ folder, t.Reaches ⟨anchor, front⟩ folder ∧ place = folder.along [name] := by
  obtain ⟨folder, hfront, hfolder⟩ := hasFolder_iff.mp (hasFolder_of_locate_append (by simp) h)
  exact ⟨folder, .of_locate hlinks hfront, locate_append hfront hfolder hname (by simp) h⟩

theorem Touched.remove_keeps (h : Touched t target t') (hname : name ≠ twoDots) {place : Place}
    (houtside : ∀ folder, t.Reaches ⟨anchor, front⟩ folder → ¬folder.along [name] <+: place)
    (hplace : ¬t.Reaches target place) :
    Keeps t (Files.remove ⟨anchor, front ++ [name]⟩ t').2 place := by
  refine (h.keeps place hplace).trans (.inl (Files.remove_elsewhere fun root hroot => ?_))
  obtain ⟨folder, hfolder, rfl⟩ := locate_named h.links hname hroot
  exact houtside folder hfolder

theorem Touched.not_names_remove (h : Touched t target t') (hname : name ≠ twoDots)
    (hfree : ∀ folder, t.Reaches ⟨anchor, front⟩ folder →
      ∀ link, t.node? (folder.along [name]) ≠ some (.link link))
    (hpath : Files.checkPath ⟨anchor, front ++ [name]⟩ = .ok ()) :
    ¬(Files.remove ⟨anchor, front ++ [name]⟩ t').2.Names ⟨anchor, front ++ [name]⟩ := by
  cases hthere : t'.hasFolder ⟨anchor, front ++ [name]⟩ with
  | false => exact Files.not_names_remove hpath hthere
  | true =>
      obtain ⟨place, hplace, hfolder⟩ := hasFolder_iff.mp hthere
      obtain ⟨last, hlast⟩ := locate_false_of_true hplace
      obtain ⟨folder, hreached, rfl⟩ := locate_named h.links hname hlast
      have hunlinked (link : Path) : t'.node? (folder.along [name]) ≠ some (.link link) := by
        rw [ne_eq, h.links]
        exact hfree folder hreached link
      obtain rfl := locate_unique hplace (locate_true_of_false hlast hunlinked)
      exact Files.not_names_remove_folder hpath hlast hfolder
        (Place.along_ne_nil _ (List.cons_ne_nil _ _))

end Tree

namespace ModelCache

/-- What may be asked about prebuilt models: which there are, or how one is configured. -/
inductive Inquiry where
  | metaList
  | prebuilt
  deriving DecidableEq

namespace Inquiry

def all : List Inquiry := [metaList, prebuilt]

def run [HostEncoder] (c : ModelCache) (r : Registration) (task : Text) (h : Host) : Inquiry → Host
  | metaList => (c.metaList r task h).2
  | prebuilt => (c.prebuilt r task h).2

/-- Where the answer is fetched from, if all is known that must be known before. -/
def address? (c : ModelCache) (r : Registration) : Inquiry → Option Text
  | metaList =>
      match c.layout.metaListEndpoint with
      | none | some [] => none
      | some url => some url
  | prebuilt =>
      match c.layout.repositoryEndpoint, r.format with
      | none, _ | some [], _ => none
      | some _, none => none
      | some _, some format => some (c.layout.prebuiltConfigUrl r.name r.version format.name)

def documentName : Inquiry → Text
  | metaList => metaListName
  | prebuilt => configName

/-- The file the answer is staged in. -/
def stagedFile (c : ModelCache) (r : Registration) (task : Text) (inquiry : Inquiry) : Path :=
  (c.layout.registerPath task (some r.name) (some r.version)).child inquiry.documentName

variable {c : ModelCache} {r : Registration} {task : Text} {h : Host} {inquiry : Inquiry}

theorem run_unasked [HostEncoder] (hnone : inquiry.address? c r = none) : inquiry.run c r task h = h := by
  cases inquiry with
  | metaList =>
      rcases hendpoint : c.layout.metaListEndpoint with _ | _ | ⟨rune, rest⟩ <;>
        simp [address?, run, ModelCache.metaList, hendpoint] at hnone ⊢
  | prebuilt =>
      rcases hendpoint : c.layout.repositoryEndpoint with _ | _ | ⟨rune, rest⟩ <;>
        cases hformat : r.format <;>
        simp [address?, run, ModelCache.prebuilt, hendpoint, hformat] at hnone ⊢

theorem run_asked [HostEncoder] (task : Text) (h : Host) {url : Text}
    (hurl : inquiry.address? c r = some url) : ∃ unreadable, inquiry.run c r task h =
      (c.staged unreadable r task url inquiry.documentName h).2 := by
  cases inquiry with
  | metaList =>
      refine ⟨.metaListNotJson, ?_⟩
      rcases hendpoint : c.layout.metaListEndpoint with _ | _ | ⟨rune, rest⟩ <;>
        simp only [address?, hendpoint, reduceCtorEq, Option.some.injEq] at hurl
      subst hurl
      simp only [run, ModelCache.metaList, hendpoint, documentName]
      split <;> simp_all
  | prebuilt =>
      refine ⟨.configNotJson, ?_⟩
      rcases hendpoint : c.layout.repositoryEndpoint with _ | _ | ⟨rune, rest⟩ <;>
        cases hformat : r.format <;>
        simp only [address?, hendpoint, hformat, reduceCtorEq, Option.some.injEq] at hurl
      subst hurl
      simp only [run, ModelCache.prebuilt, hendpoint, hformat, documentName]
      split <;> simp_all

theorem run_touched [HostEncoder] (hasked : inquiry.address? c r ≠ none) (htask : IsPart task) :
    ∃ t, Touched h.files (inquiry.stagedFile c r task) t ∧ (inquiry.run c r task h).files =
      (Files.remove ⟨c.layout.registerRoot.anchor, c.layout.registerRoot.parts ++ [task]⟩ t).2 := by
  obtain ⟨url, hurl⟩ := Option.ne_none_iff_exists'.mp hasked
  obtain ⟨unreadable, hrun⟩ := run_asked task h hurl
  have hget := get_endures (touched_endures h.files (inquiry.stagedFile c r task)) c url (h := h)
    ⟨.refl _, fun place _ => .refl _ place⟩
  have hfolder : c.layout.registerPath task none none =
      ⟨c.layout.registerRoot.anchor, c.layout.registerRoot.parts ++ [task]⟩ :=
    Path.child_part _ htask
  rw [hrun, ← hfolder]
  unfold stagedFile at hget ⊢
  unfold staged document download
  dsimp only
  generalize c.get url _ h = end' at hget ⊢
  obtain ⟨result, h₁⟩ := end'
  exact ⟨h₁.files, hget, by cases result <;> exact discard_files _ _⟩

/-- Where the folder of a task lies, or what stands in its place. -/
def Desk (c : ModelCache) (task : Text) (t : Tree) (place : Place) : Prop :=
  ∃ folder, t.Reaches c.layout.registerRoot folder ∧ place = folder.along [task]

theorem stagedFile_below (inquiry : Inquiry) (htask : IsPart task) (hversion : IsPlain r.version)
    (hname : IsPlain r.name) : ∃ more, more ≠ [] ∧ inquiry.stagedFile c r task =
      ⟨c.layout.registerRoot.anchor, c.layout.registerRoot.parts ++ [task] ++ more⟩ := by
  have hdocument : IsPart inquiry.documentName := by
    cases inquiry <;> exact ⟨by decide, by decide⟩
  refine ⟨names r.version ++ names r.name ++ [inquiry.documentName], by simp, ?_⟩
  change (((c.layout.registerRoot.child task).child r.version).child r.name).child _ = _
  rw [Path.child_part _ htask, Path.child_plain _ hversion, Path.child_plain _ hname,
    Path.child_part _ hdocument]
  simp [Path.below]

/-- An inquiry that comes to a fetch leaves nothing in the folder of its task: neither the document that
it staged there nor what was there before. All else stays, wherever name and version lead and whatever
links there are. -/
theorem run_sweeps [HostEncoder] (c : ModelCache) (inquiry : Inquiry) (r : Registration) {task : Text}
    (h : Host) (htask : IsPart task) (hdown : task ≠ twoDots) :
    (inquiry.address? c r = none → inquiry.run c r task h = h) ∧
    (inquiry.address? c r ≠ none →
      (∀ place, Desk c task h.files place → ∀ link, h.files.node? place ≠ some (.link link)) →
      Files.checkPath (c.layout.registerPath task none none) = .ok () →
      (∀ below, ¬(inquiry.run c r task h).files.Names
        ((c.layout.registerPath task none none).below below)) ∧
      (IsPlain r.version → IsPlain r.name →
        ¬(inquiry.run c r task h).files.Names (inquiry.stagedFile c r task))) ∧
    ∀ place, (∀ root, Desk c task h.files root → ¬root <+: place) →
      ¬h.files.Reaches (inquiry.stagedFile c r task) place →
      Keeps h.files (inquiry.run c r task h).files place := by
  refine ⟨run_unasked, fun hasked hfree hpath => ?_, fun place houtside hplace => ?_⟩
  · obtain ⟨t, htouched, hleft⟩ := run_touched (h := h) hasked htask
    have hfolder : c.layout.registerPath task none none =
        ⟨c.layout.registerRoot.anchor, c.layout.registerRoot.parts ++ [task]⟩ :=
      Path.child_part _ htask
    rw [hfolder] at hpath ⊢
    rw [hleft]
    have hgone := htouched.not_names_remove hdown
      (fun folder hreached => hfree _ ⟨folder, hreached, rfl⟩) hpath
    have hbelow {more : List Text} (hmore : more ≠ []) :=
      not_names_append hmore (not_hasFolder_of_not_names hgone)
    constructor
    · intro below
      by_cases hnil : below = []
      · rw [hnil, Path.below, List.append_nil]
        exact hgone
      · exact hbelow hnil
    · intro hversion hname
      obtain ⟨more, hmore, hstaged⟩ :=
        inquiry.stagedFile_below htask hversion hname
      rw [hstaged]
      exact hbelow hmore
  · by_cases hasked : inquiry.address? c r = none
    · rw [run_unasked hasked]
      exact .refl _ place
    · obtain ⟨t, htouched, hleft⟩ := run_touched (h := h) hasked htask
      rw [hleft]
      exact htouched.remove_keeps hdown
        (fun folder hreached => houtside _ ⟨folder, hreached, rfl⟩) hplace

/-- A host with some files, and a web that answers with an empty list. -/
def answering (files : Tree) : Host :=
  { smallHost with files, exchanges := [Executor.plainAnswer 200 [0x5b, 0x5d]] }

/-- What the registration of a small archive leaves. -/
def registeredHost : Host :=
  let folder := Stray.cache.stagingFolder (smallRegistration "a.zip" "1") "t" none
  answering (Files.split (Path.ofText "/a.zip") (chunksPath folder) 30 smallHost.files).2

theorem registeredHost_linkless : registeredHost.files.Linkless Stray.cache.layout.registerRoot :=
  linkless_of_nodes (by decide +kernel) _

theorem registered_host_swept :
    Keeps registeredHost.files
        (metaList.run Stray.cache (smallRegistration "a.zip" "1") "t" registeredHost).files ["a.zip"] ∧
      ¬(metaList.run Stray.cache (smallRegistration "a.zip" "1") "t" registeredHost).files.Names
        (metaList.stagedFile Stray.cache (smallRegistration "a.zip" "1") "t") := by
  obtain ⟨_, hgone, hkept⟩ := run_sweeps Stray.cache metaList (smallRegistration "a.zip" "1")
    registeredHost (show IsPart "t" from ⟨by decide, by decide⟩) (by decide)
  have hroot : registeredHost.files.Reaches Stray.cache.layout.registerRoot
      ["ml_cache", "models_cache", "register"] :=
    .of_locate (.refl _) (by decide +kernel)
  have hstaged : registeredHost.files.Reaches
      (metaList.stagedFile Stray.cache (smallRegistration "a.zip" "1") "t")
      ["ml_cache", "models_cache", "register", "t", "1", "m", metaListName] :=
    .of_locate (.refl _) (by decide +kernel)
  constructor
  · apply hkept
    · rintro root ⟨folder, hfolder, rfl⟩
      obtain rfl := hroot.unique hfolder
      decide
    · intro hother
      exact absurd (hstaged.unique hother) (by decide)
  · refine (hgone (by decide +kernel) ?_ (by decide +kernel)).2 (by decide) (by decide)
    rintro place ⟨folder, hfolder, rfl⟩ link
    exact registeredHost_linkless folder hfolder _ (Place.prefix_along ..) link

/-- A registration, and a host on which an inquiry about it leaves what it staged in some folder. -/
structure Remnant where
  cache : ModelCache
  registration : Registration
  host : Host
  folder : Place

namespace Remnant

def stocked : Tree :=
  all.foldl (fun t inquiry =>
    let file := inquiry.stagedFile smallCache (Stray.registration "m" "1") "t"
    let made := (Files.makeFolders file.parent t).2
    (Files.write made file [1]).toOption.getD made) smallHost.files

def linked : Tree :=
  let root := Stray.cache.layout.registerRoot
  let made := (Files.makeFolders (root.child "m") smallHost.files).2
  (made.makeLink (Path.ofText "m") (root.child "t")).toOption.getD made

/-- The version steps back, the name is anchored, a link stands for the folder of the task, or there is
nowhere to ask. -/
def all : List Remnant :=
  [⟨Stray.cache, Stray.registration "m" "..", answering smallHost.files,
      ["ml_cache", "models_cache", "register", "m"]⟩,
    ⟨Stray.cache, Stray.registration "/n" "1", answering smallHost.files, ["n"]⟩,
    ⟨Stray.cache, Stray.registration "m" "1", answering linked,
      ["ml_cache", "models_cache", "register", "m", "1", "m"]⟩,
    ⟨smallCache, Stray.registration "m" "1", answering stocked,
      ["ml_cache", "models_cache", "register", "t", "1", "m"]⟩]

def Stays [HostEncoder] (e : Remnant) (inquiry : Inquiry) : Prop :=
  (inquiry.run e.cache e.registration "t" e.host).files.node?
    (e.folder ++ [inquiry.documentName]) ≠ none

instance [HostEncoder] (e : Remnant) (inquiry : Inquiry) : Decidable (e.Stays inquiry) :=
  inferInstanceAs (Decidable (_ ≠ _))

end Remnant

/-- The chunks of a registration go with the next inquiry for the same task, and what an inquiry staged
may outlast it. -/
theorem inquiries_take_chunks :
    (Stray.cache.register (smallRegistration "a.zip" "1") "t" none smallHost).1.toOption =
        some (smallMetadata "1") ∧
      (Stray.cache.register (smallRegistration "a.zip" "1") "t" none smallHost).2.files =
        registeredHost.files ∧
      Files.contents registeredHost.files (smallMetadata "1").chunkFiles =
        [smallArchive.take 30, (smallArchive.drop 30).take 30, smallArchive.drop 60].map some ∧
      (∀ inquiry ∈ all, Files.contents
        (inquiry.run Stray.cache (smallRegistration "a.zip" "1") "t" registeredHost).files
        (smallMetadata "1").chunkFiles = [none, none, none]) ∧
      ∀ e ∈ Remnant.all, ∀ inquiry ∈ all, e.Stays inquiry := by
  decide +kernel

end Inquiry

end ModelCache

end RemoteModel
