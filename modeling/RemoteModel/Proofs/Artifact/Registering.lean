import Mathlib.Algebra.GroupWithZero.Nat
import RemoteModel.Proofs.Artifact.Fetch
import RemoteModel.Proofs.Artifact.Verdict

/-!
Registrations from end to end. A registration that succeeds leaves the bytes that its source gave, cut
into chunks; none leaves the archive itself, and one that fails leaves no chunk. All this is so where a
path steps back by two dots only out of folders that are there: a folder that the fetch makes may
otherwise lay open what lay behind it.
-/

namespace RemoteModel

open RemoteModel.Tree

namespace Files

def contents (t : Tree) (files : List Text) : List (Option Bytes) :=
  files.map fun file => (read t (Path.ofText file)).toOption

theorem contents_eq {t : Tree} {paths : List Path} {chunks : List Bytes}
    (h : List.Forall₂ (fun path chunk => Files.read t path = .ok chunk) paths chunks)
    (hproper : ∀ path ∈ paths, path.IsProper) :
    contents t (paths.map Path.text) = chunks.map some := by
  induction h with
  | nil => rfl
  | cons hread _ ih =>
      rw [List.map_cons, contents, List.map_cons, List.map_cons, ← contents,
        ih fun path hpath => hproper path (List.mem_cons_of_mem _ hpath),
        Path.ofText_text (hproper _ List.mem_cons_self), hread]
      rfl

/-- Files in a folder hold chunks of some bytes: they are named by numbers from nought on, all chunks
but the last are full, and together they are the bytes. -/
structure AreChunks (t : Tree) (folder : Path) (size : Nat) (whole : Bytes) (files : List Text)
    (chunks : List Bytes) : Prop where
  named : files = (List.range ((whole.length + size - 1) / size)).map fun number =>
    folder.text ++ Text.ofString "/" ++ Text.ofNat number
  held : contents t files = chunks.map some
  flatten : chunks.flatten = whole
  full : ∀ chunk ∈ chunks.dropLast, chunk.length = size
  rest : ∀ chunk ∈ chunks.getLast?, 0 < chunk.length ∧ chunk.length ≤ size

end Files

namespace ModelCache

open Files

/-- A registration kept what its source gave: the hash it declares and the one it reports are that of
the archive, and the chunks it reports are those of the archive. -/
def Kept (c : ModelCache) (r : Registration) (folder : Path) (h h' : Host)
    (m : ArtifactMetadata) : Prop :=
  ∃ archive chunks, Gave r (archivePath folder) h h' archive ∧
    m.hash = Sha256.hexHash archive ∧ r.hash = some m.hash ∧ 0 < c.layout.chunkSize ∧
    AreChunks h'.files (chunksPath folder) c.layout.chunkSize.toNat archive m.chunkFiles chunks ∧
    m.size = (chunks.map List.length).sum

theorem areChunks_chunks {t : Tree} {folder : Path} {size : Nat} {content : Bytes}
    (hsize : 0 < size) (hproper : folder.IsProper)
    (hread : List.Forall₂ (fun path chunk => Files.read t path = .ok chunk)
      ((List.range (Bytes.chunks size content).length).map (chunkPath (chunksPath folder)))
      (Bytes.chunks size content)) :
    AreChunks t (chunksPath folder) size content
      (((List.range (Bytes.chunks size content).length).map
        (chunkPath (chunksPath folder))).map Path.text) (Bytes.chunks size content) := by
  have hcut := Bytes.isCut_chunks hsize content
  refine ⟨?_, contents_eq hread ?_, Bytes.flatten_chunks size content, hcut.full, hcut.rest⟩
  · have hcount := hcut.count hsize
    rw [Bytes.flatten_chunks] at hcount
    rw [hcount, List.map_map]
    exact List.map_congr_left fun number _ => chunkPath_text folder number
  · intro path hpath
    obtain ⟨number, _, rfl⟩ := List.mem_map.mp hpath
    exact isProper_chunkPath hproper number

theorem chunksPath_beside {folder : Path} (hproper : folder.IsProper) :
    ∃ below, below ≠ [] ∧ chunksPath folder =
      ⟨(archivePath folder).anchor, (archivePath folder).parts.dropLast ++ below⟩ := by
  obtain ⟨name, _, harchive⟩ := archivePath_eq hproper
  rw [harchive, List.dropLast_concat, chunksPath_eq]
  rcases folder.parts.eq_nil_or_concat with hparts | ⟨front, last, hparts⟩
  · exact ⟨[Text.ofString "chunks"], by simp, by simp [hparts]⟩
  · exact ⟨[last, Text.ofString "chunks"], by simp, by simp [hparts]⟩

theorem archivePath_beside {folder : Path} (hproper : folder.IsProper) :
    ∃ name, name ≠ twoDots ∧ archivePath folder =
      ⟨(archivePath folder).anchor, (archivePath folder).parts.dropLast ++ [name]⟩ := by
  obtain ⟨name, hname, harchive⟩ := archivePath_eq hproper
  exact ⟨name, hname, by rw [harchive, List.dropLast_concat]⟩

section

variable {t t' : Tree} {folder : Path} {found : Option Bytes}

theorem grounds_parent (hproper : folder.IsProper) (hground : t.Grounds folder) :
    t.Grounds (archivePath folder).parent := by
  obtain ⟨name, _, harchive⟩ := archivePath_eq hproper
  rw [harchive, Path.parent, List.dropLast_concat]
  rcases folder.parts.eq_nil_or_concat with hparts | ⟨front, last, hparts⟩
  · exact grounds_of_not_mem (by simp [hparts])
  · rw [List.concat_eq_append] at hparts
    rw [hparts, List.dropLast_concat]
    have hwhole : t.Grounds ⟨folder.anchor, front ++ [last]⟩ := by rwa [← hparts]
    exact hwhole.of_append

theorem grounds_archive (hproper : folder.IsProper) (hground : t.Grounds folder) :
    t.Grounds (archivePath folder) := by
  obtain ⟨name, hname, harchive⟩ := archivePath_beside hproper
  rw [harchive]
  exact (grounds_parent hproper hground).snoc hname

theorem grounds_chunks (hground : t.Grounds folder) : t.Grounds (chunksPath folder) := by
  rw [chunksPath_eq]
  exact Grounds.snoc hground (by decide)

theorem staged_clear (hproper : folder.IsProper) (hground : t.Grounds folder)
    (harchive : ¬t.Names (archivePath folder)) (hchunks : ¬t.Names (chunksPath folder))
    (hstaged : Staged t (archivePath folder) found t') :
    t'.hasFolder (archivePath folder) = false ∧ t'.hasFolder (chunksPath folder) = false := by
  constructor
  · obtain ⟨name, hname, heq⟩ := archivePath_beside hproper
    have hclear := grounds_archive hproper hground
    have hnot := not_hasFolder_of_not_names harchive
    rw [heq] at hclear hnot ⊢
    exact hstaged.not_hasFolder hclear (by simp) hnot
  · obtain ⟨below, hbelow, heq⟩ := chunksPath_beside hproper
    have hclear := grounds_chunks hground
    have hnot := not_hasFolder_of_not_names hchunks
    rw [heq] at hclear hnot ⊢
    exact hstaged.not_hasFolder hclear hbelow hnot

theorem staged_removed (hproper : folder.IsProper) (hground : t.Grounds folder)
    (harchive : ¬t.Names (archivePath folder)) (hchunks : ¬t.Names (chunksPath folder))
    (hstaged : Staged t (archivePath folder) found t') :
    ¬(remove (archivePath folder) t').2.Names (archivePath folder) := by
  cases found with
  | some bytes =>
      exact not_names_remove hstaged.checkPath
        (staged_clear hproper hground harchive hchunks hstaged).1
  | none =>
      have hnot : ¬t'.Names (archivePath folder) := by
        obtain ⟨name, hname, heq⟩ := archivePath_beside hproper
        have hclear := grounds_archive hproper hground
        rw [heq] at hclear harchive ⊢
        exact hstaged.not_names hclear harchive
      rintro ⟨node, hnode⟩
      exact hnot ⟨node, (extends_remove _ t').find hnode⟩

end

theorem register_ends [HostEncoder] (c : ModelCache) (r : Registration) (task : Text) (version : Option Text)
    {h : Host} (hground : h.files.Grounds (c.stagingFolder r task version))
    (harchive : ¬h.files.Names (archivePath (c.stagingFolder r task version)))
    (hchunks : ¬h.files.Names (chunksPath (c.stagingFolder r task version))) :
    ¬(c.register r task version h).2.files.Names (archivePath (c.stagingFolder r task version)) ∧
      Leads (fun h' => h'.files.hasFolder (chunksPath (c.stagingFolder r task version)) = false)
        (fun m h' => Kept c r (c.stagingFolder r task version) h h' m)
        (c.register r task version h) := by
  have hproper := c.isProper_stagingFolder r task version
  have hparent := grounds_parent hproper hground
  unfold register
  dsimp only
  generalize c.stagingFolder r task version = folder at *
  have hfetch := c.fetch_leads r (h := HasJournal.log [announcement r task] h) hparent
  split
  next f h₁ hrun =>
    rw [hrun] at hfetch
    obtain ⟨found, hstaged⟩ := hfetch
    have hclear := staged_clear hproper hground harchive hchunks hstaged
    refine ⟨?_, ?_⟩
    · rw [discard_files]
      exact staged_removed hproper hground harchive hchunks hstaged
    · change (discard (archivePath folder) h₁).files.hasFolder (chunksPath folder) = false
      rw [discard_files]
      exact (extends_remove _ _).not_hasFolder hclear.2
  next h₁ hrun =>
    rw [hrun] at hfetch
    obtain ⟨archive, hgave, hstaged⟩ := hfetch
    have hclear := staged_clear hproper hground harchive hchunks hstaged
    have hverdict := c.accept_verdict (r := r) task (hstaged.grounds (grounds_chunks hground)) hclear.2
      hstaged.checkPath hstaged.find
    have hasked := c.accept_unasked r task (archivePath folder) (chunksPath folder) h₁
    generalize c.accept r task (archivePath folder) (chunksPath folder) h₁ = end'
      at hverdict hasked ⊢
    obtain ⟨result, h₂⟩ := end'
    obtain ⟨hgone, hleft⟩ := hverdict.discard hstaged.checkPath hstaged.find
    refine ⟨by rwa [discard_files], ?_⟩
    cases result with
    | error =>
        change (discard (archivePath folder) h₂).files.hasFolder (chunksPath folder) = false
        rw [discard_files]
        exact hleft
    | ok m =>
        obtain ⟨hdeclared, hsize, rfl, hread⟩ := hleft
        refine ⟨archive, Bytes.chunks c.layout.chunkSize.toNat archive, ?_, rfl, hdeclared, hsize,
          ?_, ?_⟩
        · exact hgave.transfer rfl rfl rfl hasked.1 hasked.2
        · rw [discard_files]
          exact areChunks_chunks (by omega) hproper hread
        · rw [← List.length_flatten, Bytes.flatten_chunks]

/-- A registration that succeeds kept what its source gave. -/
theorem register_keeps [HostEncoder] (c : ModelCache) (r : Registration) (task : Text) (version : Option Text)
    {h h' : Host} {m : ArtifactMetadata}
    (hground : h.files.Grounds (c.stagingFolder r task version))
    (harchive : ¬h.files.Names (archivePath (c.stagingFolder r task version)))
    (hchunks : ¬h.files.Names (chunksPath (c.stagingFolder r task version)))
    (hrun : c.register r task version h = (.ok m, h')) :
    Kept c r (c.stagingFolder r task version) h h' m := by
  have hends := (c.register_ends r task version hground harchive hchunks).2
  rwa [hrun] at hends

/-- No registration leaves its archive; one that fails leaves nothing under the path of the chunks, and
so there are chunks only of an archive that has the declared hash. -/
theorem register_cleans [HostEncoder] (c : ModelCache) (r : Registration) (task : Text)
    (version : Option Text) {h h' : Host} {result : Except Failure ArtifactMetadata}
    (hground : h.files.Grounds (c.stagingFolder r task version))
    (harchive : ¬h.files.Names (archivePath (c.stagingFolder r task version)))
    (hchunks : ¬h.files.Names (chunksPath (c.stagingFolder r task version)))
    (hrun : c.register r task version h = (result, h')) :
    ¬h'.files.Names (archivePath (c.stagingFolder r task version)) ∧
      (∀ f, result = .error f → ∀ below, below ≠ [] →
        ¬h'.files.Names ((chunksPath (c.stagingFolder r task version)).join ⟨.here, below⟩)) ∧
      (∀ below, below ≠ [] →
        h'.files.Names ((chunksPath (c.stagingFolder r task version)).join ⟨.here, below⟩) →
        ∃ m archive, result = .ok m ∧
          Gave r (archivePath (c.stagingFolder r task version)) h h' archive ∧
          r.hash = some (Sha256.hexHash archive)) := by
  have hends := c.register_ends r task version hground harchive hchunks
  rw [hrun] at hends
  obtain ⟨hgone, hleft⟩ := hends
  cases result with
  | error f =>
      have hbare (below : List Text) (hbelow : below ≠ []) : ¬h'.files.Names
          ((chunksPath (c.stagingFolder r task version)).join ⟨.here, below⟩) :=
        not_names_append hbelow hleft
      refine ⟨hgone, fun _ _ => hbare, fun below hbelow hnames => ?_⟩
      exact absurd hnames (hbare below hbelow)
  | ok m =>
      refine ⟨hgone, by simp, fun _ _ _ => ?_⟩
      obtain ⟨archive, chunks, hgave, hhash, hdeclared, _⟩ := hleft
      exact ⟨m, archive, rfl, hgave, hhash ▸ hdeclared⟩

/-- An archive with one member, a model file. -/
def smallArchive : Bytes :=
  Archive.entryMark ++ List.replicate 24 0 ++ [3, 0] ++ List.replicate 16 0 ++ [46, 112, 116] ++
    Archive.endMark ++ List.replicate 8 0 ++ [49, 0, 0, 0, 49, 0, 0, 0] ++ [0, 0]

def smallHash : Text := "57e201f72e279abe32ed01c2a00233dfa9212012ca1fd4953abb09e56d364fe0"

def smallLayout : ArtifactSettings where
  dataRoot := []
  chunkSize := 30
  repositoryEndpoint := none
  metaListEndpoint := none
  downloadTimeout := .ofInt 60
  downloadRetries := 3

def smallCache : ModelCache where
  layout := smallLayout
  services :=
    ⟨⟨.ofInt 10, .ofInt 60, 10, 10, 5, 30⟩, smallLayout, ⟨none, .ofInt 60⟩⟩

def smallRegistration (file version : Text) : Registration where
  name := "m"
  version := version
  format := some .torchScript
  hash := some smallHash
  url := some ("file:///" ++ file)
  connector := none
  function := .metricsCorrelation
  config := none
  storageEndpoint := none
  auth _ := none

def smallHost : Host :=
  { Host.start 0 with
    files := (Files.write .empty ⟨.root, ["a.zip"]⟩ smallArchive).toOption.getD .empty }

def smallMetadata (version : Text) : ArtifactMetadata where
  chunkFiles := (List.range 3).map fun number =>
    "ml_cache/models_cache/register/t/" ++ version ++ "/m/chunks/" ++ Text.ofNat number
  size := 71
  hash := smallHash

theorem eq_of_toOption [HostEncoder] {r : Registration} {c : ModelCache} {task : Text} {version : Option Text}
    {h : Host} {m : ArtifactMetadata} (hok : (c.register r task version h).1.toOption = some m) :
    c.register r task version h = (.ok m, (c.register r task version h).2) := by
  refine Prod.ext ?_ rfl
  cases hresult : (c.register r task version h).1 with
  | error => simp [hresult, Except.toOption] at hok
  | ok => simpa [hresult, Except.toOption] using hok

theorem small_registration_kept :
    Kept smallCache (smallRegistration "a.zip" "1")
      (smallCache.stagingFolder (smallRegistration "a.zip" "1") "t" none) smallHost
      (smallCache.register (smallRegistration "a.zip" "1") "t" none smallHost).2
      (smallMetadata "1") :=
  register_keeps smallCache (smallRegistration "a.zip" "1") "t" none
    (grounds_of_not_mem (by decide +kernel)) (by decide +kernel) (by decide +kernel)
    (eq_of_toOption (by decide +kernel))

theorem small_registration_cleaned :
    (smallCache.register (smallRegistration "none" "1") "t" none smallHost).1.toOption = none ∧
      ¬(smallCache.register (smallRegistration "none" "1") "t" none smallHost).2.files.Names
        (archivePath (smallCache.stagingFolder (smallRegistration "none" "1") "t" none)) :=
  ⟨by decide +kernel, (register_cleans smallCache (smallRegistration "none" "1") "t" none
    (h := smallHost) (grounds_of_not_mem (by decide +kernel)) (by decide +kernel) (by decide +kernel)
    (Prod.eta _).symm).1⟩

/-- A folder of chunks that a path reaches once there is a folder for it to step back from. -/
def hiddenChunks : Path := ⟨.here, ["ml_cache", "models_cache", "register", "t", "m", "chunks"]⟩

def linkedHost : Host :=
  let files := (Files.makeFolders hiddenChunks smallHost.files).2
  { smallHost with
    files := (files.makeLink ⟨.here, ["0"]⟩ (hiddenChunks.child "1")).toOption.getD files }

def crowdedHost : Host :=
  let files := (Files.makeFolders hiddenChunks smallHost.files).2
  { smallHost with files := (Files.write files (hiddenChunks.child "0") [1]).toOption.getD files }

theorem linked_contents :
    contents (smallCache.register (smallRegistration "a.zip" "a/..") "t" none linkedHost).2.files
      (smallMetadata "a/..").chunkFiles =
    [(smallArchive.drop 30).take 30, (smallArchive.drop 30).take 30, smallArchive.drop 60].map
      some := by
  decide +kernel

/-- Where a path steps back out of a folder that the fetch makes, a link may turn one chunk into
another one. -/
theorem linked_registration_not_kept :
    ¬∀ (c : ModelCache) (r : Registration) (task : Text) (version : Option Text) (h h' : Host)
      (m : ArtifactMetadata),
      ¬h.files.Names (archivePath (c.stagingFolder r task version)) →
      ¬h.files.Names (chunksPath (c.stagingFolder r task version)) →
      c.register r task version h = (.ok m, h') →
      Kept c r (c.stagingFolder r task version) h h' m := by
  intro hall
  have hok : (smallCache.register (smallRegistration "a.zip" "a/..") "t" none linkedHost).1.toOption =
      some (smallMetadata "a/..") := by
    decide +kernel
  obtain ⟨archive, chunks, _, hhash, _, _, hchunks, _⟩ := hall smallCache
    (smallRegistration "a.zip" "a/..") "t" none linkedHost _ _ (by decide +kernel)
    (by decide +kernel) (eq_of_toOption hok)
  have hheld := hchunks.held
  rw [linked_contents] at hheld
  have hchunks' := (List.map_inj_right fun _ _ => Option.some.inj).mp hheld
  have hwhole := hchunks.flatten
  rw [← hchunks'] at hwhole
  have hwrong : smallHash ≠ Sha256.hexHash [(smallArchive.drop 30).take 30,
      (smallArchive.drop 30).take 30, smallArchive.drop 60].flatten := by
    decide +kernel
  rw [hwhole] at hwrong
  exact hwrong hhash

/-- Where a path steps back out of a folder that the fetch makes, chunks that were left come to
light. -/
theorem crowded_registration_not_cleaned :
    ¬∀ (c : ModelCache) (r : Registration) (task : Text) (version : Option Text) (h h' : Host)
      (result : Except Failure ArtifactMetadata),
      ¬h.files.Names (archivePath (c.stagingFolder r task version)) →
      ¬h.files.Names (chunksPath (c.stagingFolder r task version)) →
      c.register r task version h = (result, h') →
      ¬h'.files.Names (archivePath (c.stagingFolder r task version)) ∧
        ∀ f, result = .error f → ∀ below, below ≠ [] →
          ¬h'.files.Names ((chunksPath (c.stagingFolder r task version)).join ⟨.here, below⟩) := by
  intro hall
  have hfails : (smallCache.register (smallRegistration "none" "a/..") "t" none
      crowdedHost).1.toOption = none := by
    decide +kernel
  obtain ⟨_, hbare⟩ := hall smallCache (smallRegistration "none" "a/..") "t" none crowdedHost _ _
    (by decide +kernel) (by decide +kernel) (Prod.eta _).symm
  cases hresult : (smallCache.register (smallRegistration "none" "a/..") "t" none crowdedHost).1 with
  | ok => simp [hresult, Except.toOption] at hfails
  | error f => exact hbare f hresult ["0"] (by simp) (by decide +kernel)

end ModelCache

end RemoteModel
