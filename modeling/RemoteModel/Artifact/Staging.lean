import RemoteModel.Artifact.Members
import RemoteModel.Artifact.Source
import RemoteModel.Digest.Sha256
import RemoteModel.Files.Chunks

/-!
Registration of an archive: it is fetched into the staging folder, verified, compared with the
declared hash and split into chunks. The archive itself never outlives the call, and chunks are
written only once the hash has been found right.
-/

namespace RemoteModel

namespace Files

def hash (t : Tree) (p : Path) : Except Failure Text := (read t p).map Sha256.hexHash

end Files

namespace ModelCache

variable [HostEncoder]

/-- Removes what a path names; what goes wrong is logged. -/
def discard (p : Path) (h : Host) : Host :=
  let (records, files) := Files.removeQuietly logger p h.files
  HasJournal.log records { h with files }

def subject (r : Registration) (task : Text) : Entries Json :=
  [("task_id", .str task), ("model_name", .str r.name)]

def announcement (r : Registration) (task : Text) : LogRecord :=
  ⟨.debug, logger, "Downloading model", subject r task⟩

def mismatchRecord (r : Registration) (task : Text) : LogRecord :=
  ⟨.error, logger, "Model content hash can't match original hash value when registering",
    subject r task⟩

/-- Splits the archive. Chunks of an archive that cannot be split are removed again if the system is
to blame. -/
def splitArchive (c : ModelCache) (archive chunks : Path) (h : Host) :
    Except Failure (List Path) × Host :=
  match Files.split archive chunks c.layout.chunkSize h.files with
  | (.ok paths, files) => (.ok paths, { h with files })
  | (.error f, files) =>
      let h := { h with files }
      (.error f, if f.isA (.basic .osError) then discard chunks h else h)

def accept (c : ModelCache) (r : Registration) (task : Text) (archive chunks : Path) (h : Host) :
    Except Failure ArtifactMetadata × Host :=
  let seen := do
    Archive.verify r.format (some r.function) r.name archive h.files
    Files.hash h.files archive
  match seen with
  | .error f => (.error f, h)
  | .ok hash =>
      if r.hash ≠ some hash then
        (.error .contentChanged, HasJournal.log [mismatchRecord r task] h)
      else
        match c.splitArchive archive chunks h with
        | (.error f, h) => (.error f, h)
        | (.ok paths, h) =>
            ((Files.size h.files archive).map fun size => ⟨paths.map Path.text, size, hash⟩, h)

/-- The folder of a registration; a version that is asked for comes before the model's own. -/
def stagingFolder (c : ModelCache) (r : Registration) (task : Text) (version : Option Text) : Path :=
  let version := match version with
    | none | some [] => r.version
    | some v => v
  c.layout.registerPath task (some r.name) (some version)

/-- The file an archive is fetched into, beside the folder of its registration. -/
def archivePath (folder : Path) : Path := Path.ofText (folder.text ++ ".zip")

def chunksPath (folder : Path) : Path := folder.child "chunks"

/-- Fetches the archive of a model, verifies it and splits it into chunks. -/
def register (c : ModelCache) (r : Registration) (task : Text) (version : Option Text) (h : Host) :
    Except Failure ArtifactMetadata × Host :=
  let folder := c.stagingFolder r task version
  let archive := archivePath folder
  match c.fetch r archive (HasJournal.log [announcement r task] h) with
  | (.error f, h) => (.error f, discard archive h)
  | (.ok (), h) =>
      match c.accept r task archive (chunksPath folder) h with
      | (result, h) => (result, discard archive h)

def forget (c : ModelCache) (model : Text) (h : Host) : Host :=
  discard (c.layout.registerPath model none none)
    (discard (c.layout.deployPath model) (discard (c.layout.modelPath model none none) h))

end ModelCache

end RemoteModel
