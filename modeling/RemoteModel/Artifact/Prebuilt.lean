import RemoteModel.Artifact.ModelConfig
import RemoteModel.Artifact.Staging

/-!
Prebuilt models: the list of them, and the registration of one from the configuration that its
repository keeps. Both are staged as files, which are removed whatever comes of them.
-/

namespace RemoteModel

namespace ModelCache

variable [HostEncoder]

def metaListName : Text := "model_meta_list.json"

def configName : Text := "config.json"

/-- Downloads a document into the staging folder and reads it. A file that is no JSON is reported by
`unreadable`. -/
def document (c : ModelCache) (unreadable : Json.ReadError → Failure) (url : Text) (target : Path)
    (h : Host) : Except Failure Json × Host :=
  match c.download url target h with
  | (.error f, h) => (.error f, h)
  | (.ok (), h) =>
      (do
        let text ← Files.readText h.files target
        match Json.parse text with
        | .ok d => return d
        | .error (.tooLong digits) => throw (.integerTooLong digits)
        | .error e => throw (unreadable e), h)

/-- Downloads a document under a name into the folder of a registration, which is emptied afterwards
for the whole task. -/
def staged (c : ModelCache) (unreadable : Json.ReadError → Failure) (r : Registration) (task : Text)
    (url name : Text) (h : Host) : Except Failure Json × Host :=
  let folder := c.layout.registerPath task (some r.name) (some r.version)
  match c.document unreadable url (folder.child name) h with
  | (result, h) => (result, discard (c.layout.registerPath task none none) h)

def metaList (c : ModelCache) (r : Registration) (task : Text) (h : Host) :
    Except Failure (List Json) × Host :=
  match c.layout.metaListEndpoint with
  | none | some [] => (.error .metaListUnconfigured, h)
  | some url =>
      match c.staged .metaListNotJson r task url metaListName h with
      | (.error f, h) => (.error f, h)
      | (.ok (.arr entries), h) => (.ok entries, h)
      | (.ok _, h) => (.error .metaListNotList, h)

def formatIn (config : Entries Json) (format : ModelFormat) : Except Failure ModelFormat :=
  match config.get? "model_format" with
  | none => .ok format
  | some v => ModelFormat.parse v.shown

def configured (r : Registration) (format : ModelFormat) (url : Text) (config : Entries Json) :
    Except Failure Registration := do
  let format ← formatIn config format
  let model ← ModelConfig.normalize ((config.get? "model_config").getD .null)
  let hash := (config.get? "model_content_hash_value").getD .null
  return { r with
    url := some url
    format := some format
    config := model.orElse fun _ => r.config
    hash := if hash.isNull then r.hash else some hash.shown }

def prebuilt (c : ModelCache) (r : Registration) (task : Text) (h : Host) :
    Except Failure Registration × Host :=
  match c.layout.repositoryEndpoint, r.format with
  | none, _ | some [], _ => (.error .repositoryUnconfigured, h)
  | some _, none => (.error .modelFormatMissing, h)
  | some _, some format =>
      let url := c.layout.prebuiltConfigUrl r.name r.version format.name
      match c.staged .configNotJson r task url configName h with
      | (.error f, h) => (.error f, h)
      | (.ok (.obj (entry :: entries)), h) =>
          (configured r format (c.layout.prebuiltUrl r.name r.version format.name)
            (entry :: entries), h)
      | (.ok _, h) => (.error .configNotFound, h)

end ModelCache

end RemoteModel
