import RemoteModel.Artifact.Layout
import RemoteModel.Artifact.Registration
import RemoteModel.Http.Session
import RemoteModel.Inference.Service
import RemoteModel.ObjectStorage
import RemoteModel.Text.Percent

/-!
Where archives come from: the download action of a connector, object storage, a file of this machine
or an address of the web. Whatever the source, the archive ends up in one file; what has been written
before a failure stays there.
-/

namespace RemoteModel

/-- The cache of models: where it lies, and the settings of the services it uses. -/
structure ModelCache where
  layout : ArtifactSettings
  services : Settings
  deriving DecidableEq, Repr

namespace ModelCache

variable [HostEncoder]

def logger : Text := "mlconnect.core.artifacts"

/-- The session of the cache, which repeats what it fetches as often as the settings say. -/
def session (c : ModelCache) : Session := .create 10 20 c.layout.downloadRetries 1 none none

def blockSize : Nat := 1024 * 1024

/-- Writes what a source gives into a file; the folders above the file are made first. -/
def receive {σ : Type} [ByteSource σ] (source : σ) (target : Path) (h : Host) :
    Except Failure Unit × Host :=
  match Files.makeFolders target.parent h.files with
  | (.error f, files) => (.error f, { h with files })
  | (.ok (), files) =>
      let h := { h with files }
      let (bytes, r, _) := ByteSource.drain blockSize source
      match Files.write h.files target bytes with
      | .error f => (.error f, h)
      | .ok files => (r, { h with files })

def refusal? (a : Answer) (url : Text) : Option Failure :=
  if 400 ≤ a.status && a.status < 600 then some (.statusRefused a.status a.reason url) else none

def connectTimeout : Binary64 := .ofInt 10

/-- Fetches what an address names with one request through the session. -/
def get (c : ModelCache) (url : Text) (target : Path) (h : Host) : Except Failure Unit × Host :=
  match (Request.prepare "GET" url [] none).bind Request.withUser with
  | .error f => (.error f, h)
  | .ok r =>
      match h.exchange c.session r true connectTimeout c.layout.downloadTimeout with
      | (.error f, h) => (.error f, h)
      | (.ok a, h) =>
          match refusal? a r.url with
          | some f => (.error f, h)
          | none =>
              let blame (f : Failure) : Failure := match a.body.fault with
                | some fault => if f = fault.onWire then fault.inExchange else f
                | none => f
              match receive a.body target h with
              | (r, h) => (r.mapError blame, h)

/-- Downloads what an address names into a file. Failures of the exchange are failures of the
download; all others stay what they are. -/
def download (c : ModelCache) (url : Text) (target : Path) (h : Host) :
    Except Failure Unit × Host :=
  match c.get url target h with
  | (r, h) => (r.mapError fun f => if f.isA (.http .request) then .downloadFailed url f else f, h)

def downloadThrough (c : ModelCache) (connector : Connector) (target : Path) (h : Host) :
    Except Failure Unit × Host :=
  match Executor.ofConnector connector c.services.http none h with
  | (.error f, h) => (.error f, h)
  | (.ok e, h) =>
      match (Service.standard connector).download [] (e, h) with
      | (.error f, _, h) => (.error f, h)
      | (.ok body, _, h) =>
          match receive body target h with
          | (r, h) =>
              (r.mapError fun f =>
                if f.isA (.basic .osError) then .modelNotStored connector.name f else f, h)

def storageScheme : Text := "oci-os"

/-- The object an address of object storage names: the authority is the namespace, the path a bucket
and an object. -/
def objectOf? (a : Address) : Option ObjectName :=
  match a.authority, a.path.splitOn (.scalar '/') with
  | space :: spaces, [_, bucket :: buckets, object :: objects] =>
      some ⟨space :: spaces, bucket :: buckets, object :: objects⟩
  | _, _ => none

def downloadObject (c : ModelCache) (r : Registration) (url : Text) (a : Address) (target : Path)
    (h : Host) : Except Failure Unit × Host :=
  match objectOf? a with
  | none => (.error (.storageAddressInvalid url), h)
  | some name =>
      match AuthDescriptor.ofSettings (some r.authSettings) with
      | .error f => (.error f, h)
      | .ok d =>
          match LazySigner.build d h with
          | (.error f, h) => (.error f, h)
          | (.ok signer, h) =>
              let storage := ObjectStorage.ofSettings signer r.storageEndpoint c.services.storage
              match storage.download name target h with
              | (r, _, h) => (r, h)

def copyLocal (a : Address) (target : Path) (h : Host) : Except Failure Unit × Host :=
  let source := Path.ofText (Percent.decode a.path)
  let blame (f : Failure) : Failure :=
    if f.isA (.basic .osError) then .modelNotCopied source.text f else f
  match Files.makeFolders target.parent h.files with
  | (.error f, files) => (.error (blame f), { h with files })
  | (.ok (), files) =>
      match Files.copy source target files with
      | .error f => (.error (blame f), { h with files })
      | .ok files => (.ok (), { h with files })

def fetch (c : ModelCache) (r : Registration) (target : Path) (h : Host) :
    Except Failure Unit × Host :=
  match r.connector, r.url with
  | some connector, _ => c.downloadThrough connector target h
  | none, none | none, some [] => (.error .modelUrlMissing, h)
  | none, some url =>
      match Address.parse url with
      | .error f => (.error f, h)
      | .ok a =>
          if a.scheme = storageScheme then c.downloadObject r url a target h
          else if a.scheme = Text.ofString "file" then copyLocal a target h
          else if a.scheme = Text.ofString "http" || a.scheme = Text.ofString "https" then
            c.download url target h
          else (.error (.schemeUnsupported (if a.scheme.isEmpty then url else a.scheme)), h)

end ModelCache

end RemoteModel
