import RemoteModel.Artifact.Format
import RemoteModel.Auth.Field
import RemoteModel.Connector.Basic

/-!
What is registered: a model with its archive, and what is known of the archive afterwards.
-/

namespace RemoteModel

structure ArtifactMetadata where
  chunkFiles : List Text
  size : Nat
  hash : Text
  deriving DecidableEq, Repr

namespace ArtifactMetadata

def toJson (m : ArtifactMetadata) : Json :=
  .obj [(Text.ofString "chunk_files", .arr (m.chunkFiles.map .str)),
    (Text.ofString "model_size_in_bytes", .int m.size),
    (Text.ofString "model_file_hash", .str m.hash)]

end ArtifactMetadata

def ModelFormat.parse (name : Text) : Except Failure ModelFormat :=
  match ofName? name with
  | some f => .ok f
  | none => .error (.formatUnknown name)

/-- Where an archive lies: at an address, or behind the download action of a connector, which comes
first. The auth fields are for archives in object storage. -/
structure Registration where
  name : Text
  version : Text
  format : Option ModelFormat
  hash : Option Text
  url : Option Text
  connector : Option Connector
  function : FunctionName
  config : Option (Entries Json)
  storageEndpoint : Option Text
  auth : AuthField → Option Text

namespace Registration

def authSettings (r : Registration) : Entries Json :=
  AuthField.all.filterMap fun f => (r.auth f).map fun v => (f.name, .str v)

end Registration

end RemoteModel
