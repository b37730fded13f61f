import RemoteModel.Artifact.Format
import RemoteModel.Files.Path
import RemoteModel.Settings

/-!
Where models lie: the folders of the cache and the addresses of the prebuilt models.
-/

namespace RemoteModel

namespace ArtifactSettings

/-- An endpoint that is not set is spelled out. -/
def repositoryText (s : ArtifactSettings) : Text := s.repositoryEndpoint.getD "None"

def prebuiltConfigUrl (s : ArtifactSettings) (model version format : Text) : Text :=
  s.repositoryText ++ "/" ++ model ++ "/" ++ version ++ "/" ++ format.lower ++ "/config.json"

/-- The archive is named after the model without the part before the first slash. -/
def prebuiltUrl (s : ArtifactSettings) (model version format : Text) : Text :=
  let format := format.lower
  let name : Text := match model.cut (· = .scalar '/') with
    | (_, _ :: rest) => rest
    | _ => model
  s.repositoryText ++ "/" ++ model ++ "/" ++ version ++ "/" ++ format ++ "/"
    ++ name.replaceRune (.scalar '/') (.scalar '_') ++ "-" ++ version ++ "-" ++ format ++ ".zip"

def cachePath (s : ArtifactSettings) : Path := (Path.ofText s.dataRoot).child "ml_cache"

def modelsPath (s : ArtifactSettings) : Path := s.cachePath.child "models_cache"

def registerRoot (s : ArtifactSettings) : Path := s.modelsPath.child "register"

def deployRoot (s : ArtifactSettings) : Path := s.modelsPath.child "deploy"

def modelRoot (s : ArtifactSettings) : Path := s.modelsPath.child "models"

/-- The folder of an id, or of a model and version below it if both are given. -/
def folder (root : Path) (id : Text) (model version : Option Text) : Path :=
  match model, version with
  | some model, some version => ((root.child id).child version).child model
  | _, _ => root.child id

def registerPath (s : ArtifactSettings) (id : Text) (model version : Option Text) : Path :=
  folder s.registerRoot id model version

def modelPath (s : ArtifactSettings) (id : Text) (model version : Option Text) : Path :=
  folder s.modelRoot id model version

def deployPath (s : ArtifactSettings) (id : Text) : Path := s.deployRoot.child id

def deployArchive (s : ArtifactSettings) (id model : Text) : Path :=
  (s.deployPath id).child (model ++ ".zip")

def deployChunk (s : ArtifactSettings) (id : Text) (number : Int) : Path :=
  ((s.deployPath id).child "chunks").child (Text.ofInt number)

end ArtifactSettings

end RemoteModel
