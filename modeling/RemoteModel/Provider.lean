import RemoteModel.Text.Rune

/-!
The provider behind a model of a generative search pipeline, read off the model's name.
-/

namespace RemoteModel

inductive Provider where
  | openAi
  | bedrock
  | ociGenAi
  deriving DecidableEq, Repr

namespace Provider

def name : Provider → Text
  | .openAi => "openai"
  | .bedrock => "bedrock"
  | .ociGenAi => "oci_genai"

/-- A model that names no known provider is served by the first one. -/
def ofModel (model : Option Text) : Provider :=
  match model with
  | none => .openAi
  | some m =>
      if m.startsWith "bedrock/" then .bedrock
      else if m.startsWith "oci_genai/" then .ociGenAi
      else .openAi

end Provider

end RemoteModel
