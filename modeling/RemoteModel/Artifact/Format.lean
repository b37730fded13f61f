import RemoteModel.Text.Case

/-!
The packaging formats of model archives and the functions a model serves.
-/

namespace RemoteModel

inductive ModelFormat where
  | torchScript
  | onnx
  deriving DecidableEq, Repr, Inhabited

namespace ModelFormat

def all : List ModelFormat := [.torchScript, .onnx]

def name : ModelFormat → Text
  | .torchScript => "TORCH_SCRIPT"
  | .onnx => "ONNX"

def extension : ModelFormat → Text
  | .torchScript => ".pt"
  | .onnx => ".onnx"

/-- The case of the letters does not matter. -/
def ofName? (t : Text) : Option ModelFormat := all.find? fun f => f.name = t.upper

end ModelFormat

inductive FunctionName where
  | textEmbedding
  | sparseEncoding
  | sparseTokenize
  | metricsCorrelation
  | remote
  deriving DecidableEq, Repr, Inhabited

namespace FunctionName

def all : List FunctionName :=
  [.textEmbedding, .sparseEncoding, .sparseTokenize, .metricsCorrelation, .remote]

def name : FunctionName → Text
  | .textEmbedding => "TEXT_EMBEDDING"
  | .sparseEncoding => "SPARSE_ENCODING"
  | .sparseTokenize => "SPARSE_TOKENIZE"
  | .metricsCorrelation => "METRICS_CORRELATION"
  | .remote => "REMOTE"

def ofName? (t : Text) : Option FunctionName := all.find? fun f => f.name = t

end FunctionName

end RemoteModel
