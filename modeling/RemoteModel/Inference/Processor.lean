import RemoteModel.Artifact.Format
import RemoteModel.Connector.Basic
import RemoteModel.Inference.Tensor

/-!
What a prediction is asked for, and the processors that turn a request into parameters and the body
of an answer into tensors.
-/

namespace RemoteModel

inductive Dataset where
  | docs (docs : List Text)
  | remote (parameters : Entries Json)
  deriving DecidableEq, Repr

structure Query where
  dataset : Dataset
  function : FunctionName
  deriving DecidableEq, Repr

/-- Yields further parameters, given the connector and the parameters merged so far; none when it
fails is an error. -/
abbrev InputProcessor := Query → Connector → Entries Json → Except Failure (Entries Json)

abbrev OutputProcessor := Text → Connector → Entries Json → Except Failure Tensors

/-- Tensors that stay in a state after they were handed over. -/
structure Kept (σ : Type) where
  read : σ → Tensors
  tag : Int → σ → σ
  read_tag : ∀ status st, read (tag status st) = { read st with status := some status }

/-- The tensors that an output processor hands over: their own object each time, or one that is kept and
may be handed over or changed again. -/
inductive Handed (σ : Type) where
  | own (tensors : Tensors)
  | kept (object : Kept σ)

namespace Handed

variable {σ : Type}

def read (st : σ) : Handed σ → Tensors
  | own tensors => tensors
  | kept object => object.read st

/-- Sets the status of the tensors, in their place. -/
def tag (status : Int) (st : σ) : Handed σ → Handed σ × σ
  | own tensors => (own { tensors with status := some status }, st)
  | kept object => (kept object, object.tag status st)

end Handed

namespace Inference

def responseName : Text := "response"

/-- Documents go to the parameter `input` as a list. -/
def defaultInput : InputProcessor := fun query _ _ =>
  match query.dataset with
  | .docs docs => .ok [(Text.ofString "input", .str (Json.arr (docs.map .str)).render)]
  | .remote _ => .ok []

/-- One tensor that holds the document of the body. A value that is no object stands under the
tensor's name, an empty body counts as an empty object, and a body that is no document is kept as
text. A whole number with too many digits is an error. -/
def defaultTensor (body : Text) : Except Failure Tensor :=
  let tensor (map : Entries Json) : Tensor := ⟨responseName, some map, none, none⟩
  match body with
  | [] => .ok (tensor [])
  | _ =>
      match Json.parse body with
      | .ok (.obj fields) => .ok (tensor fields)
      | .ok value => .ok (tensor [(responseName, value)])
      | .error (.tooLong digits) => .error (.integerTooLong digits)
      | .error _ => .ok ⟨responseName, none, none, some body⟩

def defaultOutput : OutputProcessor := fun body _ _ =>
  (defaultTensor body).map fun t => ⟨[t], none⟩

end Inference

end RemoteModel
