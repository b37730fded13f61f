import RemoteModel.Json.Printer

/-!
Results of a model. A call yields tensors and the status it was answered with; a prediction yields
the tensors of its calls in order.
-/

namespace RemoteModel

/-- A value that is absent is left out of the document. -/
structure Tensor where
  name : Text
  map : Option (Entries Json)
  data : Option (List Json)
  result : Option Text
  deriving DecidableEq, Repr

namespace Tensor

def toJson (t : Tensor) : Json :=
  .obj ([(Text.ofString "name", .str t.name)]
    ++ t.map.elim [] (fun m => [(Text.ofString "dataAsMap", .obj m)])
    ++ t.data.elim [] (fun d => [(Text.ofString "data", .arr d)])
    ++ t.result.elim [] fun r => [(Text.ofString "result", .str r)])

end Tensor

structure Tensors where
  tensors : List Tensor
  status : Option Int
  deriving DecidableEq, Repr

namespace Tensors

def toJson (t : Tensors) : Json :=
  .obj ([(Text.ofString "output", .arr (t.tensors.map Tensor.toJson))]
    ++ t.status.elim [] fun s => [(Text.ofString "status_code", .int s)])

end Tensors

structure Prediction where
  calls : List Tensors
  deriving DecidableEq, Repr

namespace Prediction

def toJson (p : Prediction) : Json :=
  .obj [(Text.ofString "inference_results", .arr (p.calls.map Tensors.toJson))]

end Prediction

end RemoteModel
