import RemoteModel.Executor
import RemoteModel.Inference.Processor

/-!
Predictions and downloads through one connector. A prediction over documents sends all that are left
with every call and goes on by as many as the call gave tensors, by one at least.
-/

namespace RemoteModel

/-- A service makes its calls with `execute`, which may change the state around it, and so may the
processor of the answers. -/
structure Service (σ : Type) where
  connector : Connector
  input : InputProcessor
  output : Text → Connector → Entries Json → σ → Except Failure (Handed σ) × σ
  execute : Call → σ → Except Failure Response × σ

namespace Service

variable {σ : Type} [HasJournal σ]

def logger : Text := "mlconnect.core.invocation"

def standard [HostEncoder] (c : Connector) : Service (Executor × Host) where
  connector := c
  input := Inference.defaultInput
  output body c parameters s := ((Inference.defaultOutput body c parameters).map .own, s)
  execute call s := s.1.call call s.2

/-- The parameters of the connector, then those of the query, then those of the input processor; a
later value wins. -/
def parameters (s : Service σ) (q : Query) : Except Failure (Entries Json) := do
  let base := s.connector.jsonParameters
  let merged := match q.dataset with
    | .docs _ => base
    | .remote parameters => base.putAll parameters
  return merged.putAll (← s.input q s.connector merged)

def callOf (c : Connector) (action : ActionType) (parameters : Entries Json) :
    Except Failure Call := do
  let payload ← c.payload action parameters
  checkPayload payload
  let endpoint ← c.endpoint action parameters
  let method ← c.method action
  return ⟨endpoint, some method, payload, action, parameters⟩

def refusalRecord (s : Service σ) (status : Int) : LogRecord :=
  ⟨.warning, logger, "Remote service returned an error",
    [("invocation", .obj [(Text.ofString "connector", s.connector.name),
      (Text.ofString "status_code", .int status)])]⟩

def bodyOf (s : Service σ) (r : Response) (st : σ) : Except Failure Text × σ :=
  match r.readText "utf-8" with
  | (.error f, _) => (.error f, st)
  | (.ok body, _) =>
      if r.isSuccess then (.ok body, st)
      else
        (.error (.remote (.int r.status) body none), HasJournal.log [s.refusalRecord r.status] st)

def invoke (s : Service σ) (q : Query) (st : σ) : Except Failure (Handed σ) × σ :=
  let prepared := do
    let parameters ← s.parameters q
    let call ← callOf s.connector .predict parameters
    return (parameters, call)
  match prepared with
  | .error f => (.error f, st)
  | .ok (parameters, call) =>
      match s.execute call st with
      | (.error f, st) => (.error f, st)
      | (.ok r, st) =>
          match s.bodyOf r st with
          | (.error f, st) => (.error f, st)
          | (.ok body, st) =>
              match s.output body s.connector parameters st with
              | (.error f, st) => (.error f, st)
              | (.ok given, st) =>
                  match given.tag r.status st with
                  | (tagged, st) => (.ok tagged, st)

def emptyRecord (s : Service σ) (processed total : Nat) : LogRecord :=
  ⟨.warning, logger, "Remote model returned no tensors, advancing by one document",
    [("connector", s.connector.name), ("processed", .int processed), ("total", .int total)]⟩

def batch (docs : List Text) : Query := ⟨.docs docs, .textEmbedding⟩

/-- Calls for the documents that are left of `total`. -/
def predictFrom (s : Service σ) (total : Nat) (docs : List Text) (st : σ) :
    Except Failure (List (Handed σ)) × σ :=
  match docs with
  | [] => (.ok [], st)
  | doc :: more =>
      match s.invoke (batch (doc :: more)) st with
      | (.error f, st) => (.error f, st)
      | (.ok given, st) =>
          let returned := (given.read st).tensors.length
          let st :=
            if returned = 0 then
              HasJournal.log [s.emptyRecord (total - (doc :: more).length) total] st
            else st
          match s.predictFrom total (more.drop (returned - 1)) st with
          | (.error f, st) => (.error f, st)
          | (.ok calls, st) => (.ok (given :: calls), st)
  termination_by docs.length
  decreasing_by simp only [List.length_drop, List.length_cons]; omega

/-- The prediction is read once all its calls are made. -/
def predict (s : Service σ) (q : Query) (st : σ) : Except Failure Prediction × σ :=
  match q.dataset with
  | .docs docs =>
      match s.predictFrom docs.length docs st with
      | (.ok calls, st) => (.ok ⟨calls.map (·.read st)⟩, st)
      | (.error f, st) => (.error f, st)
  | .remote _ =>
      match s.invoke q st with
      | (.ok given, st) => (.ok ⟨[given.read st]⟩, st)
      | (.error f, st) => (.error f, st)

def requestIdHeader : Text := "opc-request-id"

/-- Fetches what the connector offers for download. The body is left to the caller to read. -/
def download (s : Service σ) (parameters : Entries Json) (st : σ) : Except Failure Body × σ :=
  let merged := s.connector.jsonParameters.putAll parameters
  match callOf s.connector .download merged with
  | .error f => (.error f, st)
  | .ok call =>
      match s.execute call st with
      | (.error f, st) => (.error f, st)
      | (.ok r, st) =>
          if r.isSuccess then (.ok r.body, st)
          else
            match r.readText "utf-8" with
            | (.ok body, _) =>
                (.error (.remote (.int r.status) body (r.header? requestIdHeader)), st)
            | (.error f, _) => (.error f, st)

end Service

end RemoteModel
