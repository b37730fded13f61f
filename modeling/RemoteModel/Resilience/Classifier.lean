import RemoteModel.Failure
import RemoteModel.Log.Record

/-!
Which errors are worth another attempt. A classifier also tells what a log should say about an
error, and what it logs itself when it is asked.
-/

namespace RemoteModel

structure Classifier where
  isRetriable : Failure → Bool
  details : Failure → Entries Json
  notes : Failure → List LogRecord

namespace Classifier

def retriableStatuses : List Text := ["429", "500", "502", "503", "504"]

def isRetriableStatus (status : Json) : Bool := retriableStatuses.contains status.shown

/-- An exchange that failed is retried unless a circuit is open, an answer by its status. -/
def invocation : Classifier where
  isRetriable f :=
    if f.isA (.own .serviceUnavailable) then false
    else if f.isA (.own .transport) then true
    else match f with
      | .remote status .. => isRetriableStatus status
      | _ => false
  details f :=
    if f.isA (.own .transport) then [("connector", f.connector), ("endpoint", f.endpoint)]
    else match f with
      | .remote status .. => [("http_status", status)]
      | _ => []
  notes _ := []

def isConnectionTrouble (f : Failure) : Bool :=
  f.isA (.cloud .request) || f.isA (.http .connection) || f.isA (.http .timeout)

def objectStorageLogger : Text := "mlconnect.clients.object_storage"

/-- Trouble with the connection is retried, an answer of the service by its status. -/
def objectStorage : Classifier where
  isRetriable f :=
    match f with
    | .cloudRefused status .. => isRetriableStatus status
    | f => isConnectionTrouble f
  details f :=
    match f with
    | .cloudRefused status code _ requestId =>
        [("http_status", status), ("error_code", code), ("opc_request_id", requestId)]
    | _ => []
  notes f :=
    match f with
    | .cloudRefused .. => []
    | f =>
        if isConnectionTrouble f then
          [⟨.debug, objectStorageLogger, "Retriable connection error: " ++ f.kind.name, []⟩]
        else []

/-- Errors of a program are never retried. -/
def isProgramError (f : Failure) : Bool :=
  f.isA (.basic .typeError) || f.isA (.basic .attributeError) || f.isA (.basic .keyError)

/-- The classifier of a caller, or none: then every ordinary error is retried. -/
def orDefault (c : Option Classifier) : Classifier where
  isRetriable f :=
    !isProgramError f && match c with
      | some c => c.isRetriable f
      | none => f.isA (.basic .exception)
  details f := c.elim [] fun c => c.details f
  notes f := if isProgramError f then [] else c.elim [] fun c => c.notes f

end Classifier

end RemoteModel
