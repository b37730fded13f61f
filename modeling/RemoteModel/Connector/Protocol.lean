import RemoteModel.Text.Case

/-!
The protocols a connector may speak and the kinds of calls it declares.
-/

namespace RemoteModel

inductive Protocol where
  | http
  | awsSigV4
  | ociSigV1
  | ociGenAi
  deriving DecidableEq, Repr, Inhabited

namespace Protocol

def all : List Protocol := [.http, .awsSigV4, .ociSigV1, .ociGenAi]

def name : Protocol → Text
  | .http => "http"
  | .awsSigV4 => "aws_sigv4"
  | .ociSigV1 => "oci_sigv1"
  | .ociGenAi => "oci_genai"

def ofName? (t : Text) : Option Protocol := all.find? fun p => p.name = t

def isOci : Protocol → Bool
  | .ociSigV1 | .ociGenAi => true
  | _ => false

end Protocol

inductive ActionType where
  | predict
  | download
  deriving DecidableEq, Repr, Inhabited

namespace ActionType

def name : ActionType → Text
  | .predict => "PREDICT"
  | .download => "DOWNLOAD"

def ofName? (t : Text) : Option ActionType :=
  [ActionType.predict, .download].find? fun a => a.name = t.upper

end ActionType

end RemoteModel
