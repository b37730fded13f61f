import RemoteModel.Archive.Directory
import RemoteModel.Artifact.Format
import RemoteModel.Files.Access

/-!
What a model archive must hold: one model file of the declared format and a tokenizer. A sparse
tokenizer needs no model file, and a metrics correlation no tokenizer.
-/

namespace RemoteModel

namespace ModelFormat

def hasFile (f : ModelFormat) (member : Bytes) : Bool :=
  (Utf8.encodeLoose f.extension).isSuffixOf member

def ofMember? (member : Bytes) : Option ModelFormat := all.find? fun f => f.hasFile member

end ModelFormat

structure MemberSurvey where
  hasModel : Bool
  hasTokenizer : Bool
  deriving DecidableEq, Repr

namespace MemberSurvey

def start : MemberSurvey := ⟨false, false⟩

def tokenizerName : Bytes := Utf8.encodeLoose "tokenizer.json"

/-- Adds one member. A model file of another format than the declared one is refused, and so is a
second model file. -/
def add (declared : Option ModelFormat) (s : MemberSurvey) (member : Bytes) :
    Except Failure MemberSurvey :=
  let hasTokenizer := s.hasTokenizer || member = tokenizerName
  match ModelFormat.ofMember? member with
  | none => .ok { s with hasTokenizer }
  | some f =>
      if declared ≠ some f then .error (.formatMismatch declared f)
      else if s.hasModel then .error .multipleModelFiles
      else .ok ⟨true, hasTokenizer⟩

def addAll (declared : Option ModelFormat) (s : MemberSurvey) :
    List Bytes → Except Failure MemberSurvey
  | [] => .ok s
  | member :: rest => do addAll declared (← s.add declared member) rest

/-- Whether all that a function needs has been found; a missing model file is reported first. -/
def check (function : Option FunctionName) (s : MemberSurvey) : Except Failure Unit :=
  if !s.hasModel && function ≠ some .sparseTokenize then .error .noModelFile
  else if !s.hasTokenizer && function ≠ some .metricsCorrelation then .error .noTokenizerFile
  else .ok ()

end MemberSurvey

namespace Archive

def checkMembers (declared : Option ModelFormat) (function : Option FunctionName)
    (members : List Bytes) : Except Failure Unit := do
  MemberSurvey.check function (← MemberSurvey.addAll declared .start members)

/-- Checks the archive of a model. A file that is no archive is reported under the model's name. -/
def verify (declared : Option ModelFormat) (function : Option FunctionName) (model : Text)
    (p : Path) (t : Tree) : Except Failure Unit := do
  match memberNames (← Files.read t p) with
  | .ok members => checkMembers declared function members
  | .error f => throw (if f = .notArchive then .modelNotArchive model f else f)

end Archive

end RemoteModel
