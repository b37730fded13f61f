import RemoteModel.Failure

/-!
Actions: the calls a connector declares, as templates, and their documents.
-/

namespace RemoteModel

namespace ActionType

def parse (t : Text) : Except Failure ActionType :=
  match ofName? t with
  | some a => .ok a
  | none => .error (.actionTypeUnknown t)

end ActionType

namespace Json

/-- A field of an object; a field that is not there is null. -/
def field (doc : Json) (name : Text) : Except Failure Json :=
  match doc with
  | .obj fields => .ok ((Entries.get? fields name).getD .null)
  | _ => .error .noAttribute

/-- A vacant value counts as an empty object. The values turn into text, null stays null. -/
def textual (v : Json) : Except Failure (Entries (Option Text)) :=
  if v.isVacant then .ok []
  else match v with
    | .obj fields => .ok (Entries.mapValues (fun v => if v.isNull then none else some v.shown) fields)
    | _ => .error .noAttribute

/-- The object of a table of texts. -/
def ofTexts (es : Entries (Option Text)) : Json := .obj (es.mapValues ofText?)

end Json

/-- The body of a call may be any value; null stands for a call without one. -/
structure Action where
  type : ActionType
  method : Text
  url : Text
  headers : Option (Entries (Option Text))
  body : Json
  deriving DecidableEq, Repr

namespace Action

def ofJson (doc : Json) : Except Failure Action := do
  let type ← doc.field "action_type"
  if type.isNull then throw (.actionIncomplete .type)
  let method ← doc.field "method"
  if method.isVacant then throw (.actionIncomplete .method)
  let url ← doc.field "url"
  if url.isVacant then throw (.actionIncomplete .url)
  let type ← ActionType.parse type.shown
  let headers ← (← doc.field "headers").textual
  let body ← doc.field "request_body"
  return ⟨type, method.shown, url.shown, if headers.isEmpty then none else some headers, body⟩

def toJson (a : Action) : Json :=
  .obj ([(Text.ofString "action_type", .str a.type.name), (Text.ofString "method", .str a.method),
      (Text.ofString "url", .str a.url)]
    ++ (a.headers.elim [] fun hs => [(Text.ofString "headers", .ofTexts hs)])
    ++ (if a.body.isNull then [] else [(Text.ofString "request_body", a.body)]))

def agrees (a b : Action) : Bool :=
  a.type = b.type && a.method = b.method && a.url = b.url && a.headers = b.headers
    && a.body.agrees b.body

end Action

end RemoteModel
