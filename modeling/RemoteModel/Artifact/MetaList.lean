import RemoteModel.Artifact.Registration

/-!
The list of prebuilt models. An entry names a model, its versions and its formats; the formats are
listed in lower case.
-/

namespace RemoteModel

namespace MetaList

/-- Whether a text is among the values of a field. A field that is vacant holds nothing, a list holds
its items, an object its names, and a text every text that is a part of it. -/
def listed (field : Json) (value : Option Text) : Except Failure Bool :=
  if field.isVacant then .ok false
  else match field with
    | .str t =>
        match value with
        | some v => .ok (t.hasPart v)
        | none => .error .wrongType
    | .arr items => .ok (items.contains (.ofText? value))
    | .obj fields => .ok (value.elim false fun v => Entries.has fields v)
    | _ => .error .wrongType

def entryAllows (r : Registration) (entry : Json) : Except Failure Bool := do
  if (← entry.field "name") = .str r.name then
    if ← listed (← entry.field "version") (some r.version.lower) then
      listed (← entry.field "format") (r.format.map fun f => f.name.lower)
    else return false
  else return false

/-- Whether some entry allows a model; entries after the first that does are not looked at. -/
def allows (r : Registration) : List Json → Except Failure Bool
  | [] => .ok false
  | entry :: rest => do
      if ← entryAllows r entry then return true
      allows r rest

end MetaList

end RemoteModel
