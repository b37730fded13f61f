import RemoteModel.Json.Printer
import RemoteModel.Json.Whole

/-!
Model configurations in normal form. Of the fields of a document only the known ones are kept, each
turned into the type that is expected of it.
-/

namespace RemoteModel

/-- The kinds of values that a configuration holds. -/
inductive ConfigField where
  | count
  | upperText
  | truth
  | document
  | text
  deriving DecidableEq, Repr

namespace ConfigField

def table : Entries ConfigField :=
  [("embedding_dimension", count), ("model_max_length", count), ("pooling_mode", upperText),
    ("normalize_result", truth), ("all_config", document), ("model_type", text),
    ("framework_type", text)]

def normalize (field : ConfigField) (value : Json) : Except Failure Json :=
  match field with
  | .count => value.whole.map .int
  | .upperText => .ok (.str value.shown.upper)
  | .truth => .ok (.bool (value.shown.lower = Text.ofString "true"))
  | .document =>
      match value with
      | .str t => .ok (.str t)
      | v => .ok (.str v.render)
  | .text => .ok (.str value.shown)

end ConfigField

namespace ModelConfig

def normalizeFields : Entries Json → Except Failure (Entries Json)
  | [] => .ok []
  | (name, value) :: rest =>
      match ConfigField.table.get? name with
      | none => normalizeFields rest
      | some field => do
          let value ← field.normalize value
          return (name, value) :: (← normalizeFields rest)

/-- A value that is no object is no configuration. -/
def normalize : Json → Except Failure (Option (Entries Json))
  | .obj fields => (normalizeFields fields).map some
  | _ => .ok none

end ModelConfig

end RemoteModel
