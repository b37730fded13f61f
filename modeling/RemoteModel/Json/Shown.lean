import RemoteModel.Json.Basic
import RemoteModel.Number.Shortest
import RemoteModel.Text.Quoted

/-!
Values as they read inside messages and templates: a text stands for itself, and inside a
container it is quoted.
-/

namespace RemoteModel.Json

mutual

def literal : Json → Text
  | .null => "None"
  | .bool b => if b then "True" else "False"
  | .int i => Text.ofInt i
  | .float x => x.text
  | .str t => t.quoted
  | .arr items => .scalar '[' :: (Text.join ", " (literalItems items) ++ [.scalar ']'])
  | .obj fields => .scalar '\x7b' :: (Text.join ", " (literalFields fields) ++ [.scalar '\x7d'])

def literalItems : List Json → List Text
  | [] => []
  | v :: rest => literal v :: literalItems rest

def literalFields : List (Text × Json) → List Text
  | [] => []
  | (name, v) :: rest => (name.quoted ++ ": " ++ literal v) :: literalFields rest

end

def shown : Json → Text
  | .str t => t
  | v => literal v

end RemoteModel.Json
