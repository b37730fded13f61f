import RemoteModel.Json.Basic
import RemoteModel.Number.Shortest

/-!
Writing of JSON in printable ASCII on one line, with a blank after each comma and colon.
-/

namespace RemoteModel.Json

def unicodeEscape (n : Nat) : Text := .scalar '\\' :: .scalar 'u' :: Text.hex 4 n

def escapeRune (r : Rune) : Text :=
  let n := r.code
  if n = 0x22 then [.scalar '\\', .scalar '"']
  else if n = 0x5C then [.scalar '\\', .scalar '\\']
  else if n = 0x0A then [.scalar '\\', .scalar 'n']
  else if n = 0x0D then [.scalar '\\', .scalar 'r']
  else if n = 0x09 then [.scalar '\\', .scalar 't']
  else if n = 0x0C then [.scalar '\\', .scalar 'f']
  else if n = 0x08 then [.scalar '\\', .scalar 'b']
  else if 0x20 ≤ n ∧ n < 0x7F then [r]
  else if n < 0x10000 then unicodeEscape n
  else unicodeEscape (0xD800 + (n - 0x10000) / 0x400)
    ++ unicodeEscape (0xDC00 + (n - 0x10000) % 0x400)

def renderText (t : Text) : Text :=
  .scalar '"' :: (t.flatMap escapeRune ++ [.scalar '"'])

def renderFloat (x : Binary64) : Text :=
  match x.classify with
  | .nan => "NaN"
  | .infinite negative => if negative then "-Infinity" else "Infinity"
  | _ => x.text

mutual

def render : Json → Text
  | .null => "null"
  | .bool b => if b then "true" else "false"
  | .int i => Text.ofInt i
  | .float x => renderFloat x
  | .str t => renderText t
  | .arr [] => [.scalar '[', .scalar ']']
  | .arr (v :: rest) => .scalar '[' :: (render v ++ renderItems rest)
  | .obj [] => [.scalar '\x7b', .scalar '\x7d']
  | .obj ((name, v) :: rest) =>
      .scalar '\x7b' ::
        (renderText name ++ .scalar ':' :: .scalar ' ' :: (render v ++ renderFields rest))

def renderItems : List Json → Text
  | [] => [.scalar ']']
  | v :: rest => .scalar ',' :: .scalar ' ' :: (render v ++ renderItems rest)

def renderFields : List (Text × Json) → Text
  | [] => [.scalar '\x7d']
  | (name, v) :: rest =>
      .scalar ',' :: .scalar ' ' ::
        (renderText name ++ .scalar ':' :: .scalar ' ' :: (render v ++ renderFields rest))

end

end RemoteModel.Json
