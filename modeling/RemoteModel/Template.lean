import RemoteModel.Failure

/-!
Templates: text with holes for parameters and for credential values. Filling is one pass over the
template, so what is filled in is never looked at again.
-/

namespace RemoteModel

namespace Template

inductive Scope where
  | parameters
  | credential
  deriving DecidableEq, Repr

def Scope.name : Scope → Text
  | .parameters => "parameters"
  | .credential => "credential"

/-- A rune that stands for itself, or a hole. -/
inductive Piece where
  | rune (r : Rune)
  | hole (scope : Scope) (name : Text)
  deriving DecidableEq, Repr

def isNameRune (r : Rune) : Bool :=
  r.isAsciiLetter || r.isDigit || r = .scalar '_' || r = .scalar '.' || r = .scalar '-'

def spelling (scope : Scope) (name : Text) : Text :=
  .scalar '$' :: .scalar '\x7b' :: (scope.name ++ .scalar '.' :: (name ++ [.scalar '\x7d']))

def label (scope : Scope) (name : Text) : Text := scope.name ++ .scalar '.' :: name

/-- The name of a hole whose opening has been read. -/
def closing? (t : Text) : Option Text :=
  match t.span isNameRune with
  | (r :: name, .scalar '\x7d' :: _) => some (r :: name)
  | _ => none

def holeOf? (scope : Scope) (t : Text) : Option Text :=
  let opening : Text := .scalar '$' :: .scalar '\x7b' :: (scope.name ++ [.scalar '.'])
  if opening.isPrefixOf t then closing? (t.drop opening.length) else none

/-- The hole at the start of a text. -/
def hole? (t : Text) : Option (Scope × Text) :=
  match t with
  | .scalar '$' :: _ =>
      match holeOf? .parameters t with
      | some name => some (.parameters, name)
      | none => (holeOf? .credential t).map fun name => (.credential, name)
  | _ => none

/-- The pieces of a text after the ones read before, which `acc` holds in reverse order; `skip` runes
belong to a hole read before. -/
def piecesOnto (acc : List Piece) (skip : Nat) : Text → List Piece
  | [] => acc.reverse
  | r :: rest =>
      match skip with
      | k + 1 => piecesOnto acc k rest
      | 0 =>
          match hole? (r :: rest) with
          | some (scope, name) =>
              piecesOnto (.hole scope name :: acc) ((spelling scope name).length - 1) rest
          | none => piecesOnto (.rune r :: acc) 0 rest

def pieces (template : Text) : List Piece := piecesOnto [] 0 template

def placeholders (template : Text) : List Text :=
  (pieces template).filterMap fun
    | .rune _ => none
    | .hole scope name => some (label scope name)

abbrev Values := Text → Option Text

namespace Values

def none : Values := fun _ => Option.none

/-- A null value fills nothing. -/
def ofEntries (es : Entries Json) : Values := fun name =>
  match es.get? name with
  | .none | some .null => Option.none
  | some v => some v.shown

def ofTexts (es : Entries (Option Text)) : Values := fun name => (es.get? name).join

end Values

structure Filling where
  parameters : Values
  credential : Values

def Filling.get (f : Filling) : Scope → Values
  | .parameters => f.parameters
  | .credential => f.credential

def openHoles (f : Filling) (template : Text) : List Text :=
  (pieces template).filterMap fun
    | .rune _ => Option.none
    | .hole scope name => if (f.get scope name).isNone then some (label scope name) else Option.none

def Piece.fill (f : Filling) : Piece → Text
  | .rune r => [r]
  | .hole scope name => (f.get scope name).getD (spelling scope name)

/-- The template with every hole filled, or the holes that stay open; `item` says in an error what
was to be filled. -/
def render (item : Text) (f : Filling) (template : Text) : Except Failure Text :=
  match openHoles f template with
  | [] => .ok ((pieces template).flatMap (Piece.fill f))
  | hole :: more => .error (.unfilled item (hole :: more))

end Template

end RemoteModel
