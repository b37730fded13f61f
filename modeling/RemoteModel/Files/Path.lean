import RemoteModel.Text.Rune

/-!
Paths: an anchor and the names below it. A name is neither empty nor a single dot; two dots stay as
they are.
-/

namespace RemoteModel

/-- Where a path starts. Exactly two slashes are an anchor of their own. -/
inductive Anchor where
  | here
  | root
  | twin
  deriving DecidableEq, Repr, Inhabited

namespace Anchor

def text : Anchor → Text
  | .here => []
  | .root => "/"
  | .twin => "//"

end Anchor

structure Path where
  anchor : Anchor
  parts : List Text
  deriving DecidableEq, Repr, Inhabited

namespace Path

def isName (part : Text) : Bool := part ≠ [] && part ≠ Text.ofString "."

def anchorOf : Text → Anchor
  | .scalar '/' :: .scalar '/' :: .scalar '/' :: _ => .root
  | .scalar '/' :: .scalar '/' :: _ => .twin
  | .scalar '/' :: _ => .root
  | _ => .here

def ofText (t : Text) : Path := ⟨anchorOf t, (t.splitOn (.scalar '/')).filter isName⟩

/-- A path below another one; one that is anchored stands alone. -/
def join (p q : Path) : Path :=
  match q.anchor with
  | .here => ⟨p.anchor, p.parts ++ q.parts⟩
  | _ => q

def child (p : Path) (t : Text) : Path := p.join (ofText t)

/-- The path without its last name; a path without names is its own parent. -/
def parent (p : Path) : Path := ⟨p.anchor, p.parts.dropLast⟩

/-- A path without anchor and names is written as a dot. -/
def text (p : Path) : Text :=
  match p.anchor, p.parts with
  | .here, [] => "."
  | anchor, parts => anchor.text ++ Text.join "/" parts

end Path

end RemoteModel
