import RemoteModel.Text.Rune

/-!
Hosts given by number: the two written forms of addresses of the Internet protocol.
-/

namespace RemoteModel

namespace NumericHost

def isFour (t : Text) : Bool :=
  let groups := t.splitOn (.scalar '.')
  groups.length == 4 && groups.all fun g => !g.isEmpty && g.length ≤ 3 && g.all Rune.isDigit

def isGroup (t : Text) : Bool :=
  !t.isEmpty && t.length ≤ 4 && t.all fun r => r.hexValue?.isSome

/-- How many groups a run between double colons has; its last part may also satisfy a given
condition, and counts as two then. -/
def groups? (four : Text → Bool) (t : Text) : Option Nat :=
  match t with
  | [] => some 0
  | t =>
      let parts := t.splitOn (.scalar ':')
      if parts.all isGroup then some parts.length
      else if parts.dropLast.all isGroup && (parts.getLast?.elim false four) then
        some (parts.length + 1)
      else none

/-- The parts before and after the first double colon. -/
def cutDouble : Text → Option (Text × Text)
  | [] => none
  | r :: rest =>
      match r, rest with
      | .scalar ':', .scalar ':' :: after => some ([], after)
      | r, rest => (cutDouble rest).map fun (before, after) => (r :: before, after)

/-- Eight groups, or fewer with a double colon for those left out. The condition says what may stand
for the last two. -/
def isSixWith (four : Text → Bool) (t : Text) : Bool :=
  match cutDouble t with
  | none => groups? four t == some 8
  | some (before, after) =>
      match groups? (fun _ => false) before, groups? four after with
      | some m, some n => m + n ≤ 7
      | _, _ => false

def isSix (t : Text) : Bool := isSixWith isFour t

/-- A number up to 255 without noughts before it. -/
def isOctet (t : Text) : Bool :=
  match t with
  | [] => false
  | [r] => r.isDigit
  | first :: _ =>
      first ≠ .scalar '0' && t.length ≤ 3 && t.all Rune.isDigit
        && t.foldl (fun n r => n * 10 + (r.code - 0x30)) 0 ≤ 255

def isOctets (t : Text) : Bool :=
  let groups := t.splitOn (.scalar '.')
  groups.length == 4 && groups.all isOctet

def isAssignableSix (t : Text) : Bool :=
  match t.span (· ≠ .scalar '%') with
  | (groups, []) => isSixWith isOctets groups
  | (groups, _ :: zone) =>
      isSixWith isOctets groups && !zone.isEmpty && !zone.contains (.scalar '%')

/-- The form that is kept for later: a version in hexadecimal digits, a point, and some text. -/
def isFuture (t : Text) : Bool :=
  match t with
  | .scalar 'v' :: rest =>
      match rest.span fun r => r.hexValue?.isSome with
      | (_ :: _, .scalar '.' :: _ :: _) => true
      | _ => false
  | _ => false

end NumericHost

end RemoteModel
