import RemoteModel.Failure
import RemoteModel.Http.Numeric

/-!
Addresses: the parts of a URL. Nearly every text has parts; refused is only an authority whose
brackets do not match or hold no number of a host, or in which a character passes for a mark. A part
that is not there is empty.
-/

namespace RemoteModel

structure Address where
  scheme : Text
  authority : Text
  path : Text
  query : Text
  fragment : Text
  deriving DecidableEq, Repr

namespace Address

def isSchemeRune (r : Rune) : Bool :=
  r.isAsciiLetter || r.isDigit || r = .scalar '+' || r = .scalar '-' || r = .scalar '.'

/-- The scheme before the first colon, with small letters, and what follows. -/
def cutScheme (t : Text) : Text × Text :=
  match t.span isSchemeRune with
  | (first :: more, .scalar ':' :: rest) =>
      if first.isAsciiLetter then (Text.lowerAscii (first :: more), rest) else ([], t)
  | _ => ([], t)

/-- The authority behind two slashes, and what follows. -/
def cutAuthority (t : Text) : Text × Text :=
  match t with
  | .scalar '/' :: .scalar '/' :: rest =>
      Text.cut (fun r => r = .scalar '/' || r = .scalar '?' || r = .scalar '#') rest
  | _ => ([], t)

/-- The part before the first mark, and the part behind it. -/
def cutAt (mark : Rune) (t : Text) : Text × Text :=
  let (before, rest) := t.cut (· = mark)
  (before, rest.drop 1)

/-- Blanks and control characters before an address and line breaks and tabs inside do not count. -/
def cleaned (t : Text) : Text :=
  (t.dropWhile fun r => r.code ≤ 0x20).filter fun r =>
    r ≠ .scalar '\t' && r ≠ .scalar '\r' && r ≠ .scalar '\n'

/-- What is wrong with the text between brackets, if anything is. -/
def bracketFault? (host : Text) : Option AddressFault :=
  if host.head? == some (.scalar 'v') then
    if NumericHost.isFuture host then none else some .futureForm
  else if NumericHost.isOctets host then some .fourInBrackets
  else if NumericHost.isAssignableSix host then none
  else some (.notNumeric host)

/-- Characters that turn into a slash, a question mark, a hash, an at sign or a colon when they are
replaced by plain ones. -/
def disguises : Text := "⁇⁈⁉℀℁℅℆⩴︓︖﹕﹖﹟﹫＃／：？＠"

/-- What is wrong with an authority, if anything is. -/
def authorityFault? (authority : Text) : Option AddressFault :=
  let opens := authority.contains (.scalar '[')
  let closes := authority.contains (.scalar ']')
  if opens != closes then some .brackets
  else
    let bracket := if opens then
      bracketFault? (cutAt (.scalar ']') (cutAt (.scalar '[') authority).2).1 else none
    match bracket with
    | some fault => some fault
    | none => if authority.any disguises.contains then some (.disguised authority) else none

def parse (t : Text) : Except Failure Address :=
  let (scheme, rest) := cutScheme (cleaned t)
  let (authority, rest) := cutAuthority rest
  match authorityFault? authority with
  | some fault => .error (.badAddress fault)
  | none =>
      let (rest, fragment) := cutAt (.scalar '#') rest
      let (path, query) := cutAt (.scalar '?') rest
      .ok ⟨scheme, authority, path, query, fragment⟩

/-- What precedes the last mark, if there is one, and what follows it. -/
def cutLast (mark : Rune) (t : Text) : Option Text × Text :=
  let (after, rest) := Text.cut (· = mark) t.reverse
  match rest with
  | [] => (none, t)
  | _ :: before => (some before.reverse, after.reverse)

def user? (a : Address) : Option Text := (cutLast (.scalar '@') a.authority).1

/-- Host and port as they are written. A host in brackets may hold colons. -/
def hostAndPort (a : Address) : Text × Text :=
  let place := (cutLast (.scalar '@') a.authority).2
  match place.cut (· = .scalar '[') with
  | (_, _ :: bracketed) =>
      let (host, rest) := cutAt (.scalar ']') bracketed
      (host, (cutAt (.scalar ':') rest).2)
  | _ => cutAt (.scalar ':') place

/-- The host with small letters, a zone behind a percent sign as it is. -/
def host? (a : Address) : Option Text :=
  match a.hostAndPort.1 with
  | [] => none
  | host =>
      let (name, zone) := Text.cut (· = .scalar '%') host
      some (name.lower ++ zone)

def port (a : Address) : Except Failure (Option Nat) :=
  match a.hostAndPort.2 with
  | [] => .ok none
  | digits =>
      if digits.all Rune.isDigit then
        let n := digits.foldl (fun n r => n * 10 + (r.code - 0x30)) 0
        if n ≤ 0xFFFF then .ok (some n) else .error .portTooLarge
      else .error (.portNotNumber digits)

end Address

end RemoteModel
