import RemoteModel.Failure
import RemoteModel.Http.HostEncoder
import RemoteModel.Http.Numeric
import RemoteModel.Text.Blank
import RemoteModel.Text.Case
import RemoteModel.Text.Percent

/-!
The address a request is sent to. An address is brought into one form before it is used: scheme and
host in small letters, a host in ASCII, a path that is never empty, and nothing in it that may not
travel.
-/

namespace RemoteModel

/-- The parts of an address; one that is not there differs from an empty one. -/
structure Target where
  scheme : Option Text
  authority : Option Text
  path : Text
  query : Option Text
  fragment : Option Text
  deriving DecidableEq, Repr

namespace Target

def isDelimiter (r : Rune) : Bool :=
  Text.hasPart "!$&'()*+,;=" [r]

def keepsInUser (r : Rune) : Bool := Percent.isUnreserved r || isDelimiter r || r = .scalar ':'

def keepsInPath (r : Rune) : Bool := keepsInUser r || r = .scalar '@' || r = .scalar '/'

def keepsInQuery (r : Rune) : Bool := keepsInPath r || r = .scalar '?'

/-- The scheme before a colon, and what follows. -/
def cutScheme (dots : Bool) (t : Text) : Option Text × Text :=
  match t.span fun r => r.isAsciiLetter || r.isDigit || r = .scalar '+' || r = .scalar '-'
      || (dots && r = .scalar '.') with
  | (first :: more, .scalar ':' :: rest) =>
      if first.isAsciiLetter then (some (first :: more), rest) else (none, t)
  | _ => (none, t)

/-- The part before the first mark, and the part behind it if the mark is there. -/
def cutOptional (mark : Rune) (t : Text) : Text × Option Text :=
  match t.span (· ≠ mark) with
  | (before, []) => (before, none)
  | (before, _ :: after) => (before, some after)

/-- Takes an address apart. One that starts neither with a scheme nor with a slash starts with its
authority. -/
def split (t : Text) : Target :=
  let t : Text := match cutScheme false t, t with
    | (some _, _), t => t
    | _, .scalar '/' :: rest => .scalar '/' :: rest
    | _, t => .scalar '/' :: .scalar '/' :: t
  let (scheme, rest) := cutScheme true t
  let (authority, rest) : Option Text × Text := match rest with
    | .scalar '/' :: .scalar '/' :: rest =>
        let (authority, rest) := rest.span fun r =>
          r ≠ .scalar '\\' && r ≠ .scalar '/' && r ≠ .scalar '?' && r ≠ .scalar '#'
        (some authority, rest)
    | rest => (none, rest)
  let (rest, fragment) := cutOptional (.scalar '#') rest
  let (path, query) := cutOptional (.scalar '?') rest
  ⟨scheme.map Text.lowerAscii, authority, path, query, fragment⟩

/-- Writes the escapes of a text with capital digits, and counts them; `skip` runes belong to the escape
before. -/
def raiseEscapes (skip : Nat) : Text → Text × Nat
  | [] => ([], 0)
  | r :: rest =>
      match skip with
      | n + 1 =>
          let (rest, count) := raiseEscapes n rest
          ((if r.isAsciiLower then Rune.ofCode (r.code - 0x20) else r) :: rest, count)
      | 0 =>
          if (Percent.escaped? (r :: rest)).isSome then
            let (rest, count) := raiseEscapes 2 rest
            (r :: rest, count + 1)
          else
            let (rest, count) := raiseEscapes 0 rest
            (r :: rest, count)

/-- Escapes what may not travel. Escapes that are there are kept if every percent sign starts one. -/
def escapeUnsafe (keep : Rune → Bool) (t : Text) : Text :=
  let (t, count) := raiseEscapes 0 t
  let escaped := count == t.count Percent.mark
  Percent.encode (fun r => keep r || (escaped && r = Percent.mark)) (Utf8.encodeLoose t)

def withoutDots (path : Text) : Text :=
  let kept := (path.splitOn (.scalar '/')).foldl (fun (out : List Text) segment =>
    if segment = Text.ofString "." then out
    else if segment = Text.ofString ".." then out.tail
    else segment :: out) []
  let kept := kept.reverse
  let rooted := path.head? == some (.scalar '/')
    && (match kept with
      | [] => true
      | first :: _ => !first.isEmpty)
  let open' := Text.endsWith path "/." || Text.endsWith path "/.."
  Text.join "/" ((if rooted then [[]] else []) ++ kept ++ (if open' then [[]] else []))

/-- A name may hold anything but the marks of an address; a percent sign must start an escape. -/
def isHostName (skip : Nat) : Text → Bool
  | [] => true
  | r :: rest =>
      match skip with
      | n + 1 => isHostName n rest
      | 0 =>
          if r = Percent.mark then (Percent.escaped? (r :: rest)).isSome && isHostName 2 rest
          else !Text.hasPart "[]:/?#" [r] && isHostName 0 rest

/-- The port of digits, noughts before it not counted; at most five digits are read. -/
def port? (t : Text) : Option Nat :=
  let digits := t.dropWhile (· = .scalar '0')
  if t.all Rune.isDigit && digits.length ≤ 5 then
    let n := digits.foldl (fun n r => n * 10 + (r.code - 0x30)) 0
    if n ≤ 0xFFFF then some n else none
  else none

/-- A host in brackets: the number in small letters, and a zone with what may not travel escaped. -/
def bracketed? (t : Text) : Option Text :=
  match cutOptional Percent.mark t with
  | (number, none) => if NumericHost.isSix number then some number.lower else none
  | (number, some zone) =>
      let zone : Text := match zone with
        | .scalar '2' :: .scalar '5' :: r :: rest => r :: rest
        | zone => zone
      if NumericHost.isSix number && !zone.isEmpty
          && isHostName 0 zone && zone.all (fun r => Percent.isUnreserved r || r = Percent.mark) then
        some (number.lower ++ Percent.mark :: escapeUnsafe Percent.isUnreserved zone)
      else none

/-- The form of a name, with its labels in small letters; one that is not ASCII is encoded. -/
def labels? [HostEncoder] (name : Text) : Option Text :=
  if name.all Rune.isAscii then some name.lower
  else
    let encoded := (name.splitOn (.scalar '.')).mapM fun label =>
      if label.all Rune.isAscii then some label.lower else HostEncoder.label? label.lower
    encoded.map (Text.join ".")

/-- The host and the port that an authority names, the host in its form if the scheme is ordinary. -/
def hostPort? [HostEncoder] (ordinary : Bool) (t : Text) : Option (Text × Option Nat) :=
  let withPort (host rest : Text) : Option (Text × Option Nat) :=
    match rest with
    | [] => some (host, none)
    | .scalar ':' :: digits =>
        (port? digits).map fun n => (host, if n = 0 then none else some n)
    | _ => none
  match t with
  | .scalar '[' :: rest =>
      match rest.span (· ≠ .scalar ']') with
      | (inside, _ :: rest) =>
          (bracketed? inside).bind fun host =>
            withPort (.scalar '[' :: ((if ordinary then host else inside) ++ [.scalar ']'])) rest
      | _ => none
  | t =>
      let (name, rest) := t.span (· ≠ .scalar ':')
      if isHostName 0 name then
        (if ordinary then labels? name else some name).bind fun host => withPort host rest
      else none

/-- The host as it is sent: one outside ASCII is encoded, and others may not start with a star or a
dot. -/
def sentHost? [HostEncoder] (host : Text) : Option Text :=
  if !host.all Rune.isAscii then HostEncoder.name? host
  else if host.head? = some (.scalar '*') || host.head? = some (.scalar '.') then none
  else some host

/-- The user part before the last at sign, and what follows it. -/
def cutUser (t : Text) : Option Text × Text :=
  let (after, rest) := t.reverse.span (· ≠ .scalar '@')
  match rest with
  | [] => (none, t)
  | _ :: before => (if before.isEmpty then none else some before.reverse, after.reverse)

/-- Reads escapes of what may stand for itself anywhere; an escape that is none is the failure. -/
def plainEscapes (skip : Nat) : Text → Option Text
  | [] => some []
  | r :: rest =>
      match skip with
      | n + 1 => plainEscapes n rest
      | 0 =>
          if r = Percent.mark then
            match Percent.escaped? (r :: rest) with
            | some b =>
                let plain := Rune.ofCode b.toNat
                if Percent.isUnreserved plain then (plainEscapes 2 rest).map (plain :: ·)
                else (plainEscapes 0 rest).map (r :: ·)
            | none =>
                match rest with
                | a :: b :: _ =>
                    if (a.isAsciiLetter || a.isDigit) && (b.isAsciiLetter || b.isDigit) then none
                    else (plainEscapes 0 rest).map (r :: ·)
                | _ => (plainEscapes 0 rest).map (r :: ·)
          else (plainEscapes 0 rest).map (r :: ·)

def keepsInAll (r : Rune) : Bool :=
  Percent.isUnreserved r || Text.hasPart "!#$&'()*+,/:;=?@[]" [r]

def escapeAll (t : Text) : Except Failure Text :=
  match plainEscapes 0 t with
  | some plain => (Text.encode plain).map (Percent.encode fun r => keepsInAll r || r = Percent.mark)
  | none => (Text.encode t).map (Percent.encode keepsInAll)

/-- Puts an address together. Empty queries and fragments vanish. -/
def compose (scheme authority path query fragment : Text) : Text :=
  let path := if path.head? == some (.scalar '/') then path else .scalar '/' :: path
  let part (mark : Rune) (t : Text) : Text := if t.isEmpty then [] else mark :: t
  scheme ++ "://" ++ authority ++ path ++ part (.scalar '?') query ++ part (.scalar '#') fragment

/-- Schemes whose parts are brought into one form. -/
def isOrdinary (scheme : Text) : Bool :=
  scheme = Text.ofString "http" || scheme = Text.ofString "https"

/-- The form of an address that names a host. An address of a scheme of other kinds stays as it is. -/
def prepare [HostEncoder] (url : Text) : Except Failure Text :=
  let url := url.trimLeft
  if url.contains (.scalar ':') && !Text.startsWith url.lower "http" then .ok url
  else
    let t := split url
    let (user, place) := cutUser (t.authority.getD [])
    let ordinary := t.scheme.elim true isOrdinary
    let place? : Option (Text × Option Nat) := match t.authority with
      | none | some [] => some ([], none)
      | some _ => hostPort? ordinary place
    match place? with
    | none => .error (.urlUnreadable url)
    | some (host, port) =>
        match url, t.scheme, host with
        | [], _, _ | _, none, _ => .error (.schemeMissing url)
        | _, some _, [] => .error (.hostMissing url)
        | _, some scheme, first :: more =>
            match sentHost? (first :: more) with
            | none => .error .hostLabelInvalid
            | some host =>
                let form (keep : Rune → Bool) (t : Text) : Text :=
                  if ordinary then escapeUnsafe keep t else t
                let user : Text := user.elim [] fun u => form keepsInUser u ++ [.scalar '@']
                let port : Text := port.elim [] fun n => .scalar ':' :: Text.ofNat n
                escapeAll (compose scheme (user ++ host ++ port)
                  (form keepsInPath (if ordinary then withoutDots t.path else t.path))
                  (form keepsInQuery (t.query.getD [])) (form keepsInQuery (t.fragment.getD [])))

/-- Whether requests to an address can be sent at all. -/
def isServed (url : Text) : Bool :=
  let small := url.lower
  Text.startsWith small "http://" || Text.startsWith small "https://"

end Target

end RemoteModel
