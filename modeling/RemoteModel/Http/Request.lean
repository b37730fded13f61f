import RemoteModel.Http.Address
import RemoteModel.Http.Headers
import RemoteModel.Http.Target
import RemoteModel.Text.Base64

/-!
Requests as they are sent. A request is prepared from an address, headers and a body: the address is
brought into its form, headers that cannot travel are refused, and the length of the body is
declared.
-/

namespace RemoteModel

structure Request where
  method : Text
  url : Text
  headers : Headers
  body : Option Bytes
  deriving DecidableEq, Repr

namespace Request

def standardHeaders : Entries Text :=
  [("Accept-Encoding", "gzip, deflate"), ("Accept", "*/*"), ("Connection", "keep-alive")]

/-- Runes that satisfy a condition, but for one line break at the very end. -/
def allBeforeBreak (p : Rune → Bool) : Text → Bool
  | [] => true
  | [r] => p r || r = .scalar '\n'
  | r :: rest => p r && allBeforeBreak p rest

def isBreak (r : Rune) : Bool := r = .scalar '\r' || r = .scalar '\n'

def isSafeName : Text → Bool
  | [] => false
  | r :: rest =>
      r ≠ .scalar ':' && !r.isBlank && allBeforeBreak (fun r => r ≠ .scalar ':' && !isBreak r) rest

def isSafeValue : Text → Bool
  | [] => true
  | r :: rest =>
      (r = .scalar '\n' && rest.isEmpty) || (!r.isBlank && allBeforeBreak (fun r => !isBreak r) rest)

/-- The first header that cannot travel is named. -/
def checkHeaders : Entries Text → Except Failure Unit
  | [] => .ok ()
  | (name, value) :: rest =>
      if !isSafeName name then .error (.headerUnsafe .name name)
      else if !isSafeValue value then .error (.headerUnsafe .value value)
      else checkHeaders rest

def contentLength : Text := "Content-Length"

/-- A body that is not empty declares its length; without one, nothing is declared for a method that
never has a body, and none otherwise unless a length is declared already. -/
def declareLength (r : Request) : Request :=
  match r.body with
  | some (b :: bytes) =>
      { r with headers := r.headers.put contentLength (Text.ofNat (b :: bytes).length) }
  | _ =>
      if r.method = Text.ofString "GET" || r.headers.has contentLength then r
      else { r with headers := r.headers.put contentLength "0" }

/-- An empty body is none. -/
def prepare [HostEncoder] (method url : Text) (headers : Entries Text) (body : Option Bytes) :
    Except Failure Request := do
  let url ← Target.prepare url
  let headers := (Headers.ofEntries standardHeaders).putAll headers
  checkHeaders headers.entries
  let body := body.filter fun b => !b.isEmpty
  return declareLength ⟨method, url, headers, body⟩

/-- Bytes of one rune each, for runes up to U+00FF. -/
def encodeLatin (t : Text) : Except Failure Bytes :=
  let head := t.takeWhile fun r => r.code < 0x100
  match t.drop head.length with
  | [] => .ok (t.map fun r => r.code.toUInt8)
  | r :: rest =>
      let more := rest.takeWhile fun r => 0x100 ≤ r.code
      .error (.notLatin r head.length (head.length + 1 + more.length))

/-- Sends user and password of the address along, if it has both. -/
def withUser (r : Request) : Except Failure Request := do
  match (← Address.parse r.url).user? with
  | none => return r
  | some user =>
      match Target.cutOptional (.scalar ':') user with
      | (name, some password) =>
          let name := Percent.decode name
          let password := Percent.decode password
          if name.isEmpty && password.isEmpty then return r
          else
            let name ← encodeLatin name
            let password ← encodeLatin password
            return { r with
              headers := r.headers.put "Authorization"
                ("Basic " ++ Base64.encode (name ++ 0x3A :: password)) }
      | _ => return r

end Request

end RemoteModel
