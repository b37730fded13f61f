import RemoteModel.Http.Body
import RemoteModel.Text.Charset

/-!
Answers: a status, headers and a body that is read once.
-/

namespace RemoteModel

structure Response where
  status : Int
  headers : Entries Text
  body : Body
  deriving Repr

namespace Response

def ofBytes (bytes : Bytes) (status : Int) (headers : Entries Text) : Response :=
  ⟨status, headers, .ofBytes bytes⟩

/-- The text of bytes in a named charset. No bytes are no text, whatever the name. -/
def decode (charset : Text) (bytes : Bytes) : Except Failure Text :=
  match bytes, Charset.ofName? charset with
  | [], _ => .ok []
  | bytes, some c => .ok (c.decode bytes)
  | _, none => .error (.unknownEncoding charset)

/-- Reads the whole body as text. The body is closed afterwards, also when it cannot be read. -/
def readText (charset : Text) (r : Response) : Except Failure Text × Response :=
  let (bytes, body) := r.body.read none
  let text := bytes.bind (decode charset)
  match body.close with
  | (.ok (), body) => (text, { r with body })
  | (.error f, body) => (.error f, { r with body })

def isSuccess (r : Response) : Bool := 200 ≤ r.status && r.status < 300

/-- The value of a header by its lower-case name: by that name itself first, then by one that differs
in case. -/
def header? (name : Text) (r : Response) : Option Text :=
  match r.headers.get? name with
  | some v => some v
  | none => (r.headers.find? fun h => h.1.lowerAscii = name).map Prod.snd

end Response

end RemoteModel
