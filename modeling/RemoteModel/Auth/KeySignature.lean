import RemoteModel.Calendar
import RemoteModel.Connector.Basic
import RemoteModel.Digest.Mac
import RemoteModel.Http.Request
import RemoteModel.Log.Record

/-!
Signatures with an access key, in version 4 of the scheme of AWS. A request is written in canonical
form, the digest of that form is signed with a key made of the secret, the day, the region and the
service, and the signature is put into the headers of the request. Headers that are rewritten on the
way are not signed.
-/

namespace RemoteModel

namespace KeySignature

def hopHeaders : List Text := ["connection", "accept-encoding", "user-agent", "content-length"]

def unsignedHeaders : List Text :=
  ["baggage", "connection", "expect", "keep-alive", "proxy-authenticate", "proxy-authorization",
    "te", "traceparent", "tracestate", "trailer", "transfer-encoding", "upgrade", "user-agent",
    "x-amzn-trace-id"]

def authorization : Text := "Authorization"

def date : Text := "Date"

def dateStamp : Text := "X-Amz-Date"

def securityToken : Text := "X-Amz-Security-Token"

def bodyDigest : Text := "X-Amz-Content-SHA256"

/-- The host of an address, with its port unless the scheme implies it. A host that is a number in
brackets keeps them. -/
def hostOf (url : Text) : Except Failure Text := do
  let a ← Address.parse url
  let port ← a.port
  let implied : Option Nat :=
    if a.scheme = Text.ofString "http" then some 80
    else if a.scheme = Text.ofString "https" then some 443
    else none
  let port : Text := match port with
    | some n => if some n = implied then [] else .scalar ':' :: Text.ofNat n
    | none => []
  match a.host? with
  | some host =>
      let host : Text :=
        if NumericHost.isSix (host.takeWhile (· ≠ Percent.mark)) then
          .scalar '[' :: (host ++ [.scalar ']'])
        else host
      return host ++ port
  | none => if port.isEmpty then throw .noAttribute else return "None" ++ port

/-- The segments of a path without dots and repeated slashes. -/
def normalPath (path : Text) : Text :=
  match path with
  | [] => "/"
  | first :: _ =>
      let kept := (path.splitOn (.scalar '/')).foldl (fun (out : List Text) segment =>
        if segment.isEmpty || segment = Text.ofString "." then out
        else if segment = Text.ofString ".." then out.tail
        else segment :: out) []
      let body := Text.join "/" kept.reverse
      (if first = .scalar '/' then [.scalar '/'] else []) ++ body
        ++ (if Text.endsWith path "/" && !kept.isEmpty then [.scalar '/'] else [])

def canonicalPath (path : Text) : Except Failure Text :=
  (Text.encode (normalPath path)).map
    (Percent.encode fun r => Percent.isUnreserved r || r = .scalar '/')

def pairLe (p q : Text × Text) : Bool := if p.1 = q.1 then Text.le p.2 q.2 else Text.le p.1 q.1

/-- The pairs of a query in order; they stay as they are written. -/
def canonicalQuery (query : Text) : Text :=
  match query with
  | [] => []
  | query =>
      let pairs := (query.splitOn (.scalar '&')).map (Address.cutAt (.scalar '='))
      Text.join "&" ((pairs.mergeSort pairLe).map fun p => p.1 ++ [.scalar '='] ++ p.2)

/-- The headers that are signed, under names in small letters and in order. -/
def signedHeaders (url : Text) (h : Headers) : Except Failure (Entries Text) := do
  let given : Entries Text := h.entries.filterMap fun e =>
    let name := e.1.lower
    if unsignedHeaders.contains name then none else some (name, e.2)
  let hostName : Text := "host"
  let all ← if Entries.has given hostName then pure given
    else (hostOf url).map fun host => given ++ [(hostName, host)]
  return all.mergeSort fun a b => Text.le a.1 b.1

/-- A value with its runs of blanks made one space each. -/
def canonicalValue (value : Text) : Except Failure Text :=
  if value.isWellFormed then .ok (Text.join " " value.words) else .error .noAttribute

def headerLines : Entries Text → Except Failure Text
  | [] => .ok []
  | (name, value) :: rest => do
      let value ← canonicalValue value
      return name ++ [.scalar ':'] ++ value ++ [.scalar '\n'] ++ (← headerLines rest)

def nameList (signed : Entries Text) : Text :=
  Text.join ";" ((signed.map fun e => e.1.trim).mergeSort Text.le).eraseDups

/-- The digest of the body, or what a header says it is. -/
def bodyHash (r : Request) : Text :=
  match r.headers.get? bodyDigest with
  | some given => given
  | none => Sha256.hexHash (r.body.getD [])

def canonicalRequest (r : Request) : Except Failure Text := do
  let a ← Address.parse r.url
  let path ← canonicalPath a.path
  let signed ← signedHeaders r.url r.headers
  let headers ← headerLines signed
  return Text.join "\n"
    [r.method.upper, path, canonicalQuery a.query, headers, nameList signed, bodyHash r]

/-- The scope of a signature on a day. -/
def scope (c : AwsCredentials) (day : Text) : Text :=
  Text.join "/" [day, c.region, c.serviceName, "aws4_request"]

def signingKey (c : AwsCredentials) (day : Text) : Except Failure Bytes := do
  let secret ← Text.encode ("AWS4" ++ c.secretKey)
  let ofDay := Mac.compute secret (Utf8.encodeLoose day)
  let ofRegion := Mac.compute ofDay (← Text.encode c.region)
  let ofService := Mac.compute ofRegion (← Text.encode c.serviceName)
  return Mac.compute ofService (Utf8.encodeLoose "aws4_request")

/-- The headers with those of the scheme set: the date, and the token if there is one. A request that
has a date keeps it in the notation of mail, and any other gets a stamp. -/
def dated (c : AwsCredentials) (m : Moment) (h : Headers) : Headers :=
  let h := h.erase authorization
  let h :=
    if h.has date then ((h.erase date).put date m.mailText).erase dateStamp
    else (h.erase dateStamp).put dateStamp (m.basicText)
  match c.sessionToken with
  | none | some [] => h
  | some token => (h.erase securityToken).put securityToken token

/-- What is signed of a request: it as it stands, without the headers that every hop may rewrite. -/
def prepared (c : AwsCredentials) (m : Moment) (r : Request) : Request :=
  { r with headers := dated c m (r.headers.filter fun name => !hopHeaders.contains name.lower) }

/-- The header that carries the signature. -/
def authorizationOf (c : AwsCredentials) (m : Moment) (r : Request) : Except Failure Text := do
  let day := m.dateText ""
  let canonical ← Text.encode (← canonicalRequest r)
  let signed := Text.join "\n"
    ["AWS4-HMAC-SHA256", m.basicText, scope c day, Sha256.hexHash canonical]
  let key ← signingKey c day
  let signature := Bytes.hex (Mac.compute key (← Text.encode signed))
  let names := nameList (← signedHeaders r.url r.headers)
  return "AWS4-HMAC-SHA256 Credential=" ++ c.accessKey ++ "/" ++ scope c day
    ++ ", SignedHeaders=" ++ names ++ ", Signature=" ++ signature

/-- Signs a request at an instant. Its headers are kept, but for those that the scheme sets. -/
def sign (c : AwsCredentials) (now : Int) (r : Request) : Except Failure Request := do
  let m := Moment.ofSeconds (now.fdiv 1000000)
  let copy := prepared c m r
  let signature ← authorizationOf c m copy
  return { r with
    headers := r.headers.putAll (copy.headers.put authorization signature).entries }

def description (c : AwsCredentials) : Text :=
  "AwsSigV4Signer(service_name=" ++ c.serviceName ++ ", region=" ++ c.region ++ ")"

end KeySignature

end RemoteModel
