import RemoteModel.Auth.KeySignature
import RemoteModel.Auth.LazySigner
import RemoteModel.Number.Places
import RemoteModel.Resilience.Breaker
import RemoteModel.Settings

/-!
Executors: they make the calls of one connector. A call is checked before anything else, then it is
prepared, signed and sent under a circuit breaker, which counts the exchanges that fail. An executor
gives its session at most one request for a call, and neither of them repeats it.
-/

namespace RemoteModel

inductive ExecutorKind where
  | http
  | aws
  | oci
  deriving DecidableEq, Repr, Inhabited

namespace ExecutorKind

def all : List ExecutorKind := [.http, .aws, .oci]

def name : ExecutorKind → Text
  | .http => "HttpConnectorExecutor"
  | .aws => "AwsConnectorExecutor"
  | .oci => "OciConnectorExecutor"

def protocols : ExecutorKind → List Protocol
  | .http => [.http]
  | .aws => [.awsSigV4]
  | .oci => [.ociGenAi, .ociSigV1]

def logger : ExecutorKind → Text
  | .http => "mlconnect.executors.http"
  | .aws => "mlconnect.executors.aws"
  | .oci => "mlconnect.executors.oci"

def ofProtocol : Protocol → ExecutorKind
  | .http => .http
  | .awsSigV4 => .aws
  | .ociSigV1 | .ociGenAi => .oci

end ExecutorKind

inductive RequestAuth where
  | unsigned
  | key (credentials : AwsCredentials)
  | lazy (signer : LazySigner)
  deriving DecidableEq, Repr

namespace RequestAuth

/-- Signs a request. Without a signer the user that an address names is sent along. -/
def sign (a : RequestAuth) (r : Request) (h : Host) :
    Except Failure Request × RequestAuth × Host :=
  match a with
  | .unsigned => (r.withUser, a, h)
  | .key c => (KeySignature.sign c h.journal.now r, a, h)
  | .lazy s =>
      match s.sign r h with
      | (result, s, h) => (result, .lazy s, h)

end RequestAuth

structure Call where
  endpoint : Text
  method : Option Text
  payload : Option Text
  action : ActionType
  parameters : Entries Json
  deriving DecidableEq, Repr

structure Draft where
  endpoint : Text
  method : Text
  headers : Entries Text
  body : Option Bytes
  streamed : Bool
  deriving DecidableEq, Repr

structure Executor where
  kind : ExecutorKind
  connector : Connector
  settings : HttpSettings
  decrypt : Option Decryptor
  breaker : Breaker
  auth : RequestAuth

namespace Executor

variable [HostEncoder]

def authFor (kind : ExecutorKind) (c : Connector) (decrypt : Option Decryptor) (h : Host) :
    Except Failure RequestAuth × Host :=
  match kind with
  | .http => (.ok .unsigned, h)
  | .aws => ((c.awsCredentials (decrypt.getD .ok)).map .key, h)
  | .oci =>
      match c.authDescriptor decrypt with
      | .error f => (.error f, h)
      | .ok d =>
          match LazySigner.build d h with
          | (signer, h) => (signer.map .lazy, h)

def breakerName (c : Connector) : Text := "connector:" ++ c.name.shown

def create (kind : ExecutorKind) (c : Connector) (settings : HttpSettings)
    (decrypt : Option Decryptor) (h : Host) : Except Failure Executor × Host :=
  if !kind.protocols.contains c.protocol then
    (.error (.protocolMismatch kind.name kind.protocols c.protocol.name), h)
  else
    match authFor kind c decrypt h with
    | (.error f, h) => (.error f, h)
    | (.ok auth, h) =>
        (.ok {
          kind, settings, decrypt, auth
          connector := c
          breaker := .create (breakerName c) settings.breakerThreshold
            settings.breakerTimeout }, h)

def ofConnector (c : Connector) (settings : HttpSettings) (decrypt : Option Decryptor) (h : Host) :
    Except Failure Executor × Host :=
  create (.ofProtocol c.protocol) c settings decrypt h

def methodOf (method : Option Text) : Except Failure Text :=
  let name := (method.getD []).upper
  if name = Text.ofString "GET" || name = Text.ofString "POST" then .ok name
  else .error (.methodUnsupported (Json.ofText? method).shown)

/-- The body of a call: the payload is required where a body is sent, and ignored otherwise. -/
def bodyOf (method : Text) (payload : Option Text) : Except Failure (Option Bytes) :=
  if method = Text.ofString "POST" then
    match payload with
    | none => .error .payloadMissing
    | some payload => (Text.encode payload).map some
  else .ok none

def contentType : Text := "Content-Type"

/-- The headers with a content type, unless they have one. -/
def withContentType (headers : Entries Text) : Entries Text :=
  if headers.any fun e => e.1.lower = contentType.lower then headers
  else headers.put contentType "application/json"

def draft (e : Executor) (c : Call) : Except Failure Draft := do
  let method ← methodOf c.method
  let body ← bodyOf method c.payload
  let headers ← e.connector.headers c.action (e.decrypt.getD .ok) c.parameters
  return ⟨c.endpoint, method, withContentType headers, body, c.action = .download⟩

def invocation (e : Executor) (d : Draft) : Entries Json :=
  [("connector", e.connector.name), ("protocol", .str e.connector.protocol.name),
    ("endpoint", .str d.endpoint), ("method", .str d.method)]

def failureRecord (e : Executor) (d : Draft) (f : Failure) : LogRecord :=
  ⟨.warning, e.kind.logger, "Remote call failed before a response was received",
    [("invocation", .obj (e.invocation d)), ("error_type", .str f.kind.name)]⟩

def successRecord (e : Executor) (d : Draft) (status : Int) (elapsed : Int) : LogRecord :=
  let since := Binary64.roundRat 4 (elapsed / 1000000)
  let answer : Entries Json := [("status_code", .int status), ("since", .ofRat since)]
  ⟨.info, e.kind.logger, "Remote call completed",
    [("invocation", .obj (e.invocation d ++ answer))]⟩

def responseOf (e : Executor) (d : Draft) (a : Answer) : Response :=
  ⟨a.status, a.headers,
    if d.streamed then .streamed ⟨a.body, e.connector.name, .str d.endpoint, false⟩
    else .ofBytes a.body.rest⟩

/-- The session of an executor, which repeats nothing. -/
def session (e : Executor) : Session :=
  .create e.settings.poolConnections e.settings.poolSize 0 1 none none

/-- Sends a request that has been signed. An exchange that fails is an error of the call. -/
def transmit (e : Executor) (d : Draft) (r : Request) (h : Host) :
    Except Failure Response × Host :=
  let start := h.journal.now
  match h.exchange e.session r d.streamed e.settings.connectTimeout e.settings.readTimeout with
  | (.ok a, h) =>
      (.ok (e.responseOf d a),
        HasJournal.log [e.successRecord d a.status (h.journal.now - start)] h)
  | (.error f, h) =>
      if f.isA (.http .request) then
        (.error (.callFailed e.connector.name d.endpoint f),
          HasJournal.log [e.failureRecord d f] h)
      else (.error f, h)

def attempt (e : Executor) (d : Draft) (s : RequestAuth × Host) :
    Except Failure Response × RequestAuth × Host :=
  match Request.prepare d.method d.endpoint d.headers d.body with
  | .error f => (.error f, s)
  | .ok r =>
      match s.1.sign r s.2 with
      | (.error f, auth, h) => (.error f, auth, h)
      | (.ok r, auth, h) =>
          match e.transmit d r h with
          | (result, h) => (result, auth, h)

/-- Only exchanges that failed count for the breaker. -/
def counts (f : Failure) : Bool := f.isA (.own .transport)

def call (e : Executor) (c : Call) (h : Host) : Except Failure Response × Executor × Host :=
  match e.draft c with
  | .error f => (.error f, e, h)
  | .ok d =>
      match e.breaker.run (.own .serviceUnavailable) e.breaker.name counts (fun _ => [])
          (e.attempt d) (e.auth, h) with
      | (result, breaker, auth, h) => (result, { e with breaker, auth }, h)

end Executor

end RemoteModel
