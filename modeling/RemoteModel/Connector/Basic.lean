import RemoteModel.Auth.Descriptor
import RemoteModel.Connector.Action
import RemoteModel.Json.Printer
import RemoteModel.Template

/-!
Connectors: descriptions of remote endpoints, their documents, and what they yield for a call.
A connector that loads holds all that its protocol needs later for signing.
-/

namespace RemoteModel

namespace Protocol

def ofJson (v : Json) : Except Failure Protocol :=
  match v with
  | .null => .error .protocolMissing
  | .str t =>
      match ofName? t with
      | some p => .ok p
      | none => .error .protocolUnknown
  | _ => .error .protocolUnknown

end Protocol

/-- The values that no rule of the connector looks into are kept as the document gave them. -/
structure Connector where
  name : Json
  protocol : Protocol
  description : Json
  version : Json
  parameters : Entries (Option Text)
  credential : Entries (Option Text)
  actions : List Action
  backendRoles : List Json
  accessMode : Json
  owner : Json
  auth : Option AuthDescriptor
  deriving DecidableEq, Repr

abbrev Decryptor := Text → Except Failure Text

structure AwsCredentials where
  accessKey : Text
  secretKey : Text
  serviceName : Text
  region : Text
  sessionToken : Option Text
  deriving DecidableEq, Repr

/-- The items of a value that can be gone through; a text yields its runes and an object its names. -/
def Json.items? : Json → Option (List Json)
  | .arr items => some items
  | .str t => some (t.map fun r => .str [r])
  | .obj fields => some (fields.map fun f => .str f.1)
  | _ => none

namespace Connector

def jsonParameters (c : Connector) : Entries Json := c.parameters.mapValues Json.ofText?

def jsonCredential (c : Connector) : Entries Json := c.credential.mapValues Json.ofText?

def holds (es : Entries (Option Text)) (name : Text) : Bool :=
  match (es.get? name).join with
  | none | some [] => false
  | some _ => true

def checkSigning (parameters credential : Entries (Option Text)) : Except Failure Unit :=
  if !holds credential "access_key" then .error (.signingFieldMissing .accessKey)
  else if !holds credential "secret_key" then .error (.signingFieldMissing .secretKey)
  else if !holds parameters "service_name" then .error (.signingFieldMissing .serviceName)
  else if !holds parameters "region" then .error (.signingFieldMissing .region)
  else .ok ()

/-- What a protocol demands of the tables, and the descriptor it yields. -/
def authorize (protocol : Protocol) (parameters credential : Entries (Option Text)) :
    Except Failure (Option AuthDescriptor) :=
  match protocol with
  | .http => .ok none
  | .awsSigV4 => (checkSigning parameters credential).map fun _ => none
  | .ociSigV1 | .ociGenAi =>
      (AuthDescriptor.ofSettings (some (resolveSettings (parameters.mapValues Json.ofText?)
        (credential.mapValues Json.ofText?)))).map some

/-- A vacant value counts as an empty list. -/
def itemsOf (v : Json) : Except Failure (List Json) :=
  if v.isVacant then .ok []
  else match v.items? with
    | some items => .ok items
    | none => .error .wrongType

def ofJson (doc : Json) : Except Failure Connector := do
  let name ← doc.field "name"
  if name.isVacant then throw .connectorUnnamed
  let actions ← (← itemsOf (← doc.field "actions")).mapM Action.ofJson
  let protocol ← Protocol.ofJson (← doc.field "protocol")
  let parameters ← (← doc.field "parameters").textual
  let credential ← (← doc.field "credential").textual
  let roles ← itemsOf (← doc.field "backend_roles")
  let auth ← authorize protocol parameters credential
  return {
    name, protocol, parameters, credential, actions, auth
    description := ← doc.field "description"
    version := ← doc.field "version"
    backendRoles := roles
    accessMode := ← doc.field "access_mode"
    owner := ← doc.field "owner" }

def parse (t : Text) : Except Failure Connector :=
  match Json.parse t with
  | .ok doc => ofJson doc
  | .error (.tooLong digits) => .error (.integerTooLong digits)
  | .error e => .error (.documentNotJson e)

/-- A field that is left out of the document when it is null. -/
def optional (name : String) (v : Json) : Entries Json :=
  if v.isNull then [] else [(Text.ofString name, v)]

def toJson (c : Connector) : Json :=
  .obj ([(Text.ofString "name", c.name), (Text.ofString "protocol", .str c.protocol.name)]
    ++ optional "description" c.description
    ++ optional "version" c.version
    ++ [(Text.ofString "parameters", .ofTexts c.parameters),
      (Text.ofString "credential", .ofTexts c.credential),
      (Text.ofString "actions", .arr (c.actions.map Action.toJson))]
    ++ (if c.backendRoles.isEmpty then [] else [(Text.ofString "backend_roles", .arr c.backendRoles)])
    ++ optional "access_mode" c.accessMode
    ++ optional "owner" c.owner)

def render (c : Connector) : Text := c.toJson.render

def clone (c : Connector) : Except Failure Connector := parse c.render

/-- Two connectors with the same values; the descriptor follows from the others. -/
def agrees (a b : Connector) : Bool :=
  a.name.agrees b.name && a.protocol = b.protocol && a.description.agrees b.description
    && a.version.agrees b.version && a.parameters = b.parameters && a.credential = b.credential
    && a.actions.length == b.actions.length
    && (a.actions.zip b.actions).all (fun (x, y) => x.agrees y)
    && Json.agreeItems a.backendRoles b.backendRoles && a.accessMode.agrees b.accessMode
    && a.owner.agrees b.owner

def findAction (c : Connector) (type : ActionType) : Option Action :=
  c.actions.find? fun a => a.type = type

def action (c : Connector) (type : ActionType) : Except Failure Action :=
  match c.findAction type with
  | some a => .ok a
  | none => .error (.actionNotFound type c.name)

def fill (item : Text) (parameters : Entries Json) (template : Text) : Except Failure Text :=
  Template.render item ⟨.ofEntries parameters, .none⟩ template

def endpoint (c : Connector) (type : ActionType) (parameters : Entries Json) :
    Except Failure Text := do
  fill "endpoint" parameters (← c.action type).url

def method (c : Connector) (type : ActionType) : Except Failure Text := do
  return (← c.action type).method

/-- The body of a call, or none if the action declares none. A body that is no text cannot be
filled. -/
def payload (c : Connector) (type : ActionType) (parameters : Entries Json) :
    Except Failure (Option Text) := do
  match (← c.action type).body with
  | .null => return none
  | .str template => return some (← fill "payload" parameters template)
  | _ => throw .wrongType

/-- The stored values that are not null, in plain form. -/
def decryptAll (decrypt : Decryptor) : Entries (Option Text) → Except Failure (Entries Text)
  | [] => .ok []
  | (_, none) :: rest => decryptAll decrypt rest
  | (name, some value) :: rest => do
      let plain ← decrypt value
      return (name, plain) :: (← decryptAll decrypt rest)

def plainCredential (c : Connector) (decrypt : Decryptor) : Except Failure (Entries Text) :=
  decryptAll decrypt c.credential

/-- The headers of a call. Plain values occur in them and nowhere else. -/
def headers (c : Connector) (type : ActionType) (decrypt : Decryptor) (parameters : Entries Json) :
    Except Failure (Entries Text) := do
  match (← c.action type).headers with
  | none | some [] => return []
  | some hs =>
      let plain ← c.plainCredential decrypt
      let filling : Template.Filling :=
        ⟨.ofEntries parameters, .ofTexts (plain.mapValues some)⟩
      hs.mapM fun (name, value) =>
        match value with
        | none => .error .wrongType
        | some template => (Template.render ("header " ++ name) filling template).map (name, ·)

/-- The auth descriptor with the credential values decrypted; without a decryptor it is the one the
connector was loaded with. -/
def authDescriptor (c : Connector) (decrypt : Option Decryptor) : Except Failure AuthDescriptor :=
  match c.auth, decrypt with
  | none, _ => .error (.noAuthDescriptor c.name)
  | some d, none => .ok d
  | some _, some decrypt => do
      let plain ← c.plainCredential decrypt
      AuthDescriptor.ofSettings
        (some (resolveSettings c.jsonParameters (plain.mapValues Json.str)))

def require (es : Entries Text) (name : Text) : Except Failure Text :=
  match es.get? name with
  | some v => .ok v
  | none => .error (.missingKey name)

def awsCredentials (c : Connector) (decrypt : Decryptor) : Except Failure AwsCredentials := do
  if c.protocol ≠ .awsSigV4 then throw (.notKeySigned c.name)
  let plain ← c.plainCredential decrypt
  let parameters : Entries Text := c.parameters.mapValues (·.getD [])
  return {
    accessKey := ← require plain "access_key"
    secretKey := ← require plain "secret_key"
    sessionToken := plain.get? "session_token"
    serviceName := ← require parameters "service_name"
    region := ← require parameters "region" }

end Connector

/-- Checks that a filled body is JSON without open holes; a missing or empty body is fine. -/
def checkPayload (payload : Option Text) : Except Failure Unit :=
  match payload with
  | none | some [] => .ok ()
  | some t =>
      match Template.placeholders t with
      | [] =>
          match Json.parse t with
          | .ok _ => .ok ()
          | .error (.tooLong digits) => .error (.integerTooLong digits)
          | .error e => .error (.payloadNotJson e)
      | hole :: more => .error (.unfilled "payload" (hole :: more))

end RemoteModel
