import RemoteModel.Failure

/-!
Descriptors of OCI authentication. A descriptor is read from named settings, which a connector keeps
among its parameters or its credential; a user principal holds five further fields and no other
type holds any.
-/

namespace RemoteModel

namespace AuthType

def parse (t : Text) : Except Failure AuthType :=
  match ofName? t with
  | some a => .ok a
  | none => .error .authTypeUnknown

/-- The name may be any value; one that is no text names no type. -/
def ofJson (v : Json) : Except Failure AuthType :=
  match v with
  | .str t => parse t
  | _ => .error .authTypeUnknown

end AuthType

/-- A field that is absent is null. -/
structure AuthDescriptor where
  type : AuthType
  tenantId : Json
  userId : Json
  region : Json
  fingerprint : Json
  pemfilePath : Json
  deriving DecidableEq, Repr

def hasSetting (settings : Entries Json) (field : AuthField) : Bool :=
  match settings.get? field.name with
  | none | some .null | some (.str []) => false
  | some _ => true

/-- Checks settings that may be absent altogether. The fields of a user principal are looked for in
order, and the first one missing is named. -/
def checkSettings (settings : Option (Entries Json)) : Except Failure Unit :=
  match settings with
  | none => .error .credentialMissing
  | some settings =>
      if !hasSetting settings .authType then .error (.authFieldMissing .authType)
      else do
        let type ← AuthType.parse ((settings.get? AuthField.authType.name).getD .null).shown
        match type, AuthField.ofUser.find? fun f => !hasSetting settings f with
        | .userPrincipal, some field => .error (.authFieldMissing field)
        | _, _ => .ok ()

namespace AuthDescriptor

def field (d : AuthDescriptor) : AuthField → Json
  | .authType => .str d.type.name
  | .tenantId => d.tenantId
  | .userId => d.userId
  | .region => d.region
  | .fingerprint => d.fingerprint
  | .pemfilePath => d.pemfilePath

def plain (type : AuthType) : AuthDescriptor := ⟨type, .null, .null, .null, .null, .null⟩

/-- Builds a descriptor field by field. Every field is required for a user principal and forbidden
otherwise; the first offence is named. -/
def create (d : AuthDescriptor) : Except Failure AuthDescriptor :=
  match d.type with
  | .userPrincipal =>
      match AuthField.ofDescriptor.find? fun f => (d.field f).isNull with
      | some field => .error (.authFieldRequired field)
      | none => .ok d
  | _ =>
      match AuthField.ofDescriptor.find? fun f => !(d.field f).isNull with
      | some field => .error (.authFieldForbidden field)
      | none => .ok d

def ofSettings (settings : Option (Entries Json)) : Except Failure AuthDescriptor := do
  checkSettings settings
  let settings := settings.getD []
  let get (f : AuthField) : Json := (settings.get? f.name).getD .null
  let type ← AuthType.parse (get .authType).shown
  match type with
  | .userPrincipal =>
      create ⟨type, get .tenantId, get .userId, get .region, get .fingerprint, get .pemfilePath⟩
  | _ => create (plain type)

def toSettings (d : AuthDescriptor) : Entries Json :=
  AuthField.all.map fun f => (f.name, d.field f)

def text (d : AuthDescriptor) : Text :=
  "AuthConfig(auth_type=" ++ d.type.name ++ ", region=" ++ d.region.shown ++ ")"

end AuthDescriptor

/-- The auth settings of a connector: a parameter with a value comes first, then a credential entry
with a value; a field without a value is left out. -/
def resolveSettings (parameters credential : Entries Json) : Entries Json :=
  AuthField.all.filterMap fun f =>
    if hasSetting parameters f then (parameters.get? f.name).map (f.name, ·)
    else if hasSetting credential f then (credential.get? f.name).map (f.name, ·)
    else none

end RemoteModel
