import RemoteModel.Text.Blank
import RemoteModel.Text.Case

/-!
The ways to authenticate with OCI and the fields that describe them.
-/

namespace RemoteModel

inductive AuthType where
  | resourcePrincipal
  | instancePrincipal
  | userPrincipal
  deriving DecidableEq, Repr, Inhabited

namespace AuthType

def name : AuthType → Text
  | .resourcePrincipal => "RESOURCE_PRINCIPAL"
  | .instancePrincipal => "INSTANCE_PRINCIPAL"
  | .userPrincipal => "USER_PRINCIPAL"

/-- Neither the case of the letters nor blanks around the name matter. -/
def ofName? (t : Text) : Option AuthType :=
  [AuthType.resourcePrincipal, .instancePrincipal, .userPrincipal].find? fun a =>
    a.name = t.trim.upper

end AuthType

inductive AuthField where
  | authType
  | tenantId
  | userId
  | fingerprint
  | pemfilePath
  | region
  deriving DecidableEq, Repr, Inhabited

namespace AuthField

def name : AuthField → Text
  | .authType => "auth_type"
  | .tenantId => "tenant_id"
  | .userId => "user_id"
  | .fingerprint => "fingerprint"
  | .pemfilePath => "pemfile_path"
  | .region => "region"

def label : AuthField → Text
  | .authType => "auth type"
  | .tenantId => "tenant id"
  | .userId => "user id"
  | .fingerprint => "fingerprint"
  | .pemfilePath => "pemfile"
  | .region => "region"

def all : List AuthField := [.authType, .tenantId, .userId, .fingerprint, .pemfilePath, .region]

/-- The fields of a user principal in the order in which they are looked for. -/
def ofUser : List AuthField := [.tenantId, .userId, .fingerprint, .pemfilePath, .region]

/-- The fields of a user principal in the order in which a descriptor holds them. -/
def ofDescriptor : List AuthField := [.tenantId, .userId, .region, .fingerprint, .pemfilePath]

end AuthField

end RemoteModel
