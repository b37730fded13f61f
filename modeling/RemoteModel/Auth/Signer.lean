import RemoteModel.Auth.Descriptor

/-!
Signers of OCI requests, and from what they are built.
-/

namespace RemoteModel

/-- A signer puts a header on a request; it may know the region of its keys. -/
structure Signer where
  region : Json
  header : Text
  deriving DecidableEq, Repr

/-- From what a signer is built: the identity of the machine, that of the resource it runs for, or the
key of a user. A caller may bring one of its own. -/
inductive SignerPlan where
  | custom
  | resource
  | machine
  | user (descriptor : AuthDescriptor) (key : Text)
  deriving DecidableEq, Repr

end RemoteModel
