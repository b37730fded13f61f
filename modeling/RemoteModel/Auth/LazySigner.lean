import RemoteModel.Host

/-!
Signers that are built when they are first needed. What goes wrong is an error of the key, nothing of
it is kept, and the next use tries again; once built, a signer stays.
-/

namespace RemoteModel

inductive SignerSource where
  | custom
  | resource
  | machine
  | user (descriptor : AuthDescriptor)
  deriving DecidableEq, Repr

namespace SignerSource

/-- The private key in a file. That the file cannot be read is an error of the key; that it is no text
is not. -/
def readKey (file : Json) (t : Tree) : Except Failure Text :=
  match file with
  | .str name =>
      match Files.readText t (Path.ofText name) with
      | .ok key => .ok key
      | .error f => .error (if f.isA (.basic .osError) then .keyUnreadable f else f)
  | _ => .error .wrongType

def supply (source : SignerSource) (h : Host) : Except Failure Signer × Host :=
  match source with
  | .custom => h.buildSigner .custom
  | .resource => h.buildSigner .resource
  | .machine => h.buildSigner .machine
  | .user d =>
      match readKey d.pemfilePath h.files with
      | .error f => (.error f, h)
      | .ok key =>
          match h.buildSigner (.user d key) with
          | (.ok signer, h) => (.ok signer, h)
          | (.error f, h) =>
              (.error (if f.isA (.basic .exception) then .keyRejected f else f), h)

end SignerSource

structure LazySigner where
  description : Text
  source : SignerSource
  region : Json
  signer : Option Signer
  deriving DecidableEq, Repr

namespace LazySigner

def logger : Text := "mlconnect.auth.oci"

def isBuilt (s : LazySigner) : Bool := s.signer.isSome

/-- How a failure to build the signer is reported. -/
def blamed (s : LazySigner) (f : Failure) : Failure :=
  if f.isA (.own .keyLoad) then f
  else if f.isA (.basic .exception) then .signerFailed s.description f
  else f

def get (s : LazySigner) (h : Host) : Except Failure Signer × LazySigner × Host :=
  match s.signer with
  | some signer => (.ok signer, s, h)
  | none =>
      match s.source.supply h with
      | (.error f, h) => (.error (s.blamed f), s, h)
      | (.ok signer, h) =>
          (.ok signer, { s with signer := some signer }, HasJournal.log
            [⟨.debug, logger, "Initialized OCI signer", [("auth_type", .str s.description)]⟩] h)

def sign (s : LazySigner) (r : Request) (h : Host) :
    Except Failure Request × LazySigner × Host :=
  match s.get h with
  | (.ok signer, s, h) =>
      (.ok { r with headers := r.headers.put "authorization" signer.header }, s, h)
  | (.error f, s, h) => (.error f, s, h)

def text (s : LazySigner) : Text :=
  "LazySigner(" ++ s.description ++ ", initialized=" ++ (Json.bool s.isBuilt).shown ++ ")"

def announcement (type : Json) : LogRecord :=
  ⟨.debug, logger, "Building OCI signer", [("auth_type", type)]⟩

/-- The signer of a descriptor. The fields of a user principal are checked once more. -/
def ofDescriptor (d : AuthDescriptor) : Except Failure LazySigner :=
  match d.type with
  | .resourcePrincipal => .ok ⟨"resource principal", .resource, .null, none⟩
  | .instancePrincipal => .ok ⟨"instance principal", .machine, .null, none⟩
  | .userPrincipal =>
      (checkSettings (some d.toSettings)).map fun _ =>
        ⟨"user principal", .user d, d.region, none⟩

def build (d : AuthDescriptor) (h : Host) : Except Failure LazySigner × Host :=
  (ofDescriptor d, HasJournal.log [announcement (.str d.type.name)] h)

/-- A type of authentication that is none of the known ones has no signer. -/
def buildUnknown (type : Json) (h : Host) : Except Failure LazySigner × Host :=
  (.error (.authTypeUnsupported type.shown), HasJournal.log [announcement .null] h)

end LazySigner

end RemoteModel
