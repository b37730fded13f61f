import RemoteModel.Auth.LazySigner
import RemoteModel.Resilience.Breaker
import RemoteModel.Resilience.Retry
import RemoteModel.Settings

/-!
Downloads from object storage into files. A download is retried while the trouble may pass, every
attempt runs under a circuit breaker, and an attempt writes the file anew. The client is opened when
it is first needed and kept.
-/

namespace RemoteModel

structure ObjectStorage where
  signer : LazySigner
  endpoint : Option Text
  connectTimeout : Binary64
  readTimeout : Binary64
  policy : RetryPolicy
  breaker : Breaker
  isOpen : Bool

namespace ObjectStorage

def logger : Text := Classifier.objectStorageLogger

def breakerName : Text := "oci-object-storage"

def defaultThreshold : Int := 5

def defaultRecovery : Rat := 120

def create (signer : LazySigner) (endpoint : Option Text) (connectTimeout readTimeout : Binary64)
    (policy : RetryPolicy) (threshold : Int) (recovery : Rat) : ObjectStorage :=
  ⟨signer, endpoint, connectTimeout, readTimeout, policy,
    .create breakerName threshold recovery, false⟩

def defaultConnectTimeout : Binary64 := .ofInt 10

/-- The storage that settings describe, unless an endpoint is asked for. -/
def ofSettings (signer : LazySigner) (endpoint : Option Text) (settings : StorageSettings) :
    ObjectStorage :=
  let endpoint := match endpoint with
    | none | some [] => settings.endpoint
    | some e => some e
  create signer endpoint defaultConnectTimeout settings.timeout .standard defaultThreshold
    defaultRecovery

/-- The client that a signer opens. The region of the signer comes before the one that is only
announced. -/
def clientFor (s : ObjectStorage) (signer : Signer) : StorageClient where
  region := if signer.region.isVacant then s.signer.region else signer.region
  endpoint := match s.endpoint with
    | some [] => none
    | e => e
  connectTimeout := s.connectTimeout
  readTimeout := s.readTimeout

/-- Opens the client unless it is open. -/
def connect : ObjectStorage × Host → Except Failure Unit × ObjectStorage × Host
  | (s, h) =>
      if s.isOpen then (.ok (), s, h)
      else
        match s.signer.get h with
        | (.error f, signer, h) => (.error f, { s with signer }, h)
        | (.ok found, signer, h) =>
            (.ok (), { s with signer, isOpen := true },
              { h with clients := h.clients ++ [s.clientFor found] })

/-- Writes the pieces of an object. What has come before a failure stays in the file. -/
def store (target : Path) (d : Delivery) (h : Host) : Except Failure Unit × Host :=
  match Files.write h.files target d.pieces.flatten with
  | .error f => (.error f, h)
  | .ok files =>
      (match d.failure with
        | some f => .error f
        | none => .ok (), { h with files })

def deliver (name : ObjectName) (target : Path) (s : ObjectStorage × Host) :
    Except Failure Unit × ObjectStorage × Host :=
  match connect s with
  | (.error f, s) => (.error f, s)
  | (.ok (), s, h) =>
      match h.fetch name with
      | (.error f, h) => (.error f, s, h)
      | (.ok d, h) =>
          match store target d h with
          | (r, h) => (r, s, h)

/-- One attempt under the breaker, which counts the trouble that may pass. -/
def attempt (name : ObjectName) (target : Path) (s : ObjectStorage × Host) :
    Except Failure Unit × ObjectStorage × Host :=
  let c := Classifier.objectStorage
  match s.1.breaker.run (.own .artifactDownload) breakerName c.isRetriable c.notes
      (deliver name target) s with
  | (r, breaker, s, h) => (r, { s with breaker }, h)

def announcement (s : ObjectStorage) (name : ObjectName) : LogRecord :=
  ⟨.debug, logger, "Downloading object",
    [("endpoint", .ofText? s.endpoint), ("namespace", .str name.space),
      ("bucket", .str name.bucket), ("object", .str name.object)]⟩

/-- How the end of the attempts is reported. Failures of the service, of an exchange and of the system
are failures of the download; all others stay what they are. -/
def blamed (s : ObjectStorage) : Retry.Defeat → Failure
  | .exhausted f => .storageExhausted s.policy.attempts f
  | .final f =>
      if f.isA (.cloud .service) || f.isA (.cloud .client) || f.isA (.basic .osError) then
        .storageFailed f
      else f

def voice : Retry.Voice := ⟨logger, "Object download failed, retrying", fun _ => []⟩

/-- Downloads an object into a file; the folders above the file are made first. -/
def download (name : ObjectName) (target : Path) (s : ObjectStorage) (h : Host) :
    Except Failure Unit × ObjectStorage × Host :=
  match Files.makeFolders target.parent h.files with
  | (.error f, files) => (.error f, s, { h with files })
  | (.ok (), files) =>
      let h := HasJournal.log [s.announcement name] { h with files }
      match Retry.run s.policy .objectStorage voice (attempt name target) (s, h) with
      | (.ok (), s, h) => (.ok (), s, h)
      | (.error d, t, h) => (.error (s.blamed d), t, h)

end ObjectStorage

end RemoteModel
