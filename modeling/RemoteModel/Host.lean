import RemoteModel.Auth.Signer
import RemoteModel.Files.Access
import RemoteModel.Http.Request
import RemoteModel.Http.Response
import RemoteModel.Http.Session

/-!
What surrounds a run: the journal and the files, what the network, the key service and the object
storage will answer, and what they have been asked so far. A service that has no answer left fails as
an unreachable network does, or gives a plain one.
-/

namespace RemoteModel

structure Answer where
  status : Int
  reason : Json
  headers : Entries Text
  body : WireBody
  deriving DecidableEq, Repr

/-- What comes of a request that a session sends, and how many seconds it takes. The redirects that the
session follows and the repetitions it is set to make lie within one exchange. -/
structure Exchange where
  delay : Rat
  reply : Except Failure Answer

/-- A request as a session was given it to send, once, however often it then goes out. A streamed one
leaves the body of its answer on the wire. -/
structure Sending where
  session : Session
  request : Request
  streamed : Bool
  connectTimeout : Binary64
  readTimeout : Binary64
  deriving DecidableEq, Repr

/-- What the object storage does with the request for an object: it fails, or it gives the object in
pieces and may fail after them. -/
structure Delivery where
  pieces : List Bytes
  failure : Option Failure
  deriving DecidableEq, Repr

structure StorageClient where
  region : Json
  endpoint : Option Text
  connectTimeout : Binary64
  readTimeout : Binary64
  deriving DecidableEq, Repr

structure ObjectName where
  space : Text
  bucket : Text
  object : Text
  deriving DecidableEq, Repr

structure Host where
  journal : Journal
  files : Tree
  exchanges : List Exchange
  signers : List (Except Failure Signer)
  deliveries : List (Except Failure Delivery)
  sent : List Sending
  plans : List SignerPlan
  clients : List StorageClient
  fetched : List ObjectName

namespace Host

def start (now : Int) : Host := ⟨.start now, .empty, [], [], [], [], [], [], []⟩

instance : HasJournal Host where
  journal h := h.journal
  setJournal j h := { h with journal := j }
  journal_setJournal _ _ := rfl

def unreachable : Failure := .reported (.http .connection) "script exhausted"

/-- Values of headers whose names differ only in case are one value. -/
def joinHeaders (es : Entries Text) : Entries Text :=
  es.foldl (fun joined e =>
    if joined.any fun f => f.1.lower = e.1.lower then
      joined.map fun f => if f.1.lower = e.1.lower then (f.1, f.2 ++ ", " ++ e.2) else f
    else joined ++ [e]) []

/-- Sends a request through a session. A body that is not streamed is read before the answer counts as
one. -/
def exchange (session : Session) (r : Request) (streamed : Bool)
    (connectTimeout readTimeout : Binary64) (h : Host) : Except Failure Answer × Host :=
  if !Target.isServed r.url then (.error (.schemeUnserved r.url), h)
  else
    let sending : Sending := ⟨session, r, streamed, connectTimeout, readTimeout⟩
    let h := { h with sent := h.sent ++ [sending] }
    match h.exchanges with
    | [] => (.error unreachable, h)
    | e :: rest =>
        let h := HasJournal.advance e.delay { h with exchanges := rest }
        match e.reply with
        | .error f => (.error f, h)
        | .ok a =>
            match streamed, a.body.fault with
            | false, some fault => (.error fault.inExchange, h)
            | _, _ => (.ok a, h)

def buildSigner (plan : SignerPlan) (h : Host) : Except Failure Signer × Host :=
  let h := { h with plans := h.plans ++ [plan] }
  match h.signers with
  | [] => (.ok ⟨.null, "signed"⟩, h)
  | r :: rest => (r, { h with signers := rest })

def fetch (name : ObjectName) (h : Host) : Except Failure Delivery × Host :=
  let h := { h with fetched := h.fetched ++ [name] }
  match h.deliveries with
  | [] => (.ok ⟨[], none⟩, h)
  | r :: rest => (r, { h with deliveries := rest })

end Host

end RemoteModel
