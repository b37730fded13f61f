import RemoteModel.Text.Rune

/-!
Pools of connections and the retries of the transport below them. A session retries nothing unless
it is asked to.
-/

namespace RemoteModel

/-- What the transport repeats on its own. Without a list of methods every method may be repeated. -/
structure TransportRetries where
  total : Int
  backoff : Rat
  statuses : List Int
  methods : Option (List Text)
  raisesOnStatus : Bool
  deriving DecidableEq, Repr

namespace TransportRetries

def never : TransportRetries := ⟨0, 0, [], none, true⟩

end TransportRetries

structure Session where
  poolConnections : Int
  poolSize : Int
  retries : TransportRetries
  deriving DecidableEq, Repr

namespace Session

def defaultStatuses : List Int := [429, 500, 502, 503, 504]

def defaultMethods : List Text := ["GET"]

/-- A session that repeats the given methods on the given statuses, at most `retries` times. -/
def create (poolConnections poolSize retries : Int) (backoff : Rat) (statuses : Option (List Int))
    (methods : Option (List Text)) : Session where
  poolConnections := poolConnections
  poolSize := poolSize
  retries :=
    if 0 < retries then
      ⟨retries, backoff, statuses.getD defaultStatuses, some (methods.getD defaultMethods), false⟩
    else .never

end Session

end RemoteModel
