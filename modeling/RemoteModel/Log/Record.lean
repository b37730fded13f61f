import RemoteModel.Json.Basic

/-!
Log records and the journal of a run: the clock, what was logged and how long was slept.
-/

namespace RemoteModel

inductive LogLevel where
  | debug
  | info
  | warning
  | error
  deriving DecidableEq, Repr, Inhabited

namespace LogLevel

def name : LogLevel → Text
  | .debug => "DEBUG"
  | .info => "INFO"
  | .warning => "WARNING"
  | .error => "ERROR"

end LogLevel

structure LogRecord where
  level : LogLevel
  logger : Text
  message : Text
  extra : Entries Json
  deriving DecidableEq, Repr

namespace LogRecord

/-- The names of what a record says of itself. -/
def ownNames : List Text :=
  ["message", "asctime", "name", "msg", "args", "levelname", "levelno", "pathname", "filename",
    "module", "exc_info", "exc_text", "stack_info", "lineno", "funcName", "created", "msecs",
    "relativeCreated", "thread", "threadName", "processName", "process"]

/-- The first name that further fields would take from a record. There is no record with such
fields. -/
def taken? (extra : Entries Json) : Option Text := extra.names.find? ownNames.contains

end LogRecord

/-- The instant is counted in microseconds. -/
structure Journal where
  now : Int
  records : List LogRecord
  sleeps : List Rat
  deriving DecidableEq, Repr

namespace Journal

def start (now : Int) : Journal := ⟨now, [], []⟩

def add (j : Journal) (rs : List LogRecord) : Journal := { j with records := j.records ++ rs }

/-- A number of seconds in whole microseconds; a half goes to the even neighbour. -/
def microseconds (seconds : Rat) : Int :=
  let n : Int := Binary64.roundQuotient (seconds.num.natAbs * 1000000) seconds.den
  if seconds.num < 0 then -n else n

def advance (j : Journal) (seconds : Rat) : Journal :=
  { j with now := j.now + microseconds seconds }

def sleep (j : Journal) (seconds : Rat) : Journal :=
  { j.advance seconds with sleeps := j.sleeps ++ [seconds] }

end Journal

class HasJournal (σ : Type) where
  journal : σ → Journal
  setJournal : Journal → σ → σ
  journal_setJournal : ∀ j s, journal (setJournal j s) = j

namespace HasJournal

variable {σ : Type} [HasJournal σ]

def log (rs : List LogRecord) (s : σ) : σ := setJournal ((journal s).add rs) s

def sleep (seconds : Rat) (s : σ) : σ := setJournal ((journal s).sleep seconds) s

def advance (seconds : Rat) (s : σ) : σ := setJournal ((journal s).advance seconds) s

end HasJournal

instance : HasJournal Journal where
  journal := id
  setJournal j _ := j
  journal_setJournal _ _ := rfl

/-- A state beside another one that holds the journal. -/
instance {α σ : Type} [HasJournal σ] : HasJournal (α × σ) where
  journal p := HasJournal.journal p.2
  setJournal j p := (p.1, HasJournal.setJournal j p.2)
  journal_setJournal j p := HasJournal.journal_setJournal j p.2

namespace Json

def ofRat (x : Rat) : Json := if x.den = 1 then .int x.num else .float (Binary64.ofRat x)

end Json

end RemoteModel
