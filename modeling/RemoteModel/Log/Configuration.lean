import RemoteModel.Log.Formatter

/-!
Which records are written. Every logger has a threshold, its own or that of the nearest logger above
it; the loggers of this library and of what it uses are configured one by one.
-/

namespace RemoteModel

structure LoggerSettings where
  name : Text
  threshold : Nat
  propagates : Bool
  deriving DecidableEq, Repr

namespace LogConfiguration

def levels : Entries Nat :=
  [("CRITICAL", 50), ("FATAL", 50), ("ERROR", 40), ("WARN", 30), ("WARNING", 30), ("INFO", 20),
    ("DEBUG", 10), ("NOTSET", 0)]

def levelName (level : Nat) : Text :=
  match level with
  | 50 => "CRITICAL"
  | 40 => "ERROR"
  | 30 => "WARNING"
  | 20 => "INFO"
  | 10 => "DEBUG"
  | _ => "NOTSET"

def rootThreshold : Nat := 20

def libraryName : Text := "mlconnect"

def standard : List LoggerSettings :=
  [⟨libraryName, 20, false⟩, ⟨"mlconnect.foundation.circuit_breaker", 30, false⟩,
    ⟨"botocore", 30, false⟩, ⟨"oci", 30, false⟩]

def withLevel (level : Nat) (settings : List LoggerSettings) : List LoggerSettings :=
  settings.map fun s => if s.name = libraryName then { s with threshold := level } else s

/-- The settings for a level given by name in any case, and what is wrong with the name. -/
def configure (level : Option Text) : List LoggerSettings × Except Failure Unit :=
  match level with
  | none => (standard, .ok ())
  | some name =>
      match levels.get? name.upper with
      | some n => (withLevel n standard, .ok ())
      | none => (standard, .error (.unknownLevel name.upper))

def lineage (name : Text) : List Text :=
  let parts := name.splitOn (.scalar '.')
  (List.range parts.length).map fun i => Text.join "." (parts.take (parts.length - i))

/-- The threshold that holds for a logger. One of nought is no threshold. -/
def threshold (settings : List LoggerSettings) (name : Text) : Nat :=
  let own := (lineage name).findSome? fun n =>
    (settings.find? fun s => s.name = n ∧ s.threshold ≠ 0).map LoggerSettings.threshold
  own.getD rootThreshold

def isEnabled (settings : List LoggerSettings) (name : Text) (level : Nat) : Bool :=
  threshold settings name ≤ level

end LogConfiguration

end RemoteModel
