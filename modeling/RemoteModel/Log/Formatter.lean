import RemoteModel.Calendar
import RemoteModel.Json.Printer
import RemoteModel.Log.Record
import RemoteModel.Text.Directive

/-!
Log records as lines of JSON. A line holds the standard fields, what a call says about itself, and
every further attribute of the record; an attribute that may hold a secret is covered.
-/

namespace RemoteModel

/-- A record with its attributes in order, and the error it was logged with, as it is written
out. -/
structure LogEvent where
  attributes : Entries Json
  trace : Option Text
  deriving DecidableEq, Repr

namespace LogEvent

def redacted : List Text :=
  ["access_key", "secret_key", "session_token", "credential", "authorization", "pemfile_contents"]

def cover : Json := .str "***"

/-- The attributes that have their own place in a line, or none. -/
def standard : List Text :=
  ["name", "msg", "args", "created", "filename", "funcName", "levelname", "levelno", "lineno",
    "module", "msecs", "message", "pathname", "process", "processName", "relativeCreated",
    "thread", "threadName", "exc_info", "exc_text", "stack_info", "asctime", "taskName",
    "invocation", "error"]

def callFields : List Text :=
  ["connector", "protocol", "endpoint", "method", "status_code", "since"]

def get (e : LogEvent) (name : Text) : Json := (e.attributes.get? name).getD .null

/-- The message with its arguments written in; without arguments the message stays as it is. -/
def message (e : LogEvent) : Except Failure Text :=
  let text := (e.get "msg").shown
  if (e.get "args").isVacant then .ok text else Directive.expand (e.get "args") text

/-- The whole second below a number of seconds. -/
def secondOf : Json → Int
  | .int i => i
  | .float x => (x.toRat?.getD 0).floor
  | _ => 0

def timeText (e : LogEvent) : Except Failure Text := do
  let moment := Moment.ofSeconds (secondOf (e.get "created"))
  let millis ← (e.get "msecs").whole
  let sign : Text := if millis < 0 then "-" else []
  let text : Text := moment.dateText "-" ++ " " ++ moment.timeText ":" ++ "," ++ sign
    ++ Moment.padded (3 - sign.length) millis.natAbs
  return text

def standardFields (e : LogEvent) (time message : Text) : Entries Json :=
  [("time", .str time), ("process_name", e.get "processName"), ("process_id", e.get "process"),
    ("thread_name", e.get "threadName"), ("thread_id", e.get "thread"),
    ("level", e.get "levelname"), ("logger_name", e.get "name"),
    ("pathname", e.get "pathname"), ("line", e.get "lineno"), ("message", .str message)]

def callEntries (e : LogEvent) : Entries Json :=
  match e.get "invocation" with
  | .obj fields => callFields.filterMap fun name =>
      match Entries.get? fields name with
      | none | some .null => none
      | some v => some (name, v)
  | _ => []

/-- The error of a record; an object gets the trace of the error the record was logged with. -/
def errorEntries (e : LogEvent) : Entries Json :=
  match e.get "error", e.trace with
  | .null, _ => []
  | .obj fields, some trace => [("error", .obj (Entries.put fields "trace" (.str trace)))]
  | v, _ => [("error", v)]

def extraEntries (e : LogEvent) : Entries Json :=
  (e.attributes.filter fun a => !standard.contains a.1).map fun a =>
    if redacted.contains a.1 then (a.1, cover) else a

/-- The fields of a line. A later field takes the place of an earlier one of its name. -/
def fields (e : LogEvent) : Except Failure (Entries Json) := do
  let message ← e.message
  let time ← e.timeText
  return (((e.standardFields time message).putAll e.callEntries).putAll e.errorEntries).putAll
    e.extraEntries

def line (e : LogEvent) : Except Failure Text := e.fields.map fun fields => (Json.obj fields).render

end LogEvent

namespace ErrorClass

def qualifiedName (c : ErrorClass) : Text :=
  let home : Text := match c with
    | .own .foundation | .own .backend => "mlconnect.foundation.exceptions."
    | .own _ => "mlconnect.core.exceptions."
    | .http _ => "requests.exceptions."
    | .wire _ => "urllib3.exceptions."
    | .cloud _ => "oci.exceptions."
    | .document => "json.decoder."
    | .archive => "zipfile."
    | .sameFile => "shutil."
    | .basic _ | .settings => []
  home ++ c.name

end ErrorClass

namespace Failure

def trace (f : Failure) : Text :=
  match f.message with
  | [] => f.kind.qualifiedName
  | text => f.kind.qualifiedName ++ ": " ++ text

end Failure

end RemoteModel
