import RemoteModel.Failure
import RemoteModel.Number.Numeral

/-!
Settings: timeouts, pools, breakers and the cache. They are read from an environment of named texts
or built from a document; either way a number that cannot be read is an error.
-/

namespace RemoteModel

structure HttpSettings where
  connectTimeout : Binary64
  readTimeout : Binary64
  poolConnections : Int
  poolSize : Int
  breakerThreshold : Int
  breakerTimeout : Int
  deriving DecidableEq, Repr

structure ArtifactSettings where
  dataRoot : Text
  chunkSize : Int
  repositoryEndpoint : Option Text
  metaListEndpoint : Option Text
  downloadTimeout : Binary64
  downloadRetries : Int
  deriving DecidableEq, Repr

structure StorageSettings where
  endpoint : Option Text
  timeout : Binary64
  deriving DecidableEq, Repr

structure Settings where
  http : HttpSettings
  artifacts : ArtifactSettings
  storage : StorageSettings
  deriving DecidableEq, Repr

/-- A reader of named values: what a name has as a number, as a whole number or as a text, or the
default if it has nothing. -/
structure SettingReader where
  number : Text → Int → Except Failure Binary64
  whole : Text → Int → Except Failure Int
  text : Text → Text → Except Failure Text
  optional : Text → Except Failure (Option Text)

namespace SettingReader

def ofEnvironment (env : Entries Text) (variableName : Text → Text) : SettingReader where
  number name default :=
    match env.get? (variableName name) with
    | none => .ok (.ofInt default)
    | some t =>
        match Numeral.readFloat t with
        | some x => .ok x
        | none => .error (.notNumber t)
  whole name default :=
    match env.get? (variableName name) with
    | none => .ok default
    | some t =>
        match Numeral.readInt t with
        | .number i => .ok i
        | .tooLong digits => .error (.integerTooLong digits)
        | .invalid => .error (.notInteger t)
  text name default := .ok ((env.get? (variableName name)).getD default)
  optional name := .ok (env.get? (variableName name))

/-- The numeral of a text without the blanks around it. A document knows no digits but the ten
common ones. -/
def numeralOf (t : Text) : Except Failure Text :=
  let bare := Numeral.bare t
  if bare.all Rune.isAscii then .ok bare else .error .settingsInvalid

def numberOf : Json → Except Failure Binary64
  | .float x => .ok x
  | .int i =>
      let x := Binary64.ofInt i
      if x.toRat?.isSome then .ok x else .error .settingsInvalid
  | .bool b => .ok (.ofInt (if b then 1 else 0))
  | .str t => do
      match Numeral.readFloat (← numeralOf t) with
      | some x => .ok x
      | none => .error .settingsInvalid
  | _ => .error .settingsInvalid

/-- Drops a fraction of noughts from the numeral of a whole number. -/
def withoutNoughts (t : Text) : Text :=
  match t.span fun r => r ≠ .scalar '.' with
  | (whole, _ :: fraction) =>
      if !fraction.isEmpty && fraction.all (· = .scalar '0') then whole else t
  | _ => t

/-- The whole number a value of a document stands for. One with a fraction stands for none, and
neither does one of floating point beyond 63 bits. -/
def wholeOf : Json → Except Failure Int
  | .int i => .ok i
  | .bool b => .ok (if b then 1 else 0)
  | .float x =>
      match x.toRat? with
      | some q =>
          if q.den = 1 && q.num.natAbs < Nat.pow 2 63 then .ok q.num else .error .settingsInvalid
      | none => .error .settingsInvalid
  | .str t => do
      match Numeral.readInt (withoutNoughts (← numeralOf t)) with
      | .number i => .ok i
      | _ => .error .settingsInvalid
  | _ => .error .settingsInvalid

def ofFields (fields : Entries Json) : SettingReader where
  number name default :=
    match fields.get? name with
    | none => .ok (.ofInt default)
    | some v => numberOf v
  whole name default :=
    match fields.get? name with
    | none => .ok default
    | some v => wholeOf v
  text name default :=
    match fields.get? name with
    | none => .ok default
    | some (.str t) => .ok t
    | some _ => .error .settingsInvalid
  optional name :=
    match fields.get? name with
    | none | some .null => .ok none
    | some (.str t) => .ok (some t)
    | some _ => .error .settingsInvalid

end SettingReader

namespace HttpSettings

def read (r : SettingReader) : Except Failure HttpSettings := do
  return {
    connectTimeout := ← r.number "connect_timeout" 10
    readTimeout := ← r.number "read_timeout" 60
    poolConnections := ← r.whole "pool_connections" 10
    poolSize := ← r.whole "pool_maxsize" 20
    breakerThreshold := ← r.whole "circuit_breaker_threshold" 5
    breakerTimeout := ← r.whole "circuit_breaker_timeout" 30 }

def variableName (name : Text) : Text := "MLCONNECT_" ++ name.upper

def ofEnvironment (env : Entries Text) : Except Failure HttpSettings :=
  read (.ofEnvironment env variableName)

def ofFields (fields : Entries Json) : Except Failure HttpSettings := read (.ofFields fields)

def standard : HttpSettings := ⟨.ofInt 10, .ofInt 60, 10, 20, 5, 30⟩

def toJson (s : HttpSettings) : Entries Json :=
  [("connect_timeout", .float s.connectTimeout), ("read_timeout", .float s.readTimeout),
    ("pool_connections", .int s.poolConnections), ("pool_maxsize", .int s.poolSize),
    ("circuit_breaker_threshold", .int s.breakerThreshold),
    ("circuit_breaker_timeout", .int s.breakerTimeout)]

end HttpSettings

namespace ArtifactSettings

def read (r : SettingReader) : Except Failure ArtifactSettings := do
  return {
    dataRoot := ← r.text "data_root" "/tmp/mlconnect"
    chunkSize := ← r.whole "chunk_size" 10000000
    repositoryEndpoint := ← r.optional "model_repo_endpoint"
    metaListEndpoint := ← r.optional "model_metalist_endpoint"
    downloadTimeout := ← r.number "download_timeout" 300
    downloadRetries := ← r.whole "download_max_retries" 3 }

def ofEnvironment (env : Entries Text) : Except Failure ArtifactSettings :=
  read (.ofEnvironment env HttpSettings.variableName)

def ofFields (fields : Entries Json) : Except Failure ArtifactSettings := read (.ofFields fields)

def toJson (s : ArtifactSettings) : Entries Json :=
  [("data_root", .str s.dataRoot), ("chunk_size", .int s.chunkSize),
    ("model_repo_endpoint", .ofText? s.repositoryEndpoint),
    ("model_metalist_endpoint", .ofText? s.metaListEndpoint),
    ("download_timeout", .float s.downloadTimeout),
    ("download_max_retries", .int s.downloadRetries)]

end ArtifactSettings

namespace StorageSettings

def read (r : SettingReader) : Except Failure StorageSettings := do
  return { endpoint := ← r.optional "endpoint", timeout := ← r.number "timeout" 300 }

def variableName (name : Text) : Text := "OCI_OS_" ++ name.upper

def ofEnvironment (env : Entries Text) : Except Failure StorageSettings :=
  read (.ofEnvironment env variableName)

def ofFields (fields : Entries Json) : Except Failure StorageSettings := read (.ofFields fields)

def toJson (s : StorageSettings) : Entries Json :=
  [("endpoint", .ofText? s.endpoint), ("timeout", .float s.timeout)]

end StorageSettings

namespace Settings

/-- The groups are read in order, and the first number that cannot be read is the error. -/
def ofEnvironment (env : Entries Text) : Except Failure Settings := do
  return {
    http := ← HttpSettings.ofEnvironment env
    artifacts := ← ArtifactSettings.ofEnvironment env
    storage := ← StorageSettings.ofEnvironment env }

/-- No group may be left out. -/
def ofFields (fields : Entries Json) : Except Failure Settings := do
  let group (name : Text) : Except Failure (Entries Json) :=
    match fields.get? name with
    | some (.obj fields) => .ok fields
    | _ => .error .settingsInvalid
  return {
    http := ← HttpSettings.ofFields (← group "http")
    artifacts := ← ArtifactSettings.ofFields (← group "artifacts")
    storage := ← StorageSettings.ofFields (← group "object_storage") }

def toJson (s : Settings) : Entries Json :=
  [("http", .obj s.http.toJson), ("artifacts", .obj s.artifacts.toJson),
    ("object_storage", .obj s.storage.toJson)]

end Settings

end RemoteModel
