import Dossier.Error
import Dossier.Json.Reader
import Dossier.Memory
import Dossier.Outline

/-!
# Configuration

A configuration chooses a backend. It is read from JSON: an object whose member `type` names the
backend, or a list that begins with that name. Settings follow under their names or, in a list, by
position.

* **`Config`**, `Config.Settings`;
* `Settings.ofMembers`, `Settings.ofItems`: the two forms. Known settings occur once and unknown
  ones are ignored; a list has no settings beyond the known ones;
* **`Config.parse`**: reads and checks a configuration;
* `Config.connect`: the backend, unless this library cannot reach it;
* `Config.toJson`, `Config.outline`: writing, the latter without the password.
-/

namespace Dossier

namespace Config

/-- How to reach a MongoDB server. -/
structure Settings where
  dsn : Option String
  host : Option String
  port : Option UInt16
  database : String
  appName : Option String
  username : Option String
  password : Option String
  directConnection : Bool
  connectTimeoutSecs : Option UInt64
  deriving DecidableEq

end Config

/-- The choice of a backend. -/
inductive Config where
  | memory
  | mongo (settings : Config.Settings)
  deriving DecidableEq

namespace Config

/-! ## Reading -/

/-- The kinds of settings. -/
inductive Setting where
  | dsn | host | port | database | appName | username | password | directConnection
  | connectTimeoutSecs
  deriving DecidableEq, Repr

namespace Setting

/-- Every setting, in the order of the list form. -/
def all : List Setting :=
  [dsn, host, port, database, appName, username, password, directConnection, connectTimeoutSecs]

/-- The name of a setting. -/
def name : Setting → String
  | dsn => "dsn"
  | host => "host"
  | port => "port"
  | database => "database"
  | appName => "app_name"
  | username => "username"
  | password => "password"
  | directConnection => "direct_connection"
  | connectTimeoutSecs => "connect_timeout_secs"

end Setting

/-- A setting that may be missing or null. -/
def optional {α : Type} (read : Json → Option α) : Option Json → Option (Option α)
  | none | some .null => some none
  | some json => (read json).map some

/-- A text. -/
def readText : Json → Option String
  | .string text => some text
  | _ => none

/-- A truth value. -/
def readBool : Json → Option Bool
  | .bool b => some b
  | _ => none

/-- A number of a port. -/
def readPort : Json → Option UInt16
  | .natural n => if n.toNat < UInt16.size then some n.toUInt16 else none
  | _ => none

/-- A natural number. -/
def readNatural : Json → Option UInt64
  | .natural n => some n
  | _ => none

namespace Settings

/-- The settings by a function that gives their JSON values. Only the database has to be there. -/
def ofLookup (value? : Setting → Option Json) : Option Settings := do
  let dsn ← optional readText (value? .dsn)
  let host ← optional readText (value? .host)
  let port ← optional readPort (value? .port)
  let database ← (value? .database).bind readText
  let appName ← optional readText (value? .appName)
  let username ← optional readText (value? .username)
  let password ← optional readText (value? .password)
  let directConnection ← match value? .directConnection with
    | none => some false
    | some json => readBool json
  let connectTimeoutSecs ← optional readNatural (value? .connectTimeoutSecs)
  return ⟨dsn, host, port, database, appName, username, password, directConnection,
    connectTimeoutSecs⟩

/-- The settings of an object's members. -/
def ofMembers (members : List (String × Json)) : Option Settings :=
  let keys := members.map Prod.fst
  if Setting.all.any fun setting => 1 < keys.count setting.name then none
  else ofLookup fun setting => members.lookup setting.name

/-- The settings of a list's items. -/
def ofItems (items : List Json) : Option Settings :=
  if Setting.all.length < items.length then none
  else ofLookup fun setting => (Setting.all.zip items).lookup setting

end Settings

/-- The member that names the backend. -/
def tag : String := "type"

/-- The choice that a name and either form of settings make. -/
def ofTag (name : String) (memory : Bool) (settings : Option Settings) : Option Config :=
  match name with
  | "memory" => if memory then some Config.memory else none
  | "mongo_db" => settings.map mongo
  | _ => none

/-- The choice that a JSON value makes. -/
def ofJson? : Json → Option Config
  | .object members =>
    match members.filter (·.1 = tag) with
    | [(_, .string name)] =>
      ofTag name true (Settings.ofMembers (members.filter (·.1 ≠ tag)))
    | _ => none
  | .array (.string name :: items) => ofTag name items.isEmpty (Settings.ofItems items)
  | _ => none

/-- Refuses settings that cannot work. -/
def check : Config → Except ConfigError Unit
  | memory => .ok ()
  | mongo settings =>
    if settings.database.isEmpty then .error .emptyDatabase
    else if settings.username.isSome ≠ settings.password.isSome then .error .loneCredential
    else .ok ()

/-- Reads a configuration. -/
def parse (text : String) : Except ConfigError Config := do
  match (Json.parse? text).bind ofJson? with
  | none => throw .malformed
  | some config =>
    config.check
    return config

/-! ## Use -/

/-- The backend's initial state, for the backend in memory. -/
def connect (config : Config) : Except ConfigError Memory := do
  config.check
  match config with
  | memory => return {}
  | mongo _ => throw .unavailable

/-- A configuration in JSON. -/
def toJson : Config → Json
  | memory => .object [(tag, .string "memory")]
  | mongo s =>
    .object
      [(tag, .string "mongo_db"),
        (Setting.dsn.name, .ofOption .string s.dsn),
        (Setting.host.name, .ofOption .string s.host),
        (Setting.port.name, .ofOption (fun n => .natural n.toUInt64) s.port),
        (Setting.database.name, .string s.database),
        (Setting.appName.name, .ofOption .string s.appName),
        (Setting.username.name, .ofOption .string s.username),
        (Setting.password.name, .ofOption .string s.password),
        (Setting.directConnection.name, .bool s.directConnection),
        (Setting.connectTimeoutSecs.name, .ofOption .natural s.connectTimeoutSecs)]

/-- What stands in for a password. -/
def redacted : Outline := .text "<redacted>"

/-- The outline of settings. -/
def Settings.outline (s : Settings) : Outline :=
  .record "MongoDbSettings"
    [(Setting.dsn.name, .option .text s.dsn),
      (Setting.host.name, .option .text s.host),
      (Setting.port.name, .option (fun n => .atom (toString n.toNat)) s.port),
      (Setting.database.name, .text s.database),
      (Setting.appName.name, .option .text s.appName),
      (Setting.username.name, .option .text s.username),
      (Setting.password.name, .option (fun _ => redacted) s.password),
      (Setting.directConnection.name, .bool s.directConnection),
      (Setting.connectTimeoutSecs.name,
        .option (fun n => .atom (toString n.toNat)) s.connectTimeoutSecs)]

/-- The outline of a configuration. -/
def outline : Config → Outline
  | memory => .atom "Memory"
  | mongo settings => .tuple "MongoDb" [settings.outline]

end Config

end Dossier
