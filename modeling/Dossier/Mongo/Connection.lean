import Dossier.Codebook
import Dossier.Error
import Dossier.Mongo.Address
import Dossier.Outline

/-!
# Connections to a MongoDB server

A connection is described step by step before it is opened. Opening it sets up the codebook first,
then asks for a runtime, and reads the address last; no server is contacted.

* **`Connection`**, `Connection.ofHost`, `Connection.outline`;
* `Runtime`: where a client works, and whether a caller may wait for it;
* `ClientOptions`, `Connection.clientOptions`: what the description adds to an address's options;
* **`Connection.connect`**: the client's database and write concern, and the codebook afterwards.
-/

namespace Dossier.Mongo

/-- A user's name and password. -/
structure Credentials where
  username : String
  password : String
  deriving DecidableEq

/-- How a client works. -/
structure ClientOptions where
  appName : Option String := none
  direct : Option Bool := none
  timeoutMillis : Option Nat := none
  credentials : Option Credentials := none
  /-- The database that knows the user. -/
  source : Option String := none

/-- How a runtime shares its work among threads. -/
inductive Runtime where
  | currentThread | multiThread
  deriving DecidableEq, Repr

/-- The name of a kind of runtime. -/
def Runtime.name : Runtime → String
  | currentThread => "CurrentThread"
  | multiThread => "MultiThread"

/-- Whether a caller on the given runtime may wait for the client. -/
def Runtime.canBlock (caller : Option Runtime) : Bool := caller ≠ some currentThread

/-- The description of a connection. -/
structure Connection where
  address : String
  database : String
  appName : Option String := none
  credentials : Option Credentials := none
  direct : Bool := false
  timeoutMillis : Nat := 5000
  /-- The runtime that the client lives on. -/
  runtime : Option Runtime := none
  /-- Registers codecs and policies before the first document passes. -/
  hook : Option (Codebook → Codebook) := none

/-- A client of one database. -/
structure Client where
  database : String
  concern : Option WriteConcern

namespace Connection

/-- The host that stands in for a missing one. -/
def defaultHost : String := "localhost"

/-- The port that stands in for a missing one. -/
def defaultPort : UInt16 := 27017

/-- A connection to a single host. -/
def ofHost (host : Option String) (port : Option UInt16) (database : String) : Connection where
  address := String.ofList Address.scheme ++ host.getD defaultHost ++ ":" ++
    toString (port.getD defaultPort).toNat
  database

/-- The options of the client: what the description says goes before what the address said. -/
def clientOptions (c : Connection) (base : ClientOptions) : ClientOptions where
  appName := c.appName.or base.appName
  direct := if c.direct then some true else base.direct
  timeoutMillis := some c.timeoutMillis
  credentials := c.credentials.or base.credentials
  source := if c.credentials.isSome then some c.database else base.source

/-- Makes the client; the codebook is set up even when that fails. -/
def connect (c : Connection) (book : Codebook) : Except ConnectionError Client × Codebook :=
  let book := match c.hook with
    | some hook => (book.setUp hook).getD book
    | none => book
  let client :=
    if c.runtime.isNone then .error .noRuntime
    else match Address.parse? c.address with
      | none => .error .malformedAddress
      | some address =>
        let settings := address.settings
        if address.isUsable (c.clientOptions { direct := settings.direct }).direct then
          .ok ⟨c.database, settings.confirmation.map fun confirmation => ⟨some confirmation⟩⟩
        else .error .malformedAddress
  (client, book)

/-- A time span: in seconds with a fraction, or below one second in whole milliseconds. -/
def durationText (millis : Nat) : String :=
  let fraction := (toString (1000 + millis % 1000)).drop 1
  let digits := fraction.toString.toList.reverse.dropWhile (· = '0')
  if 1000 ≤ millis then
    toString (millis / 1000) ++ (if digits.isEmpty then "" else ".") ++
      String.ofList digits.reverse ++ "s"
  else if 0 < millis then toString millis ++ "ms"
  else "0ns"

/-- The outline of a description, without the password. -/
def outline (c : Connection) : Outline :=
  .record "MongoDbStoreBuilder"
    [("dsn", .text c.address),
      ("database", .text c.database),
      ("app_name", .option .text c.appName),
      ("username", .option (fun user => .text user.username) c.credentials),
      ("password", .option (fun _ => .text "<redacted>") c.credentials),
      ("direct_connection", .bool c.direct),
      ("connect_timeout", .atom (durationText c.timeoutMillis)),
      ("runtime", .option (fun runtime => .atom runtime.name) c.runtime),
      ("on_initialize", .bool c.hook.isSome)]

end Connection

end Dossier.Mongo
