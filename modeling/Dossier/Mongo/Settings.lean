import Dossier.Mongo.Login
import Dossier.Mongo.Write
import Dossier.Number.Width
import Dossier.Text.LowerCase
import Dossier.Text.Numeral

/-!
# Settings of an address

The address of a server may end in options, each a key and a value. Of options that say the same,
the last one counts.

* **`Settings`**: what options say, as far as a client can be refused for it;
* `Settings.options`, **`Settings.take?`**: the options that there are and the values they take.
  Options that need a file, a name service or a compressor are not among them;
* **`Settings.agree`**: whether settings make sense together.
-/

namespace Dossier.Mongo

/-- Which servers of a group answer reads. -/
inductive ReadMode where
  | primary | primaryPreferred | secondary | secondaryPreferred | nearest
  deriving DecidableEq, Repr

/-- The mode with a given name, in either case. -/
def ReadMode.ofName? (text : String) : Option ReadMode :=
  [("primary", primary), ("primarypreferred", primaryPreferred), ("secondary", secondary),
    ("secondarypreferred", secondaryPreferred), ("nearest", nearest)].lookup (LowerCase.lower text)

/-- What the options of an address say. -/
structure Settings where
  confirmation : Option Confirmation := none
  /-- Whether writes are confirmed only after they are in the journal. -/
  journal : Bool := false
  /-- Whether the only host is addressed as it is, even in a group. -/
  direct : Option Bool := none
  /-- Whether the only host shares the work among others. -/
  balanced : Bool := false
  /-- Whether the hosts form a named group. -/
  grouped : Bool := false
  readMode : Option ReadMode := none
  /-- Whether servers have to bear marks to answer reads. -/
  readMarks : Bool := false
  /-- By how many seconds a server that answers reads may be behind. -/
  staleness : Option Nat := none
  /-- After how many milliseconds a server is asked how it is. -/
  heartbeat : Nat := 10000
  /-- How many connections there may be at a time. -/
  poolSize : Option Nat := none
  encrypted : Option Bool := none
  /-- Whether a server is trusted whatever its certificate says. -/
  trusting : Option Bool := none
  mechanism : Option Mechanism := none
  /-- The database that knows the user. -/
  source : Option String := none
  deriving Repr

namespace Settings

/-! ## Values -/

/-- A truth value. -/
def flag? (text : String) : Option Bool := [("true", true), ("false", false)].lookup text

/-- A number below a bound. -/
def number? (bound : Nat) (text : String) : Option Nat := (Numeral.natural? text).filter (· < bound)

/-- A time in milliseconds. -/
def millis? (text : String) : Option Nat := number? UInt64.size text

/-- The confirmation that is asked for: a number of servers or the name of a rule. -/
def confirmation? (text : String) : Option Confirmation :=
  match (Numeral.integer? text).bind Width.int32? with
  | some n => if n.toInt < 0 then none else some (.nodes n.toInt.toNat)
  | none => some (.ofText text)

/-- Whether a text is a key and a value, neither of them empty, with a colon between them. -/
def isProperty (cs : List Char) : Bool :=
  let (key, value) := Cut.cutAt ':' cs
  !key.isEmpty && value.any (!·.isEmpty)

/-- Whether a text lists properties. -/
def areProperties (text : String) : Bool := (Cut.splitAt ',' text.toList).all isProperty

/-- Whether a text lists marks: keys and values with colons between them. -/
def areMarks (text : String) : Bool :=
  text.isEmpty || (Cut.splitAt ',' text.toList).all (·.contains ':')

/-- The shortest time between two questions to a server, in milliseconds. -/
def leastHeartbeat : Nat := 500

/-! ## Options -/

/-- An option: what its value adds to the settings, if it is a value of that option. -/
abbrev Reader := String → Settings → Option Settings

/-- An option that is not looked at. -/
def ignoring (isValue : String → Bool) : Reader :=
  fun text s => if isValue text then some s else none

/-- An option that is not looked at and takes one of some values, in either case. -/
def choosing (values : List String) : Reader := ignoring (values.contains <| LowerCase.lower ·)

/-- An option that is not looked at and takes a time. -/
def ignoringMillis : Reader := ignoring (millis? · |>.isSome)

/-- An option that is not looked at and takes a size. -/
def ignoringSize : Reader := ignoring (number? UInt32.size · |>.isSome)

/-- An option that is not looked at and takes a truth value. -/
def ignoringFlag : Reader := ignoring (flag? · |>.isSome)

/-- An option whose value is kept. -/
def keeping (value? : String → Option α) (keep : Settings → α → Settings) : Reader :=
  fun text s => (value? text).map (keep s)

/-- Asks for encryption, or for none; the first wish stands. -/
def encrypting : Reader := fun text s => do
  let wanted ← flag? text
  if s.encrypted.any (· ≠ wanted) then none else some { s with encrypted := some wanted }

/-- Asks to trust any certificate, or not; the first wish stands. To speak of certificates is to ask
for encryption. -/
def trustingIf (answer : Bool) : Reader := fun text s => do
  let wanted := (← flag? text) == answer
  if s.encrypted = some false || s.trusting.any (· ≠ wanted) then none
  else some { s with encrypted := some true, trusting := some wanted }

/-- Limits how far a server may be behind; -1 says nothing. -/
def limiting : Reader := fun text s => do
  let n := (← (Numeral.integer? text).bind Width.int64?).toInt
  if n < -1 then none else if n = -1 then some s else some { s with staleness := some n.toNat }

/-- The options that an address may have. -/
def options : List (String × Reader) :=
  [("appname", ignoring fun _ => true),
    ("authmechanism", keeping Mechanism.ofName? fun s m => { s with mechanism := some m }),
    ("authmechanismproperties", ignoring areProperties),
    ("authsource", keeping some fun s source => { s with source := some source }),
    ("connecttimeoutms", ignoringMillis),
    ("directconnection", keeping flag? fun s wanted => { s with direct := some wanted }),
    ("heartbeatfrequencyms", keeping (fun text => (millis? text).filter (leastHeartbeat ≤ ·))
      fun s time => { s with heartbeat := time }),
    ("journal", keeping flag? fun s wanted => { s with journal := wanted }),
    ("loadbalanced", keeping flag? fun s balanced => { s with balanced }),
    ("localthresholdms", ignoringMillis),
    ("maxconnecting", ignoringSize),
    ("maxidletimems", ignoringMillis),
    ("maxpoolsize", keeping (number? UInt32.size) fun s size => { s with poolSize := some size }),
    ("maxstalenessseconds", limiting),
    ("minpoolsize", ignoringSize),
    ("readconcernlevel", ignoring fun _ => true),
    ("readpreference", keeping ReadMode.ofName? fun s mode => { s with readMode := some mode }),
    ("readpreferencetags", fun text s =>
      if areMarks text then some { s with readMarks := true } else none),
    ("replicaset", fun _ s => some { s with grouped := true }),
    ("retryreads", ignoringFlag),
    ("retrywrites", ignoringFlag),
    ("servermonitoringmode", choosing ["stream", "poll", "auto"]),
    ("serverselectiontimeoutms", ignoringMillis),
    ("sockettimeoutms", ignoringMillis),
    ("ssl", encrypting),
    ("tls", encrypting),
    ("tlsallowinvalidcertificates", trustingIf true),
    ("tlsinsecure", trustingIf false),
    ("uuidrepresentation", choosing ["csharplegacy", "javalegacy", "pythonlegacy"]),
    ("w", keeping confirmation? fun s asked => { s with confirmation := some asked }),
    ("waitqueuetimeoutms", ignoringMillis),
    ("wtimeoutms", ignoringMillis)]

/-- Takes over an option; its key may be in either case. -/
def take? (settings : Settings) (key value : String) : Option Settings :=
  (options.lookup (LowerCase.lower key)).bind fun read => read value settings

/-! ## Settings together -/

/-- How long a server may go without a write, in milliseconds. -/
def idlePeriod : Nat := 10000

/-- Whether a server can be known to be at most so many seconds behind; 0 stands for any number. -/
def isKnowable (settings : Settings) (seconds : Nat) : Bool :=
  seconds = 0 || (90 ≤ seconds && settings.heartbeat + idlePeriod ≤ 1000 * seconds)

/-- Whether the servers that answer reads can be chosen as the settings say: marks and a limit need a
mode that has a choice. -/
def readsAgree (settings : Settings) : Bool :=
  match settings.readMode with
  | none | some .primary => !settings.readMarks && settings.staleness.isNone
  | some _ => settings.staleness.all settings.isKnowable

/-- Whether writes can be confirmed as the settings say. -/
def writesAgree (settings : Settings) : Bool :=
  !(settings.confirmation = some (.nodes 0) && settings.journal)

/-- Whether settings make sense together. -/
def agree (settings : Settings) : Bool :=
  settings.readsAgree && settings.writesAgree && settings.poolSize ≠ some 0

end Settings

end Dossier.Mongo
