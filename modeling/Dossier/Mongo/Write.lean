import Dossier.Batch
import Dossier.Mongo.Update

/-!
# Writes to a MongoDB server

* **`WriteModel`**, `WriteModel.ofWrite`: one write of a batch command. None of them inserts when
  nothing matches;
* `speaksBatch`: whether a server takes a batch in one command;
* `WriteConcern`, `WriteConcern.acknowledges`: whether a server answers writes;
* `count`, `outcome`: the result of a write.
-/

namespace Dossier.Mongo

/-- A write of a batch command. -/
inductive WriteModel where
  | insert (document : Document)
  | update (filter update : Document) (arrayFilters : Option (List Document))
  | replace (filter replacement : Document)
  | delete (filter : Document)

/-- The form of a write in a batch command. -/
def WriteModel.ofWrite : Write Document → WriteModel
  | .create d => insert d
  | .update q => update (filter q.conditions) (Mongo.update q.updates) (arrayFilters q.bindings)
  | .replace q d => replace (filter q.conditions) d
  | .delete q => delete (filter q.conditions)

/-- The full name of a collection. -/
def fullName (database collection : String) : String := database ++ "." ++ collection

/-- The first version of the wire protocol that has the batch command. -/
def batchVersion : Int := 25

/-- Whether a server takes a batch in one command, by its greeting. -/
def speaksBatch (greeting : Document) : Bool :=
  match greeting.find? "maxWireVersion" with
  | some (.int32 version) => batchVersion ≤ version.toInt
  | some (.int64 version) => batchVersion ≤ version.toInt
  | _ => false

/-- How many servers have to confirm a write. -/
inductive Confirmation where
  | nodes (count : Nat)
  | majority
  /-- As a rule of the server's configuration says. -/
  | rule (name : String)
  deriving DecidableEq, Repr

/-- The confirmation that a text asks for. -/
def Confirmation.ofText (text : String) : Confirmation :=
  if text = "majority" then majority else rule text

/-- What is asked of a server for writes. -/
structure WriteConcern where
  confirmation : Option Confirmation := none
  deriving DecidableEq, Repr

/-- Whether writes are answered: only without any confirming server they are not. -/
def WriteConcern.acknowledges (concern : Option WriteConcern) : Bool :=
  (concern.bind WriteConcern.confirmation) ≠ some (.nodes 0)

/-- A count that a server reports; negative counts are none. -/
def count (reported : Int64) : Nat := reported.toInt.toNat

/-- The outcome of a write that affected so many documents. -/
def outcome (concern : Option WriteConcern) (affected : Nat) : Outcome :=
  if WriteConcern.acknowledges concern then .ofCount affected else .unacknowledged

end Dossier.Mongo
