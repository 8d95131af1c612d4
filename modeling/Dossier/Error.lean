import Dossier.Identity
import Dossier.Operator

/-!
# Causes of failure

Every failure is a value that says what went wrong; its wording is given once, by `message`.

* `UpdateError`: an update that does not fit the document it meets;
* `BackendError`, `QueryError`, `DocumentError`, `ConversionError`, `ConfigError`,
  `ConnectionError`: the other families;
* **`StoreError`**: what an operation of the store can report.
-/

namespace Dossier

/-- Why an update does not fit a document. -/
inductive UpdateError where
  /-- `$` after an array in which the query's conditions single out no element. -/
  | unmatchedPosition (array : String)
  /-- `$[name]` without a binding for `name`. -/
  | unboundPlaceholder (name : String)
  /-- `$` or `$[name]` after a value that is no array. -/
  | positionOutsideArray (place : String)
  /-- A key that is no position, after an array. -/
  | keyInArray (key array : String)
  /-- A path that goes on through a value of this kind. -/
  | impassable (kind : ElementKind)
  /-- A path that ends below a value of this kind. -/
  | unassignable (kind : ElementKind)
  /-- An array operator on another value. -/
  | notAnArray (op : UpdateOp) (field : String)
  /-- An arithmetic operator on another value. -/
  | notANumber (op : UpdateOp) (kind : ElementKind) (field : String)
  /-- An integer result beyond 64 bits. -/
  | overflow (field : String)
  deriving DecidableEq, Repr

/-- The wording of an update failure. -/
def UpdateError.message : UpdateError → String
  | .unmatchedPosition array =>
    "the positional operator did not find the match needed from the query for '" ++ array ++ "'"
  | .unboundPlaceholder name => "no array filter found for identifier '" ++ name ++ "'"
  | .positionOutsideArray place =>
    "positional operator applied to non-array field '" ++ place ++ "'"
  | .keyInArray key array => "cannot create field '" ++ key ++ "' in array '" ++ array ++ "'"
  | .impassable kind => "cannot traverse into a " ++ kind.name ++ " value"
  | .unassignable kind => "cannot set a field on a " ++ kind.name ++ " value"
  | .notAnArray op field => op.name ++ " requires '" ++ field ++ "' to be an array"
  | .notANumber op kind field =>
    "cannot apply " ++ op.name ++ " to a non-numeric " ++ kind.name ++ " field '" ++ field ++ "'"
  | .overflow field => "integer overflow updating '" ++ field ++ "'"

/-- What a backend can report. -/
inductive BackendError where
  | update (cause : UpdateError)
  /-- A blocking operation on a backend that cannot hold up the current thread. -/
  | cannotBlock (collection : String)
  /-- A failure in the backend's own words. -/
  | reported (report : String)
  deriving DecidableEq, Repr

/-- The wording of a backend failure. -/
def BackendError.message : BackendError → String
  | .update cause => cause.message
  | .cannotBlock collection =>
    "the backend of collection " ++ collection ++ " cannot block the current thread"
  | .reported report => report

/-- Why a query cannot drive an operation. -/
inductive QueryError where
  | withoutUpdates
  | notAnAmount (found : ElementKind)
  deriving DecidableEq, Repr

/-- The wording of a query failure. -/
def QueryError.message : QueryError → String
  | .withoutUpdates => "the accessor does not define any update operation"
  | .notAnAmount found =>
    "numeric updates require an int32, int64 or double operand, got " ++ found.name

/-- Why a document cannot be stored or restored. -/
inductive DocumentError where
  | notADocument (found : ElementKind)
  /-- A codec whose path leads through a value that is no document; `path` is what is left of it. -/
  | crossesValue (path : String)
  /-- A codec's refusal. -/
  | rejected (reason : String)
  deriving DecidableEq, Repr

/-- The wording of a document failure. -/
def DocumentError.message : DocumentError → String
  | .notADocument found => "expected a document, found " ++ found.name
  | .crossesValue path => "field codec path " ++ path ++ " crosses a non-document value"
  | .rejected reason => reason

/-- Why a value and a typed datum do not convert into each other. -/
inductive ConversionError where
  | unexpected (found : ElementKind)
  | outOfRange (n : Int)
  | missingField (name : String)
  | notAnIdentity
  /-- An extended form with a content that it does not have. -/
  | malformedForm
  | malformedJson
  | unsupported (reason : String)
  deriving DecidableEq, Repr

/-- The wording of a conversion failure. -/
def ConversionError.message : ConversionError → String
  | .unexpected found => "unexpected " ++ found.name
  | .outOfRange n => toString n ++ " is out of range"
  | .missingField name => "missing field " ++ name
  | .notAnIdentity => "expected an object id, an integer or a UUID string"
  | .malformedForm => "malformed extended form"
  | .malformedJson => "malformed JSON"
  | .unsupported reason => reason

/-- Why a configuration is refused. -/
inductive ConfigError where
  | malformed
  | emptyDatabase
  | loneCredential
  | unavailable
  deriving DecidableEq, Repr

/-- The wording of a configuration failure. -/
def ConfigError.message : ConfigError → String
  | .malformed => "not a store configuration"
  | .emptyDatabase => "database name is empty"
  | .loneCredential => "username and password must be given together"
  | .unavailable => "the mongodb backend requires the `mongodb` feature"

/-- Why a client cannot be set up. -/
inductive ConnectionError where
  | noRuntime
  | malformedAddress
  deriving DecidableEq, Repr

/-- The wording of a failure to connect. -/
def ConnectionError.message : ConnectionError → String
  | .noRuntime => "there is no runtime to run the client on"
  | .malformedAddress => "malformed connection string"

/-- What an operation of the store can report. -/
inductive StoreError where
  | serialization (cause : ConversionError)
  | initialization (cause : ConnectionError)
  | invalidId (scheme : Identity.Scheme) (text : String)
  | invalidDocument (cause : DocumentError)
  | invalidAccessor (cause : QueryError)
  | multipleResults (collection : String)
  | backend (cause : BackendError)
  | configuration (cause : ConfigError)
  deriving DecidableEq, Repr

/-- The family of a failure. -/
def StoreError.family : StoreError → String
  | .serialization _ => "Serialization"
  | .initialization _ => "Initialization"
  | .invalidId _ _ => "InvalidId"
  | .invalidDocument _ => "InvalidDocument"
  | .invalidAccessor _ => "InvalidAccessor"
  | .multipleResults _ => "MultipleResults"
  | .backend _ => "Backend"
  | .configuration _ => "Configuration"

/-- The wording of a failure. -/
def StoreError.message : StoreError → String
  | .serialization cause => "Serialization error: " ++ cause.message
  | .initialization cause => "Initialization error: " ++ cause.message
  | .invalidId scheme text => "Invalid " ++ scheme.name ++ " id: " ++ text
  | .invalidDocument cause => "Invalid document: " ++ cause.message
  | .invalidAccessor cause => "Invalid accessor: " ++ cause.message
  | .multipleResults collection =>
    "Filter matched more than a single document in collection " ++ collection
  | .backend cause => "Backend error: " ++ cause.message
  | .configuration cause => "Configuration error: " ++ cause.message

namespace Identity

/-- Reads an identity of the given scheme. -/
def parse (scheme : Scheme) (text : String) : Except StoreError Identity :=
  match parse? scheme text with
  | some id => .ok id
  | none => .error (.invalidId scheme text)

/-- Reads a new identity of the same scheme; on failure the old one stays. -/
def reset (id : Identity) (text : String) : Except StoreError Unit × Identity :=
  match parse id.scheme text with
  | .ok next => (.ok (), next)
  | .error cause => (.error cause, id)

end Identity

end Dossier
