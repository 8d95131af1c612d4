import Dossier.Text.Cut
import Dossier.Text.Percent

/-!
# Logging in to a MongoDB server

* **`User`**, `User.parse?`: an escaped name and an optional escaped password;
* `Mechanism`: the ways to log in;
* **`Mechanism.accepts`**: whether a user, or none, can log in that way.
-/

namespace Dossier.Mongo

/-- A user's name and optional password, as an address gives them. -/
structure User where
  name : String
  password : Option String
  deriving DecidableEq, Repr

namespace User

/-- The characters that a name and a password have to escape. -/
def reserved : List Char := [':', '/', '?', '#', '[', ']', '@']

/-- A name or a password. -/
def part? (cs : List Char) : Option String :=
  if cs.any reserved.contains || !Percent.isComplete cs then none else Percent.decode? cs

/-- Reads a user; an empty name is none. -/
def parse? (cs : List Char) : Option (Option User) := do
  let (name, password) := Cut.cutAt ':' cs
  let name ← part? name
  let password ← password.mapM part?
  return if name.isEmpty then none else some ⟨name, password⟩

end User

/-- A way to log in. -/
inductive Mechanism where
  | scramSha1 | scramSha256 | challenge | certificate | plain | token
  deriving DecidableEq, Repr

namespace Mechanism

/-- The name of a way to log in. -/
def name : Mechanism → String
  | scramSha1 => "SCRAM-SHA-1"
  | scramSha256 => "SCRAM-SHA-256"
  | challenge => "MONGODB-CR"
  | certificate => "MONGODB-X509"
  | plain => "PLAIN"
  | token => "MONGODB-OIDC"

/-- The way to log in with a given name. -/
def ofName? (text : String) : Option Mechanism :=
  [scramSha1, scramSha256, challenge, certificate, plain, token].find? (·.name = text)

/-- The database of users that are known outside of the server. -/
def external : String := "$external"

/-- Whether a user, or none, can log in, given the database that should know the user. -/
def accepts (user : Option User) (source : Option String) : Mechanism → Bool
  | scramSha1 | scramSha256 => user.isSome
  | challenge => true
  | plain => user.any (·.password.isSome)
  | certificate | token => user.all (·.password.isNone) && source.all (· = external)

end Mechanism

end Dossier.Mongo
