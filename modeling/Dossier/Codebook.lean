import Dossier.Codebook.Keys
import Dossier.Error
import Dossier.Text.Dotted

/-!
# Codebooks

A codebook holds the codecs and key policies that documents pass through on their way to a backend
and back. It is set up at most once: a hook registers into an empty staging codebook, which is then
merged in. Registrations are never replaced or removed.

* **`Codebook`**, `Codec`, `Policy`;
* `registerPolicies`, `registerCodec`: registrations, refused when empty or already there;
* **`commit`**: merges a staged codebook, once; `setUp` runs a hook first;
* **`encodeDocument`**, **`decodeDocument`**, `encodeOperand`: the passages.
-/

namespace Dossier

/-- The two ways of one field's value between a document and its stored form. -/
structure Codec where
  encode : Value → Except StoreError Value
  decode : Value → Except StoreError Value

/-- Rules for whole documents. -/
inductive Policy where
  /-- Keys are stored with tokens in place of reserved characters. -/
  | escapeReservedKeys
  deriving DecidableEq, Repr

/-- The name of a policy. -/
def Policy.name : Policy → String
  | .escapeReservedKeys => "EscapeReservedKeys"

/-- Codecs by dotted field path, and named packs of policies. -/
structure Codebook where
  ready : Bool := false
  packs : List (String × List Policy) := []
  codecs : Entries Codec := []

/-- Applies `f` to the value at a path through nested documents. A path that ends early changes
nothing, one that meets another value on its way fails. -/
def Document.mapAt (f : Value → Except StoreError Value) :
    List String → Document → Except StoreError Document
  | [], d => .ok d
  | [key], d =>
    match Entries.find? d key with
    | some v => (f v).map (Entries.insert d key)
    | none => .ok d
  | key :: next :: rest, d =>
    match Entries.find? d key with
    | some (.document inner) =>
      (mapAt f (next :: rest) inner).map fun inner => Entries.insert d key (.document inner)
    | some _ => .error (.invalidDocument (.crossesValue (Dotted.join (key :: next :: rest))))
    | none => .ok d

namespace Codebook

/-- Nothing registered. -/
def empty : Codebook := {}

instance : Inhabited Codebook := ⟨empty⟩

/-- Registers a pack of policies; refused without a name, without policies, or when the name is
taken. -/
def registerPolicies (book : Codebook) (name : String) (policies : List Policy) : Option Codebook :=
  if name.isEmpty ∨ policies.isEmpty ∨ name ∈ book.packs.map Prod.fst then none
  else some { book with packs := book.packs ++ [(name, policies)] }

/-- Registers a codec for a field path; refused without a path, or when the path has one. -/
def registerCodec (book : Codebook) (field : String) (codec : Codec) : Option Codebook :=
  if field.isEmpty ∨ book.codecs.contains field then none
  else some { book with codecs := book.codecs ++ [(field, codec)] }

/-- Adds what another codebook holds; what collides is dropped. -/
def merge (book staged : Codebook) : Codebook :=
  let withPacks := staged.packs.foldl
    (fun book pack => (book.registerPolicies pack.1 pack.2).getD book) book
  staged.codecs.foldl (fun book entry => (book.registerCodec entry.1 entry.2).getD book) withPacks

/-- Merges a staged codebook and marks the result ready; refused when it is ready already. -/
def commit (book staged : Codebook) : Option Codebook :=
  if book.ready then none else some { book.merge staged with ready := true }

/-- Runs `hook` on an empty codebook and commits the result, unless the codebook is ready. -/
def setUp (book : Codebook) (hook : Codebook → Codebook) : Option Codebook :=
  if book.ready then none else book.commit (hook empty)

/-- Whether some pack holds the policy. -/
def follows (book : Codebook) (policy : Policy) : Bool :=
  book.packs.any fun pack => pack.2.contains policy

/-- The stored form of an operand on `field`: the codec of exactly that path, then the keys. -/
def encodeOperand (book : Codebook) (field : String) (v : Value) : Except StoreError Value := do
  let v ← match book.codecs.find? field with
    | some codec => codec.encode v
    | none => .ok v
  if book.follows .escapeReservedKeys then return v.renameKeys Keys.escape
  return v

/-- The stored form of a document: every codec at its path, then the keys. -/
def encodeDocument (book : Codebook) (d : Document) : Except StoreError Document := do
  let d ← book.codecs.foldlM
    (fun d entry => Document.mapAt entry.2.encode (Dotted.segments entry.1) d) d
  if book.follows .escapeReservedKeys then return d.renameKeys Keys.escape
  return d

/-- A document from its stored form: the keys, then every codec at its path. -/
def decodeDocument (book : Codebook) (d : Document) : Except StoreError Document :=
  let d := if book.follows .escapeReservedKeys then d.renameKeys Keys.restore else d
  book.codecs.foldlM (fun d entry => Document.mapAt entry.2.decode (Dotted.segments entry.1) d) d

end Codebook

end Dossier
