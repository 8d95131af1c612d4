import Dossier.Value

/-!
# Reserved characters in keys

Dots, dollar signs and NUL are reserved for paths and operators. Stored keys carry a token in place
of each.

* **`escape`**: writes the token of every reserved character;
* **`restore`**: reads the tokens back, one kind after the other, NUL first and dot last;
* `Value.renameKeys`, `Document.renameKeys`: a renaming at every depth of a value. Keys that become
  equal are merged: the first place, the last value.
-/

namespace Dossier

namespace Keys

/-- The token written for a reserved character. -/
def token? : Char → Option (List Char)
  | '.' => some "__dot__".toList
  | '$' => some "__dollar__".toList
  | '\x00' => some "__null__".toList
  | _ => none

/-- A key with a token in place of every reserved character. -/
def escapeChars (key : List Char) : List Char :=
  key.flatMap fun c => (token? c).getD [c]

/-- The occurrences of `token` in a text, from the left and without overlap, replaced by `c`.
`skip` characters of an occurrence are still to be left out. -/
def replaceFrom (token : List Char) (c : Char) (skip : Nat) : List Char → List Char
  | [] => []
  | x :: rest =>
    match skip with
    | skip + 1 => replaceFrom token c skip rest
    | 0 =>
      if token.isPrefixOf (x :: rest) then c :: replaceFrom token c (token.length - 1) rest
      else x :: replaceFrom token c 0 rest

/-- The occurrences of the token of `c` replaced by `c`. -/
def restoreChar (key : List Char) (c : Char) : List Char :=
  match token? c with
  | some token => replaceFrom token c 0 key
  | none => key

/-- The reserved characters in the order in which they are restored. -/
def restoreOrder : List Char := ['\x00', '$', '.']

/-- A key with the tokens read back. -/
def restoreChars (key : List Char) : List Char := restoreOrder.foldl restoreChar key

/-- A key with a token in place of every reserved character. -/
def escape (key : String) : String := String.ofList (escapeChars key.toList)

/-- A key with the tokens read back. -/
def restore (key : String) : String := String.ofList (restoreChars key.toList)

end Keys

mutual

/-- Renames the keys of every document in a value. -/
def Value.renameKeys (rename : String → String) : Value → Value
  | .document fields => .document (Entries.ofList (Value.renameFields rename fields))
  | .array items => .array (Value.renameItems rename items)
  | v => v

/-- Renames the keys in every value of a list. -/
def Value.renameItems (rename : String → String) : List Value → List Value
  | [] => []
  | v :: rest => Value.renameKeys rename v :: Value.renameItems rename rest

/-- Renames the keys of a list of fields, and those inside. -/
def Value.renameFields (rename : String → String) : List (String × Value) → List (String × Value)
  | [] => []
  | (key, v) :: rest => (rename key, Value.renameKeys rename v) :: Value.renameFields rename rest

end

/-- Renames the keys of a document at every depth. -/
def Document.renameKeys (rename : String → String) (d : Document) : Document :=
  Entries.ofList (Value.renameFields rename d)

end Dossier
