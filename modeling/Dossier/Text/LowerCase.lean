import Dossier.Text.CodePoints
import Dossier.Text.LowerCase.Table

/-!
# Lower case

Collection names do not depend on case: they are used in lower case. The mapping is that of single
characters but for two rules: capital sigma at the end of a word becomes the final sigma, and the
dotted capital I becomes two characters.

* **`lower`**: a text in lower case;
* `lowerFrom`: the mapping in the context of the characters before.
-/

namespace Dossier.LowerCase

/-- Whether the first character that is not looked through has case. -/
def meetsCased : List Char → Bool
  | [] => false
  | c :: rest =>
    if CodePoints.mem Table.ignorable c then meetsCased rest else CodePoints.mem Table.cased c

/-- The lower-case form of a single character. -/
def lowerChar (c : Char) : Char :=
  let run := Table.lower.find? fun (first, last, step, _) =>
    first ≤ c.toNat && c.toNat ≤ last && (c.toNat - first) % step == 0
  match run with
  | some (_, _, _, offset) => Char.ofNat (c.toNat + offset).toNat
  | none => c

/-- The lower-case form of a character between `before`, nearest first, and `after`. -/
def lowerIn (before : List Char) (c : Char) (after : List Char) : List Char :=
  if c = 'Σ' then [if meetsCased before && !meetsCased after then 'ς' else 'σ']
  else if c = 'İ' then ['i', '\u0307']
  else [lowerChar c]

/-- The lower-case form of the characters after `before`, nearest first. -/
def lowerFrom (before : List Char) : List Char → List Char
  | [] => []
  | c :: after => lowerIn before c after ++ lowerFrom (c :: before) after

/-- A text in lower case. -/
def lower (text : String) : String := String.ofList (lowerFrom [] text.toList)

end Dossier.LowerCase
