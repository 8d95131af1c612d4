import Dossier.Text.CodePoints
import Dossier.Text.Hex
import Dossier.Text.Quoted.Table

/-!
# Quoted texts

* **`quote`**: a text between double quotes. Quotes, backslashes, tabs, line ends and NUL are
  escaped by a letter; characters that are not shown, or only as part of the one before them, by
  their code point.
-/

namespace Dossier.Quoted

/-- The letter of a short escape. -/
def shortEscape? : Char → Option Char
  | '"' => some '"'
  | '\\' => some '\\'
  | '\n' => some 'n'
  | '\r' => some 'r'
  | '\t' => some 't'
  | '\x00' => some '0'
  | _ => none

/-- Whether a character is escaped by its code point. -/
def isHidden (c : Char) : Bool :=
  CodePoints.mem Table.extending c || CodePoints.mem Table.unprintable c

/-- A character between quotes. -/
def quoteChar (c : Char) : List Char :=
  match shortEscape? c with
  | some letter => ['\\', letter]
  | none =>
    if isHidden c then '\\' :: 'u' :: '{' :: (Hex.shortest c.toNat).toList ++ ['}'] else [c]

/-- A text between double quotes. -/
def quote (text : String) : String :=
  String.ofList ('"' :: text.toList.flatMap quoteChar ++ ['"'])

end Dossier.Quoted
