import Dossier.Text.Quoted

/-!
# Outlines

An outline shows data for diagnosis: names, named fields, lists and tables on one line.

* **`Outline`**, **`Outline.render`**;
* `Outline.text`, `Outline.option`, `Outline.bool`: outlines of common data.
-/

namespace Dossier

/-- The structure of what is shown. -/
inductive Outline where
  /-- Text that is shown as it is. -/
  | atom (text : String)
  /-- A name before parts in parentheses. -/
  | tuple (name : String) (parts : List Outline)
  /-- A name before named parts in braces. -/
  | record (name : String) (parts : List (String × Outline))
  | list (items : List Outline)
  /-- Parts under quoted keys. -/
  | table (entries : List (String × Outline))
  deriving Inhabited

namespace Outline

/-- A text in quotes. -/
def text (text : String) : Outline := atom (Quoted.quote text)

/-- A truth value. -/
def bool (b : Bool) : Outline := atom (if b then "true" else "false")

/-- An optional part. -/
def option {α : Type} (f : α → Outline) : Option α → Outline
  | none => atom "None"
  | some a => tuple "Some" [f a]

/-- Puts commas between texts. -/
def commas (texts : List String) : String := String.intercalate ", " texts

/-- An opening brace, for records and tables. -/
def openBrace : String := "\x7b"

/-- A closing brace. -/
def closeBrace : String := "\x7d"

mutual

/-- The text of an outline. -/
def render : Outline → String
  | atom text => text
  | tuple name parts => name ++ "(" ++ commas (renderAll parts) ++ ")"
  | record name parts =>
    name ++ " " ++ openBrace ++ " " ++ commas (renderNamed parts) ++ " " ++ closeBrace
  | list items => "[" ++ commas (renderAll items) ++ "]"
  | table entries => openBrace ++ commas (renderKeyed entries) ++ closeBrace

/-- The texts of parts. -/
def renderAll : List Outline → List String
  | [] => []
  | part :: rest => render part :: renderAll rest

/-- The texts of named parts. -/
def renderNamed : List (String × Outline) → List String
  | [] => []
  | (name, part) :: rest => (name ++ ": " ++ render part) :: renderNamed rest

/-- The texts of parts under keys. -/
def renderKeyed : List (String × Outline) → List String
  | [] => []
  | (key, part) :: rest => (Quoted.quote key ++ ": " ++ render part) :: renderKeyed rest

end

end Outline

end Dossier
