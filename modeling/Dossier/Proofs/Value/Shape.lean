import Mathlib
import Dossier.Number.Double
import Dossier.Value

/-!
# Properties at every depth of a value

Values nest through arrays, documents and the scopes of code.

* **`Value.induct`**: induction over that nesting, with a hypothesis for every nested value;
* `Value.Everywhere`: a property of a value and of all values inside;
* **`Value.WellFormed`**: every document inside has each key once, as stored documents do;
* **`Value.NaNFree`**: no number inside is NaN.
-/

namespace Dossier

namespace Value

/-- Whether a value holds no other values. -/
def isAtom : Value → Bool
  | array _ | document _ | codeWithScope _ _ => false
  | _ => true

/-- **Induction over nested values.** -/
theorem induct {P : Value → Prop} (atom : ∀ v : Value, v.isAtom = true → P v)
    (array : ∀ items, (∀ v ∈ items, P v) → P (array items))
    (document : ∀ fields : List (String × Value), (∀ f ∈ fields, P f.2) → P (document fields))
    (codeWithScope : ∀ (source : String) (scope : List (String × Value)), (∀ f ∈ scope, P f.2) →
      P (codeWithScope source scope)) (v : Value) : P v := by
  refine @Value.rec P (fun items => ∀ v ∈ items, P v) (fun fields => ∀ f ∈ fields, P f.2)
    (fun f => P f.2) (atom _ rfl) (fun _ => atom _ rfl) (fun _ => atom _ rfl) (fun _ => atom _ rfl)
    (fun _ => atom _ rfl) (fun _ => atom _ rfl) (fun items => array items)
    (fun fields => document fields) (fun _ => atom _ rfl) (fun _ => atom _ rfl)
    (fun _ _ => atom _ rfl) (fun _ _ => atom _ rfl) (fun _ => atom _ rfl) (fun _ _ => atom _ rfl)
    (fun _ => atom _ rfl) (fun source scope => codeWithScope source scope) (fun _ => atom _ rfl)
    (fun _ _ => atom _ rfl) (atom _ rfl) (atom _ rfl) (atom _ rfl)
    (fun _ h => absurd h List.not_mem_nil) ?_ (fun _ h => absurd h List.not_mem_nil) ?_
    (fun _ _ h => h) v
  · intro first rest hfirst hrest v hv
    rcases List.mem_cons.mp hv with rfl | hv
    · exact hfirst
    · exact hrest v hv
  · intro first rest hfirst hrest f hf
    rcases List.mem_cons.mp hf with rfl | hf
    · exact hfirst
    · exact hrest f hf

end Value

/-! ## Everywhere in a value -/

mutual

/-- A property of a value and of all values inside. -/
def Value.Everywhere (p : Value → Prop) : Value → Prop
  | .array items => p (.array items) ∧ Value.EverywhereItems p items
  | .document fields => p (.document fields) ∧ Value.EverywhereFields p fields
  | .codeWithScope source scope =>
    p (.codeWithScope source scope) ∧ Value.EverywhereFields p scope
  | v => p v

/-- A property of all values in a list and inside them. -/
def Value.EverywhereItems (p : Value → Prop) : List Value → Prop
  | [] => True
  | v :: rest => Value.Everywhere p v ∧ Value.EverywhereItems p rest

/-- A property of all values in a list of fields and inside them. -/
def Value.EverywhereFields (p : Value → Prop) : List (String × Value) → Prop
  | [] => True
  | (_, v) :: rest => Value.Everywhere p v ∧ Value.EverywhereFields p rest

end

namespace Value

variable {p : Value → Prop}

theorem everywhereItems_iff {items : List Value} :
    EverywhereItems p items ↔ ∀ v ∈ items, v.Everywhere p := by
  induction items with
  | nil => simp [EverywhereItems]
  | cons v rest ih => simp [EverywhereItems, ih]

theorem everywhereFields_iff {fields : List (String × Value)} :
    EverywhereFields p fields ↔ ∀ f ∈ fields, f.2.Everywhere p := by
  induction fields with
  | nil => simp [EverywhereFields]
  | cons f rest ih => simp [EverywhereFields, ih]

theorem everywhere_array {items : List Value} :
    (array items).Everywhere p ↔ p (array items) ∧ ∀ v ∈ items, v.Everywhere p := by
  rw [Everywhere, everywhereItems_iff]

theorem everywhere_document {fields : List (String × Value)} :
    (document fields).Everywhere p ↔ p (document fields) ∧ ∀ f ∈ fields, f.2.Everywhere p := by
  rw [Everywhere, everywhereFields_iff]

theorem everywhere_codeWithScope {source : String} {scope : List (String × Value)} :
    (codeWithScope source scope).Everywhere p ↔
      p (codeWithScope source scope) ∧ ∀ f ∈ scope, f.2.Everywhere p := by
  rw [Everywhere, everywhereFields_iff]

theorem everywhere_of_isAtom {v : Value} (h : v.isAtom = true) : v.Everywhere p ↔ p v := by
  cases v <;> simp_all [isAtom, Everywhere]

theorem Everywhere.self {v : Value} (h : v.Everywhere p) : p v := by
  cases v <;> first | exact h.1 | exact h

/-! ## Keys that occur once -/

/-- A document or scope has every key once; other values have no keys. -/
def DistinctKeys : Value → Prop
  | document fields => Entries.Distinct fields
  | codeWithScope _ scope => Entries.Distinct scope
  | _ => True

/-- Every document inside has each key once. -/
def WellFormed (v : Value) : Prop := v.Everywhere DistinctKeys

@[simp] theorem wellFormed_array {items : List Value} :
    (array items).WellFormed ↔ ∀ v ∈ items, v.WellFormed := by
  simp [WellFormed, everywhere_array, DistinctKeys]

@[simp] theorem wellFormed_document {fields : List (String × Value)} :
    (document fields).WellFormed ↔ Entries.Distinct fields ∧ ∀ f ∈ fields, f.2.WellFormed :=
  everywhere_document

@[simp] theorem wellFormed_codeWithScope {source : String} {scope : List (String × Value)} :
    (codeWithScope source scope).WellFormed ↔
      Entries.Distinct scope ∧ ∀ f ∈ scope, f.2.WellFormed :=
  everywhere_codeWithScope

theorem wellFormed_of_isAtom {v : Value} (h : v.isAtom = true) : v.WellFormed := by
  rw [WellFormed, everywhere_of_isAtom h]
  cases v <;> first | exact trivial | simp [isAtom] at h

/-! ## Numbers -/

/-- A value other than the double NaN. -/
def NotNaN : Value → Prop
  | double x => Double.isNaN x = false
  | _ => True

/-- No number inside is NaN. -/
def NaNFree (v : Value) : Prop := v.Everywhere NotNaN

end Value

/-- Every document inside, and the document itself, has each key once. -/
def Document.WellFormed (d : Document) : Prop := (Value.document d).WellFormed

end Dossier
