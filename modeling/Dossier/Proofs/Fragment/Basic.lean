import Dossier.Outline.Query

/-!
# Fragments

A fragment is what is recorded of a condition or of an update for a backend to read: a field, an
operator and an operand, in any combination. The table of operators says which of them belong
together.

* **`FilterFragment`**, **`UpdateFragment`**, `Fragments`: the records;
* **`FilterFragment.Fits`**, **`UpdateFragment.Fits`**: the table;
* `Condition.fragment`, `Update.fragment`, **`Query.fragments`**: what is recorded of a query, which
  is what its outline shows (`Condition.outline_fragment`, `Update.outline_fragment`);
* **`Fragments.Occurs`**: the fragments at any depth of the records, and
  `Query.fits_of_occurs`: those of a query fit.
-/

namespace Dossier

/-! ## Records -/

/-- A test of a field. The operand says by itself whether it is a value, a set, or a list of tests of
an array element. -/
inductive FilterFragment where
  | bare (field : String) (op : FilterOp)
  | value (field : String) (op : FilterOp) (operand : Value)
  | set (field : String) (op : FilterOp) (operands : List Value)
  | element (field : String) (op : FilterOp) (fragments : List FilterFragment)

/-- The operand of an update. -/
inductive UpdateOperand where
  | none
  | value (v : Value)
  | amount (a : Amount)
  /-- The elements of an array that pass all the tests. -/
  | matching (fragments : List FilterFragment)

/-- A change of a field. -/
structure UpdateFragment where
  field : String
  op : UpdateOp
  operand : UpdateOperand

/-- All that is recorded of a query, in the order of the calls. -/
structure Fragments where
  filters : List FilterFragment := []
  updates : List UpdateFragment := []
  bindings : List Binding := []

namespace FilterFragment

/-- Whether the operator takes an operand of this kind. -/
def Fits : FilterFragment → Prop
  | bare _ op => op.isExistence
  | value _ op _ => op.isValue
  | set _ op _ => op.isMembership
  | element _ op _ => op = .arrayElementField

/-- The test of whether a field is there. -/
def presence (field : String) (expected : Bool) : FilterFragment :=
  bare field (if expected then .exists_ else .existsNot)

/-- The test of whether a field has one of several values. -/
def membership (field : String) (operands : List Value) (expected : Bool) : FilterFragment :=
  set field (if expected then .contains else .containsNot) operands

mutual

/-- The outline of a fragment. -/
def outline : FilterFragment → Outline
  | bare field op => entryOutline "FilterFragment" field op.name (.atom "None")
  | value field op operand =>
    entryOutline "FilterFragment" field op.name (.tuple "Value" [operand.outline])
  | set field op operands =>
    entryOutline "FilterFragment" field op.name (.tuple "Set" [.list (operands.map Value.outline)])
  | element field op fragments =>
    entryOutline "FilterFragment" field op.name (.tuple "Element" [.list (outlines fragments)])

/-- The outlines of fragments. -/
def outlines : List FilterFragment → List Outline
  | [] => []
  | f :: rest => outline f :: outlines rest

end

end FilterFragment

/-- The outline of the operand of an update. -/
def UpdateOperand.outline : UpdateOperand → Outline
  | none => .atom "None"
  | value v => .tuple "Value" [v.outline]
  | amount a => .tuple "Numeric" [a.toValue.outline]
  | matching fragments => .tuple "Matching" [.list (FilterFragment.outlines fragments)]

/-- Whether the operator takes an operand of this kind. -/
def UpdateFragment.Fits (u : UpdateFragment) : Prop :=
  match u.operand with
  | .none => u.op ∈ [.remove, .removeFirstFromArray, .removeLastFromArray]
  | .value _ => u.op ∈ [.addOrOverwrite, .addIfNotExist, .overwriteIfGreater, .overwriteIfLower,
      .removeFromArray, .addToArray]
  | .amount _ => u.op ∈ [.incrementNumericalValue, .multiplyNumericalValue]
  | .matching _ => u.op = .removeFromArray

/-- The outline of an update fragment. -/
def UpdateFragment.outline (u : UpdateFragment) : Outline :=
  entryOutline "UpdateFragment" u.field u.op.name u.operand.outline

/-! ## What is recorded of a query -/

mutual

/-- What is recorded of a condition. -/
def Condition.fragment : Condition → FilterFragment
  | .compare field relation operand => .value field relation.op operand
  | .present field expected => .presence field expected
  | .member field operands expected => .membership field operands expected
  | .element field conditions =>
    .element field .arrayElementField (Condition.fragments conditions)

/-- What is recorded of conditions. -/
def Condition.fragments : List Condition → List FilterFragment
  | [] => []
  | c :: rest => Condition.fragment c :: Condition.fragments rest

end

theorem Condition.fragments_eq_map (cs : List Condition) :
    Condition.fragments cs = cs.map Condition.fragment := by
  induction cs with
  | nil => rfl
  | cons c rest ih => rw [Condition.fragments, ih, List.map_cons]

/-- The operand of a change. -/
def Change.operand : Change → UpdateOperand
  | .remove | .removeFirst | .removeLast => .none
  | .increment amount | .multiply amount => .amount amount
  | .pullMatching conditions => .matching (Condition.fragments conditions)
  | .assign v | .addUnique v | .keepGreater v | .keepLower v | .pull v | .append v => .value v

/-- What is recorded of an update. -/
def Update.fragment (u : Update) : UpdateFragment := ⟨u.field, u.change.op, u.change.operand⟩

/-- What is recorded of a query. -/
def Query.fragments (q : Query) : Fragments :=
  ⟨q.conditions.map Condition.fragment, q.updates.map Update.fragment, q.bindings⟩

mutual

theorem Condition.outline_fragment (c : Condition) : c.fragment.outline = c.outline := by
  match c with
  | .compare field relation operand => rfl
  | .present field expected => rfl
  | .member field operands expected => rfl
  | .element field conditions =>
    rw [Condition.fragment, FilterFragment.outline, Condition.outline,
      Condition.outlines_fragments conditions]

theorem Condition.outlines_fragments (cs : List Condition) :
    FilterFragment.outlines (Condition.fragments cs) = Condition.outlines cs := by
  match cs with
  | [] => rfl
  | c :: rest =>
    rw [Condition.fragments, FilterFragment.outlines, Condition.outlines,
      Condition.outline_fragment c, Condition.outlines_fragments rest]

end

theorem Update.outline_fragment (u : Update) : u.fragment.outline = u.outline := by
  obtain ⟨field, change⟩ := u
  cases change
  case pullMatching conditions =>
    rw [Update.fragment, UpdateFragment.outline, Change.operand, UpdateOperand.outline,
      Condition.outlines_fragments, Update.outline, Change.outline]
  all_goals rfl

/-! ## Fragments at any depth -/

/-- `Inside f g`: the fragment `f` is `g`, or one of the tests of an element in it, at any depth. -/
inductive FilterFragment.Inside (f : FilterFragment) : FilterFragment → Prop
  | self : Inside f f
  | element {field : String} {op : FilterOp} {g : FilterFragment} {gs : List FilterFragment} :
      g ∈ gs → Inside f g → Inside f (.element field op gs)

/-- Whether a fragment is recorded, as a filter or inside a filter or the operand of an update. -/
def Fragments.Occurs (F : Fragments) (f : FilterFragment) : Prop :=
  (∃ g ∈ F.filters, f.Inside g) ∨
    ∃ u ∈ F.updates, ∃ gs, u.operand = .matching gs ∧ ∃ g ∈ gs, f.Inside g

theorem Condition.fits_fragment (c : Condition) : c.fragment.Fits := by
  cases c with
  | compare field relation operand => cases relation <;> rfl
  | present field expected => cases expected <;> rfl
  | member field operands expected => cases expected <;> rfl
  | element field conditions => rfl

theorem Update.fits_fragment (u : Update) : u.fragment.Fits := by
  obtain ⟨field, change⟩ := u
  cases change <;> simp [Update.fragment, UpdateFragment.Fits, Change.op, Change.operand]

theorem Condition.exists_of_inside {f : FilterFragment} {c : Condition}
    (h : f.Inside c.fragment) : ∃ c' : Condition, f = c'.fragment := by
  generalize hg : c.fragment = g at h
  induction h generalizing c with
  | self => exact ⟨c, hg.symm⟩
  | element hmem _ ih =>
    cases c
    case element field conditions =>
      rw [Condition.fragment, FilterFragment.element.injEq, Condition.fragments_eq_map] at hg
      obtain ⟨-, -, rfl⟩ := hg
      obtain ⟨c', -, hc'⟩ := List.mem_map.mp hmem
      exact ih hc'
    all_goals cases hg

theorem Query.exists_of_occurs {q : Query} {f : FilterFragment} (h : q.fragments.Occurs f) :
    ∃ c : Condition, f = c.fragment := by
  obtain ⟨g, hg, hf⟩ | ⟨u, hu, gs, hgs, g, hg, hf⟩ := h
  · obtain ⟨c, -, rfl⟩ := List.mem_map.mp hg
    exact Condition.exists_of_inside hf
  · obtain ⟨⟨field, change⟩, -, rfl⟩ := List.mem_map.mp hu
    cases change
    case pullMatching conditions =>
      rw [Update.fragment, Change.operand, UpdateOperand.matching.injEq,
        Condition.fragments_eq_map] at hgs
      subst hgs
      obtain ⟨c, -, rfl⟩ := List.mem_map.mp hg
      exact Condition.exists_of_inside hf
    all_goals cases hgs

theorem Query.fits_of_occurs {q : Query} {f : FilterFragment} (h : q.fragments.Occurs f) :
    f.Fits := by
  obtain ⟨c, rfl⟩ := Query.exists_of_occurs h
  exact c.fits_fragment

end Dossier
