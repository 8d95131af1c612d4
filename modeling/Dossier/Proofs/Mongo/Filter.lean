import Dossier.Proofs.Fragment.Readers

/-!
# Filters in MongoDB's query language

The query document of filters tells which filters it was made of, and in which order: an array under
`$and` stands for several tests, a document under any key for one of the field of that name.

* **`Mongo.readFilters?`**: the tests that a query document stands for;
* **`Mongo.readFilters?_filter`**: a query document is read as the conditions that it was made of;
* **`Mongo.filterOf_lossless`**: so are the filters that calls record, and filters that differ have
  different query documents.
-/

namespace Dossier

namespace Mongo

/-- The test of a field by an operator other than that of elements. -/
def readOperator? (field operator : String) (operand : Value) : Option FilterFragment :=
  match operator, operand with
  | "$exists", .bool expected => some (.presence field expected)
  | "$in", .array operands => some (.membership field operands true)
  | "$nin", .array operands => some (.membership field operands false)
  | "$eq", operand => some (.value field .equals operand)
  | "$ne", operand => some (.value field .differs operand)
  | "$gt", operand => some (.value field .greater operand)
  | "$gte", operand => some (.value field .greaterOrEquals operand)
  | "$lt", operand => some (.value field .less operand)
  | "$lte", operand => some (.value field .lessOrEquals operand)
  | _, _ => none

mutual

/-- The tests that a query document stands for. -/
def readFilters? : Value → Option (List FilterFragment)
  | .document [] => some []
  | .document [(field, .array items)] => if field = "$and" then readAll? items else none
  | .document [(field, .document [(operator, operand)])] =>
    if operator = "$elemMatch" then
      (readFilters? operand).map fun tests => [.element field .arrayElementField tests]
    else (readOperator? field operator operand).map ([·])
  | _ => none

/-- The tests that the query documents of a list stand for. -/
def readAll? : List Value → Option (List FilterFragment)
  | [] => some []
  | v :: rest => do return (← readFilters? v) ++ (← readAll? rest)

end

theorem readFilters?_onField {field operator : String} (h : operator ≠ "$elemMatch")
    (operand : Value) : readFilters? (.document (onField field operator operand)) =
      (readOperator? field operator operand).map ([·]) := by
  rw [onField, single, single, readFilters?, if_neg h]

theorem readFilters?_element {field : String} {d : Document} {tests : List FilterFragment}
    (h : readFilters? (.document d) = some tests) :
    readFilters? (.document (onField field "$elemMatch" (.document d))) =
      some [.element field .arrayElementField tests] := by
  rw [onField, single, single, readFilters?, if_pos rfl, h, Option.map_some]

/-- A document alone is read as it is in a list of one, and `$and` leads to a list of more. -/
theorem readFilters?_conjunction {ds : List Document} {tests : List FilterFragment}
    (h : readAll? (ds.map .document) = some tests) :
    readFilters? (.document (conjunction ds)) = some tests := by
  match ds with
  | [] => exact h
  | [d] =>
    rw [List.map_singleton, readAll?, readAll?] at h
    cases hd : readFilters? (.document d) with
    | none =>
      rw [hd] at h
      cases h
    | some found =>
      rw [hd] at h
      have hfound : found ++ [] = tests := Option.some.inj h
      rw [← hfound, List.append_nil]
      exact hd
  | d :: e :: rest =>
    have hjoined : conjunction (d :: e :: rest) =
        single "$and" (.array ((d :: e :: rest).map .document)) := rfl
    rw [hjoined, single, readFilters?, if_pos rfl, h]

mutual

/-- **The query document of a condition** is read as that condition alone. -/
theorem readFilters?_condition (c : Condition) :
    readFilters? (.document (condition c)) = some [c.fragment] := by
  match c with
  | .compare field relation operand =>
    rw [condition, readFilters?_onField (by cases relation <;> decide)]
    cases relation <;> rfl
  | .present field expected =>
    rw [condition, readFilters?_onField (by decide)]
    rfl
  | .member field operands expected =>
    rw [condition, readFilters?_onField (by cases expected <;> decide)]
    cases expected <;> rfl
  | .element field conditions =>
    have hinner := readFilters?_conjunction (readAll?_conditions conditions)
    rw [condition, readFilters?_element hinner, Condition.fragment]

theorem readAll?_conditions (cs : List Condition) :
    readAll? ((conditions cs).map .document) = some (Condition.fragments cs) := by
  match cs with
  | [] => rfl
  | c :: rest =>
    rw [conditions, List.map_cons, readAll?, readFilters?_condition c, readAll?_conditions rest,
      Condition.fragments]
    rfl

end

/-- **A query document is read as the conditions that it was made of.** -/
theorem readFilters?_filter (cs : List Condition) :
    readFilters? (.document (filter cs)) = some (Condition.fragments cs) :=
  readFilters?_conjunction (readAll?_conditions cs)

-- a field named like the operator that joins tests
example : readFilters? (.document (filter [.compare "$and" .equals .null, .present "$and" true])) =
    some [.value "$and" .equals .null, .bare "$and" .exists_] := rfl

/-- **The translation of filters is lossless.** The filters that calls record have a query document,
which is read as just these filters, in their order; the filters of other calls have the same one
only if they are the same. -/
theorem filterOf_lossless (calls : List Call) :
    ∃ d, filterOf (Fragments.ofCalls calls).filters = .ok d ∧
      readFilters? (.document d) = some (Fragments.ofCalls calls).filters ∧
      ∀ others : List Call, filterOf (Fragments.ofCalls others).filters = .ok d →
        (Fragments.ofCalls others).filters = (Fragments.ofCalls calls).filters := by
  have hread (calls : List Call) :
      ∃ d, filterOf (Fragments.ofCalls calls).filters = .ok d ∧
        readFilters? (.document d) = some (Fragments.ofCalls calls).filters := by
    rw [← Query.fragments_ofCalls, Query.fragments, ← Condition.fragments_eq_map]
    exact ⟨_, filterOf_fragments _, readFilters?_filter _⟩
  obtain ⟨d, hd, hcalls⟩ := hread calls
  refine ⟨d, hd, hcalls, fun others hothers => ?_⟩
  obtain ⟨d', hd', hread'⟩ := hread others
  rw [hothers, Except.ok.injEq] at hd'
  rw [← hd', hcalls, Option.some.injEq] at hread'
  exact hread'.symm

end Mongo

end Dossier
