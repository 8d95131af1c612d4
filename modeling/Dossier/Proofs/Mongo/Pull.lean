import Mathlib
import Dossier.Proofs.Edit.Pulled
import Dossier.Proofs.Fragment.SameEffect
import Dossier.Proofs.Mongo.Filter
import Dossier.Proofs.Mongo.Update

/-!
# Removals in MongoDB's query language

A removal of elements stands in an update document with what it takes: a value as it is, conditions as
their query document. A value that is a query document is taken for the conditions.

* `Mongo.filter_injective`, **`Mongo.change_eq_iff`**: which changes are written alike;
* **`UpdateFragment.Imitates`**: a removal by a value that is written like one by conditions;
* **`Mongo.updateOf_singleton_eq_iff`**: two updates are written alike iff they are the same or one
  imitates the other. They differ on some document then, unless neither takes anything, and every
  removal by conditions is imitated.
-/

namespace Dossier

/-! ## Changes that are written alike -/

theorem Amount.toValue_injective : Function.Injective Amount.toValue := by
  intro a b h
  have hamount := congrArg ofValue? h
  rwa [ofValue?_toValue, ofValue?_toValue, Option.some.injEq] at hamount

namespace Mongo

theorem filter_injective : Function.Injective filter := by
  intro cs cs' h
  have hread := readFilters?_filter cs
  rw [h, readFilters?_filter, Option.some.injEq] at hread
  exact Condition.fragments_inj hread.symm

/-- **Changes are written alike** iff they are the same, or one takes the query document of the
conditions that the other one takes elements by. -/
theorem change_eq_iff {a b : Change} : change a = change b ↔ a = b ∨
    (∃ cs, a = .pull (.document (filter cs)) ∧ b = .pullMatching cs) ∨
      ∃ cs, b = .pull (.document (filter cs)) ∧ a = .pullMatching cs := by
  cases a <;> cases b
  case pullMatching.pull conditions v =>
    simp only [change, Prod.mk.injEq, true_and, reduceCtorEq, false_and, exists_false, false_or,
      Change.pull.injEq, Change.pullMatching.injEq, exists_eq_right']
    exact eq_comm
  all_goals simp [change, filter_injective.eq_iff, Amount.toValue_injective.eq_iff]

theorem update_singleton_eq_iff {u w : Update} :
    update [u] = update [w] ↔ u.field = w.field ∧ change u.change = change w.change := by
  have hupdate (u : Update) : update [u] =
      single (change u.change).1 (.document (single u.field (change u.change).2)) := rfl
  rw [hupdate, hupdate, Prod.ext_iff]
  simp only [single, List.cons.injEq, Prod.mk.injEq, Value.document.injEq, and_true]
  tauto

end Mongo

/-! ## Removals that are written alike -/

namespace UpdateFragment

/-- Whether a removal takes the elements alike to the query document of the tests that another one takes
elements by. -/
def Imitates (f g : UpdateFragment) : Prop :=
  f.field = g.field ∧ f.op = .removeFromArray ∧ g.op = .removeFromArray ∧
    ∃ tests d, g.operand = .matching tests ∧ Mongo.filterOf tests = .ok d ∧
      f.operand = .value (.document d)

/-- Whether two updates that calls record make different things of some document. -/
def Differ (f g : UpdateFragment) : Prop :=
  ∃ u w : Update, f = u.fragment ∧ g = w.fragment ∧ u.Differ w

theorem imitates_fragment_iff {u w : Update} : u.fragment.Imitates w.fragment ↔
    u.field = w.field ∧ ∃ cs, u.change = .pull (.document (Mongo.filter cs)) ∧
      w.change = .pullMatching cs := by
  obtain ⟨field, change⟩ := u
  obtain ⟨field', change'⟩ := w
  constructor
  · rintro ⟨hfield, hop, hop', tests, d, htests, hd, hoperand⟩
    cases change' with
    | pullMatching conditions =>
      cases htests
      rw [Mongo.filterOf_fragments, Except.ok.injEq] at hd
      cases change with
      | pull v =>
        cases hoperand
        exact ⟨hfield, conditions, by rw [hd], rfl⟩
      | _ => first | (cases hoperand; done) | cases hop
    | _ => cases htests
  · rintro ⟨hfield, cs, hpull, hmatching⟩
    cases hpull
    cases hmatching
    exact ⟨hfield, rfl, rfl, _, _, rfl, Mongo.filterOf_fragments cs, rfl⟩

theorem differ_fragment_iff {u w : Update} : u.fragment.Differ w.fragment ↔ u.Differ w := by
  constructor
  · rintro ⟨u', w', hu, hw, h⟩
    rwa [Update.fragment_inj hu, Update.fragment_inj hw]
  · exact fun h => ⟨u, w, rfl, rfl, h⟩

theorem Recorded.exists_update {f : UpdateFragment} (h : f.Recorded) : ∃ u : Update, f = u.fragment := by
  obtain ⟨us, hus⟩ := @exists_updates [f] (by simpa using h)
  obtain ⟨u, -, hu⟩ := List.mem_map.mp (hus ▸ List.mem_singleton_self f)
  exact ⟨u, hu.symm⟩

theorem recorded_pull (field : String) (v : Value) :
    Recorded ⟨field, .removeFromArray, .value v⟩ :=
  ⟨[.update {} field v .removeFromArray], List.mem_singleton_self _⟩

/-- Every removal by tests is imitated by one that can be recorded. -/
theorem exists_imitates {w : Update} {tests : List FilterFragment}
    (h : w.fragment.operand = .matching tests) :
    ∃ e : UpdateFragment, e.Recorded ∧ e.Imitates w.fragment := by
  obtain ⟨field, change⟩ := w
  cases change with
  | pullMatching conditions =>
    exact ⟨_, recorded_pull field (.document (Mongo.filter conditions)), rfl, rfl, rfl, _, _, rfl,
      Mongo.filterOf_fragments conditions, rfl⟩
  | _ => cases h

end UpdateFragment

namespace Mongo

variable {f g : UpdateFragment}

/-- **Updates that are written alike.** Every update that calls record has an update document. Two of
them have the same one iff they are the same or one is a removal by a value that imitates the other,
a removal by tests. Such two differ only if one of them takes any value at all; on a plain path they
do differ then. And every removal by tests is imitated. -/
theorem updateOf_singleton_eq_iff (hf : f.Recorded) (hg : g.Recorded) :
    (∃ d, updateOf [f] = .ok d) ∧
      (updateOf [f] = updateOf [g] ↔ f = g ∨ f.Imitates g ∨ g.Imitates f) ∧
      (f.Imitates g → f.Differ g →
        ∃ v, v.WellFormed ∧ (f.operand.takes v = true ∨ g.operand.takes v = true)) ∧
      (f.Imitates g → Path.Plain (Dotted.segments f.field) →
        (∃ v, v.WellFormed ∧ (f.operand.takes v = true ∨ g.operand.takes v = true)) →
          f.Differ g) ∧
      ∀ tests, g.operand = .matching tests → ∃ e : UpdateFragment, e.Recorded ∧ e.Imitates g := by
  obtain ⟨u, rfl⟩ := hf.exists_update
  obtain ⟨w, rfl⟩ := hg.exists_update
  have hwritten (u : Update) : updateOf [u.fragment] = .ok (update [u]) := updateOf_fragments [u]
  refine ⟨⟨_, hwritten u⟩, ?_, fun himitates hdiffer => ?_, fun himitates hplain htakes => ?_,
    fun tests => UpdateFragment.exists_imitates⟩
  · have hsame : u.fragment = w.fragment ↔ u.field = w.field ∧ u.change = w.change := by
      constructor
      · intro h
        rw [Update.fragment_inj h]
        exact ⟨rfl, rfl⟩
      · rintro ⟨hfield, hchange⟩
        rw [Update.fragment, Update.fragment, hfield, hchange]
    rw [hwritten, hwritten, Except.ok.injEq, update_singleton_eq_iff, change_eq_iff, hsame,
      UpdateFragment.imitates_fragment_iff, UpdateFragment.imitates_fragment_iff,
      @eq_comm _ w.field u.field, and_or_left, and_or_left]
  · obtain ⟨hfield, cs, hpull, hmatching⟩ := UpdateFragment.imitates_fragment_iff.mp himitates
    exact Update.exists_takes_of_differ (by rw [hpull]; rfl) (by rw [hmatching]; rfl) hfield
      (UpdateFragment.differ_fragment_iff.mp hdiffer)
  · obtain ⟨hfield, cs, hpull, hmatching⟩ := UpdateFragment.imitates_fragment_iff.mp himitates
    obtain ⟨v, hv, htakes⟩ := htakes
    have hvalue : u.change.operand.takes = fun item => item.alike (.document (filter cs)) := by
      rw [hpull]
      rfl
    have hpasses : w.change.operand.takes = Change.passes cs := by
      rw [hmatching, Change.takes_operand_pullMatching]
    have htakes' : v.alike (.document (filter cs)) = true ∨ Change.passes cs v = true := by
      rwa [← hpasses, ← congrFun hvalue v]
    obtain ⟨item, hitem, hne⟩ := Value.exists_takes_ne hv htakes'
    rw [← hpasses, ← congrFun hvalue item] at hne
    exact UpdateFragment.differ_fragment_iff.mpr (Update.differ_of_takes_ne (by rw [hpull]; rfl)
      (by rw [hmatching]; rfl) hfield hplain hitem hne)

/-- Removes the lines alike to a document that reads like a condition on quantities. -/
def pullAlike : UpdateFragment :=
  ⟨"lines", .removeFromArray, .value (.document [("qty", .document [("$gt", .int32 5)])])⟩

/-- Removes the lines whose quantity is greater than five. -/
def pullGreater : UpdateFragment :=
  ⟨"lines", .removeFromArray, .matching [.value "qty" .greater (.int32 5)]⟩

theorem recorded_pullGreater : pullGreater.Recorded :=
  ⟨[.pullMatching "lines" [.filter {} "qty" (.int32 5) .greater]], List.mem_singleton_self _⟩

/-- The two removals are written alike, and differ on a document with a line of greater quantity. -/
theorem updateOf_pullAlike : pullAlike.Recorded ∧ pullGreater.Recorded ∧
    updateOf [pullAlike] = updateOf [pullGreater] ∧ pullAlike.Differ pullGreater := by
  have hrecorded : pullAlike.Recorded := UpdateFragment.recorded_pull _ _
  have himitates : pullAlike.Imitates pullGreater := ⟨rfl, rfl, rfl, _, _, rfl, rfl, rfl⟩
  have hline : (Value.document [("qty", .int32 7)]).WellFormed := by
    have hqty : (Value.int32 7).WellFormed := Value.wellFormed_of_isAtom rfl
    simpa [Entries.Distinct, Entries.keys] using hqty
  obtain ⟨-, hwritten, -, hdiffer, -⟩ := updateOf_singleton_eq_iff hrecorded recorded_pullGreater
  exact ⟨hrecorded, recorded_pullGreater, hwritten.mpr (.inr (.inl himitates)),
    hdiffer himitates (by decide) ⟨_, hline, .inr rfl⟩⟩

/-- One update document for both, and the line stays under the one and goes under the other. -/
theorem updateOf_pull_not_injective :
    let lines : Document := [("lines", .array [.document [("qty", .int32 7)]])]
    let compiled : Document := [("$pull", .document [("lines", .document
      [("qty", .document [("$gt", .int32 5)])])])]
    updateOf [pullAlike] = .ok compiled ∧ updateOf [pullGreater] = .ok compiled ∧
      (Query.ofCalls [.update {} "lines" (.document [("qty", .document [("$gt", .int32 5)])])
        .removeFromArray]).edit lines = .ok (lines, false) ∧
      (Query.ofCalls [.pullMatching "lines" [.filter {} "qty" (.int32 5) .greater]]).edit lines =
        .ok ([("lines", .array [])], true) :=
  ⟨rfl, rfl, rfl, rfl⟩

end Mongo

end Dossier
