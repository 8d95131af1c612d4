import Dossier.Proofs.Fragment.Readers
import Mathlib.Data.List.Perm.Basic

/-!
# What update documents hold

The update document keeps one operand for each operator and path. The operators of the two removals at
the ends of an array have one name in MongoDB, so that these two take each other's place; no other
two do.

* **`Mongo.Holds`**, `Mongo.holds_addUpdate`: what one update changes;
* **`Mongo.holds_update_iff`**: what the document of many updates holds, by induction from the end;
* `UpdateOp.Collides`: which operators take each other's place;
* **`Mongo.updateOf_holds_iff`**: the same for the fragments that calls record;
* **`Mongo.emitted`**, `Mongo.exists_emitted_update_eq`: the order in which updates are written.
-/

namespace Dossier

/-- Whether the later one of two updates with these operators takes the place of the earlier one. -/
def UpdateOp.Collides (a b : UpdateOp) : Prop :=
  a = b ∨ (a ∈ [removeFirstFromArray, removeLastFromArray] ∧
    b ∈ [removeFirstFromArray, removeLastFromArray])

namespace Mongo

/-- Whether an update document holds the operand under the operator and the path. -/
def Holds (compiled : Document) (operator path : String) (operand : Value) : Prop :=
  (operands compiled operator).find? path = some operand

/-- Every operator occurs once, with a document of operands that has every path once. -/
structure Grouped (compiled : Document) : Prop where
  distinct : compiled.Distinct
  document : ∀ entry ∈ compiled, ∃ fields : Document,
    entry.2 = .document fields ∧ fields ≠ [] ∧ fields.Distinct

theorem fst_change_eq_iff (a b : Change) : (change a).1 = (change b).1 ↔ a.op.Collides b.op := by
  cases a <;> cases b <;> simp [change, Change.op, UpdateOp.Collides]

/-! ## One more update -/

theorem update_append_singleton (us : List Update) (u : Update) :
    update (us ++ [u]) = addUpdate (update us) u := by
  rw [update, List.foldl_append, ← update]
  rfl

theorem addUpdate_eq_insert (compiled : Document) (u : Update) :
    addUpdate compiled u = compiled.insert (change u.change).1
      (.document ((operands compiled (change u.change).1).insert u.field (change u.change).2)) := rfl

theorem operands_addUpdate_self (compiled : Document) (u : Update) :
    operands (addUpdate compiled u) (change u.change).1 =
      (operands compiled (change u.change).1).insert u.field (change u.change).2 := by
  rw [addUpdate_eq_insert, operands, Entries.find?_insert_self]
  rfl

theorem operands_addUpdate_of_ne (compiled : Document) {u : Update} {operator : String}
    (h : (change u.change).1 ≠ operator) :
    operands (addUpdate compiled u) operator = operands compiled operator := by
  rw [addUpdate_eq_insert, operands, Entries.find?_insert_of_ne _ h, operands]

theorem holds_addUpdate (compiled : Document) (u : Update) (operator path : String)
    (operand : Value) :
    Holds (addUpdate compiled u) operator path operand ↔
      if u.field = path ∧ (change u.change).1 = operator then (change u.change).2 = operand
      else Holds compiled operator path operand := by
  by_cases hoperator : (change u.change).1 = operator
  · subst hoperator
    rw [Holds, operands_addUpdate_self]
    by_cases hpath : u.field = path
    · subst hpath
      rw [Entries.find?_insert_self, if_pos ⟨rfl, rfl⟩, Option.some.injEq]
    · rw [Entries.find?_insert_of_ne _ hpath, if_neg fun h => hpath h.1, Holds]
  · rw [Holds, operands_addUpdate_of_ne compiled hoperator, if_neg fun h => hoperator h.2, Holds]

theorem distinct_operands {compiled : Document} (h : Grouped compiled) (operator : String) :
    (operands compiled operator).Distinct := by
  rw [operands]
  cases hfind : compiled.find? operator with
  | none => exact List.nodup_nil
  | some v =>
    obtain ⟨fields, hv, -, hdistinct⟩ := h.document _ (Entries.mem_of_find? hfind)
    change v = .document fields at hv
    subst hv
    exact hdistinct

theorem grouped_addUpdate {compiled : Document} (h : Grouped compiled) (u : Update) :
    Grouped (addUpdate compiled u) := by
  rw [addUpdate_eq_insert]
  constructor
  · exact Entries.distinct_insert h.distinct _ _
  · intro entry hentry
    obtain rfl | hmem := Entries.mem_insert hentry
    · exact ⟨_, rfl, Entries.insert_ne_nil _ _ _,
        Entries.distinct_insert (distinct_operands h _) _ _⟩
    · exact h.document entry hmem

/-! ## The whole document -/

theorem grouped_update (us : List Update) : Grouped (update us) := by
  induction us using List.reverseRecOn with
  | nil => exact ⟨List.nodup_nil, fun entry h => absurd h List.not_mem_nil⟩
  | append_singleton us u ih =>
    rw [update_append_singleton]
    exact grouped_addUpdate ih u

theorem append_singleton_eq_append_cons_iff {α : Type} {before after xs : List α} {x y : α} :
    xs ++ [x] = before ++ y :: after ↔
      (xs = before ∧ x = y ∧ after = []) ∨ ∃ rest, after = rest ++ [x] ∧ xs = before ++ y :: rest := by
  rcases List.eq_nil_or_concat after with rfl | ⟨rest, z, rfl⟩
  · rw [List.append_singleton_inj]
    simp
  · rw [List.concat_eq_append, ← List.cons_append, ← List.append_assoc, List.append_singleton_inj]
    constructor
    · rintro ⟨hxs, rfl⟩
      exact .inr ⟨rest, rfl, hxs⟩
    · rintro (⟨-, -, h⟩ | ⟨rest', h, hxs⟩)
      · exact absurd h (by simp)
      · obtain ⟨rfl, rfl⟩ := List.append_singleton_inj.mp h
        exact ⟨hxs, rfl⟩

/-- **The document holds the operand of an update unless a later one has its operator and its path**,
and holds nothing else. -/
theorem holds_update_iff (us : List Update) (operator path : String) (operand : Value) :
    Holds (update us) operator path operand ↔
      ∃ before u after, us = before ++ u :: after ∧ u.field = path ∧
        change u.change = (operator, operand) ∧
        ∀ w ∈ after, ¬ (w.field = path ∧ (change w.change).1 = operator) := by
  -- From the end, since the last update decides what its slot holds.
  induction us using List.reverseRecOn with
  | nil =>
    constructor
    · intro h
      cases h
    · rintro ⟨before, u, after, h, -⟩
      exact absurd h.symm (List.append_ne_nil_of_right_ne_nil before (List.cons_ne_nil u after))
  | append_singleton us u ih =>
    simp only [append_singleton_eq_append_cons_iff]
    rw [update_append_singleton, holds_addUpdate]
    by_cases hslot : u.field = path ∧ (change u.change).1 = operator
    · rw [if_pos hslot]
      constructor
      · intro hoperand
        exact ⟨us, u, [], .inl ⟨rfl, rfl, rfl⟩, hslot.1, Prod.ext hslot.2 hoperand,
          fun w hw => absurd hw List.not_mem_nil⟩
      · rintro ⟨before, v, after, ⟨-, rfl, -⟩ | ⟨rest, rfl, -⟩, -, hchange, hafter⟩
        · exact congrArg Prod.snd hchange
        · exact absurd hslot (hafter u (by simp))
    · rw [if_neg hslot, ih]
      constructor
      · rintro ⟨before, v, rest, rfl, hpath, hchange, hrest⟩
        refine ⟨before, v, rest ++ [u], .inr ⟨rest, rfl, rfl⟩, hpath, hchange, ?_⟩
        intro w hw
        rcases List.mem_append.mp hw with hw | hw
        · exact hrest w hw
        · rw [List.mem_singleton.mp hw]
          exact hslot
      · rintro ⟨before, v, after, ⟨-, rfl, -⟩ | ⟨rest, rfl, rfl⟩, hpath, hchange, hafter⟩
        · exact absurd ⟨hpath, congrArg Prod.fst hchange⟩ hslot
        · exact ⟨before, v, rest, rfl, hpath, hchange,
            fun w hw => hafter w (List.mem_append_left _ hw)⟩

/-! ## What calls record -/

/-- **An update that calls record is lost only to a later one** on its path, with an operator that
collides with its own. Every other update stands in the document with its operand, and nothing else
does. -/
theorem updateOf_holds_iff {fs : List UpdateFragment} (h : ∀ f ∈ fs, f.Recorded) :
    ∃ compiled, updateOf fs = .ok compiled ∧ Grouped compiled ∧
      ∀ operator path operand, Holds compiled operator path operand ↔
        ∃ before f after, fs = before ++ f :: after ∧ f.field = path ∧
          changeOf f.op f.operand = .ok (operator, operand) ∧
          ∀ g ∈ after, ¬ (g.field = path ∧ g.op.Collides f.op) := by
  obtain ⟨us, rfl⟩ := UpdateFragment.Recorded.exists_updates h
  refine ⟨update us, updateOf_fragments us, grouped_update us, ?_⟩
  intro operator path operand
  rw [holds_update_iff]
  constructor
  · rintro ⟨before, u, after, rfl, hpath, hchange, hafter⟩
    refine ⟨before.map Update.fragment, u.fragment, after.map Update.fragment, by simp, hpath,
      ?_, ?_⟩
    · rw [Update.fragment, changeOf_operand, hchange]
    · rintro g hg ⟨hfield, hop⟩
      obtain ⟨w, hw, rfl⟩ := List.mem_map.mp hg
      have hoperator := (fst_change_eq_iff w.change u.change).mpr hop
      rw [hchange] at hoperator
      exact hafter w hw ⟨hfield, hoperator⟩
  · rintro ⟨before', f, after', hsplit, hpath, hchange, hafter⟩
    obtain ⟨before, rest, rfl, rfl, hrest⟩ := List.map_eq_append_iff.mp hsplit
    obtain ⟨u, after, rfl, rfl, rfl⟩ := List.map_eq_cons_iff.mp hrest
    rw [Update.fragment, changeOf_operand, Except.ok.injEq] at hchange
    refine ⟨before, u, after, rfl, hpath, hchange, ?_⟩
    rintro w hw ⟨hfield, hoperator⟩
    have hop := (fst_change_eq_iff w.change u.change).mp (by rw [hoperator, hchange])
    exact hafter w.fragment (List.mem_map_of_mem hw) ⟨hfield, hop⟩

/-- Removals from both ends of one array. -/
def bothEnds : List UpdateFragment :=
  (Fragments.ofCalls [.update {} "queue" .null .removeFirstFromArray,
    .update {} "queue" .null .removeLastFromArray]).updates

theorem updateOf_bothEnds_holds_iff :
    (∀ f ∈ bothEnds, f.Recorded) ∧ ∃ compiled, updateOf bothEnds = .ok compiled ∧ Grouped compiled ∧
      ∀ operator path operand, Holds compiled operator path operand ↔
        ∃ before f after, bothEnds = before ++ f :: after ∧ f.field = path ∧
          changeOf f.op f.operand = .ok (operator, operand) ∧
          ∀ g ∈ after, ¬ (g.field = path ∧ g.op.Collides f.op) := by
  have hrecorded : ∀ f ∈ bothEnds, f.Recorded := fun f hf => ⟨_, hf⟩
  exact ⟨hrecorded, updateOf_holds_iff hrecorded⟩

/-- Of two updates with different operators only the later one is in the document. -/
theorem updateOf_bothEnds_lost :
    bothEnds = [⟨"queue", .removeFirstFromArray, .none⟩, ⟨"queue", .removeLastFromArray, .none⟩] ∧
      changeOf .removeFirstFromArray .none = .ok ("$pop", .int32 (-1)) ∧
      updateOf bothEnds = .ok [("$pop", .document [("queue", .int32 1)])] ∧
      ¬ Holds [("$pop", .document [("queue", .int32 1)])] "$pop" "queue" (.int32 (-1)) := by
  refine ⟨rfl, rfl, rfl, ?_⟩
  intro h
  have hfind : some (Value.int32 1) = some (.int32 (-1)) := h
  rw [Option.some.injEq, Value.int32.injEq] at hfind
  exact absurd hfind (by decide)

/-! ## The order of the document -/

/-- The operator, the path and the operand of an update. -/
def entry (u : Update) : String × String × Value :=
  ((change u.change).1, u.field, (change u.change).2)

/-- The operands under one operator of an update document. -/
def emittedUnder (group : String × Value) : List (String × String × Value) :=
  (group.2.fields?.getD []).map fun field => (group.1, field.1, field.2)

/-- The operators, paths and operands in the order in which an update document has them. -/
def emitted (compiled : Document) : List (String × String × Value) :=
  compiled.flatMap emittedUnder

theorem operands_cons (operator : String) (v : Value) (compiled : Document) (other : String) :
    operands ((operator, v) :: compiled) other =
      if operator = other then v.fields?.getD [] else operands compiled other := by
  rw [operands, Entries.find?_cons]
  split <;> rfl

theorem mem_emitted_of_mem_operands {compiled : Document} {operator path : String} {operand : Value}
    (h : (path, operand) ∈ operands compiled operator) :
    (operator, path, operand) ∈ emitted compiled := by
  induction compiled with
  | nil => cases h
  | cons group rest ih =>
    obtain ⟨other, v⟩ := group
    rw [emitted, List.flatMap_cons, List.mem_append]
    rw [operands_cons] at h
    split at h
    case isTrue hoperator =>
      subst hoperator
      exact .inl (List.mem_map.mpr ⟨_, h, rfl⟩)
    case isFalse => exact .inr (ih h)

theorem perm_emitted_insert (compiled : Document) {operator path : String} (operand : Value)
    (h : path ∉ (operands compiled operator).keys) :
    (emitted (compiled.insert operator
      (.document ((operands compiled operator).insert path operand)))).Perm
        (emitted compiled ++ [(operator, path, operand)]) := by
  rw [Entries.insert_of_not_mem h]
  induction compiled with
  | nil => exact List.Perm.refl _
  | cons group rest ih =>
    obtain ⟨other, v⟩ := group
    rw [operands_cons] at h ⊢
    rw [Entries.insert]
    split
    case isTrue hoperator =>
      subst hoperator
      rw [emitted, emitted, List.flatMap_cons, List.flatMap_cons, List.append_assoc]
      have hunder : emittedUnder (other, .document (v.fields?.getD [] ++ [(path, operand)])) =
          emittedUnder (other, v) ++ [(other, path, operand)] := List.map_append
      rw [hunder, List.append_assoc]
      exact List.Perm.append_left _ List.perm_append_comm
    case isFalse hoperator =>
      rw [if_neg hoperator] at h
      rw [emitted, emitted, List.flatMap_cons, List.flatMap_cons, List.append_assoc]
      exact List.Perm.append_left _ (ih h)

/-- **Updates with different operators or paths are all written, in some order.** -/
theorem perm_emitted_update {us : List Update}
    (h : (us.map fun u => ((change u.change).1, u.field)).Nodup) :
    (emitted (update us)).Perm (us.map entry) := by
  induction us using List.reverseRecOn with
  | nil => exact List.Perm.refl _
  | append_singleton us u ih =>
    rw [List.map_append, List.nodup_append] at h
    obtain ⟨hus, -, hnew⟩ := h
    have hperm := ih hus
    -- The slot is new: an operand in it would be that of an earlier update.
    have hpath : u.field ∉ (operands (update us) (change u.change).1).keys := by
      intro hmem
      obtain ⟨⟨path, operand⟩, hfield, hpath⟩ := List.mem_map.mp hmem
      change path = u.field at hpath
      subst hpath
      obtain ⟨w, hw, hentry⟩ :=
        List.mem_map.mp (hperm.mem_iff.mp (mem_emitted_of_mem_operands hfield))
      rw [entry, Prod.mk.injEq, Prod.mk.injEq] at hentry
      have hsame : ((change w.change).1, w.field) = ((change u.change).1, u.field) :=
        Prod.ext hentry.1 hentry.2.1
      exact hnew _ (List.mem_map_of_mem hw) _ (List.mem_singleton.mpr rfl) hsame
    rw [update_append_singleton, addUpdate_eq_insert, List.map_append]
    exact (perm_emitted_insert _ _ hpath).trans (hperm.append_right _)

theorem exists_emitted_update_eq {us : List Update}
    (h : (us.map fun u => ((change u.change).1, u.field)).Nodup) :
    ∃ grouped : List Update, grouped.Perm us ∧ emitted (update us) = grouped.map entry := by
  have hcomp : Relation.Comp (· = List.map entry ·) List.Perm (emitted (update us)) us := by
    rw [List.eq_map_comp_perm]
    exact perm_emitted_update h
  obtain ⟨grouped, hemitted, hperm⟩ := hcomp
  exact ⟨grouped, hperm, hemitted⟩

end Mongo

end Dossier
