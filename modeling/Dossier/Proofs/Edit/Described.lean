import Mathlib
import Dossier.Proofs.Edit.Path

/-!
# Documents described by equalities

An update that matches nothing starts from the document that the equalities of its query describe.

* `Value.putAll`: a value with every operand put at its path, one after the other;
* **`Value.within?_putAll`**: paths apart keep their operands;
* **`Query.exists_described`**: equalities on plain paths apart describe a document, which has every
  operand at its path, through documents only.
-/

namespace Dossier

/-- Whether no path of a list begins with another one of it. -/
def PathsApart (paths : List String) : Prop :=
  paths.Pairwise fun a b => Path.Apart (Dotted.segments a) (Dotted.segments b)

instance (paths : List String) : Decidable (PathsApart paths) :=
  inferInstanceAs (Decidable (List.Pairwise _ _))

/-- The condition that a field equals an operand. -/
def Condition.equality (e : String × Value) : Condition := .compare e.1 .equals e.2

namespace Value

/-- The value with every operand put at its path, one after the other. -/
def putAll (v : Value) (es : List (String × Value)) : Value :=
  es.foldl (fun v e => v.putWithin (Dotted.segments e.1) e.2) v

theorem putWithin_document (fields : Document) {p : Path} (hp : p ≠ []) (new : Value) :
    ∃ fields', (document fields).putWithin p new = document fields' := by
  cases p with
  | nil => exact absurd rfl hp
  | cons k rest => exact ⟨_, rfl⟩

theorem putAll_document (fields : Document) (es : List (String × Value)) :
    ∃ fields', (document fields).putAll es = document fields' := by
  induction es generalizing fields with
  | nil => exact ⟨fields, rfl⟩
  | cons e es ih =>
    obtain ⟨next, hnext⟩ := putWithin_document fields (Dotted.segments_ne_nil e.1) e.2
    rw [putAll, List.foldl_cons, hnext]
    exact ih next

theorem within?_putAll_of_apart (v : Value) {es : List (String × Value)} {q : Path}
    (h : ∀ e ∈ es, Path.Apart (Dotted.segments e.1) q) : (v.putAll es).within? q = v.within? q := by
  induction es generalizing v with
  | nil => rfl
  | cons e es ih =>
    rw [List.forall_mem_cons] at h
    rw [putAll, List.foldl_cons, ← putAll, ih _ h.2, within?_putWithin_of_apart _ _ h.1]

/-- **Paths apart keep their operands.** -/
theorem within?_putAll {v : Value} {es : List (String × Value)} (ha : PathsApart (es.map Prod.fst))
    (hv : ∀ e ∈ es, v.Clear (Dotted.segments e.1)) :
    ∀ e ∈ es, (v.putAll es).within? (Dotted.segments e.1) = some e.2 := by
  induction es generalizing v with
  | nil => exact nofun
  | cons e es ih =>
    obtain ⟨hfirst, hrest⟩ := List.pairwise_cons.mp ha
    have hapart : ∀ f ∈ es, Path.Apart (Dotted.segments e.1) (Dotted.segments f.1) :=
      fun f hf => hfirst f.1 (List.mem_map_of_mem hf)
    rw [List.forall_mem_cons] at hv
    rw [List.forall_mem_cons, putAll, List.foldl_cons, ← putAll]
    constructor
    · rw [within?_putAll_of_apart _ fun f hf => (hapart f hf).symm, within?_putWithin hv.1]
    · exact ih hrest fun f hf => (hv.2 f hf).putWithin e.2 (hapart f hf)

theorem WellFormed.putAll {v : Value} {es : List (String × Value)} (hv : v.WellFormed)
    (hes : ∀ e ∈ es, e.2.WellFormed) : (v.putAll es).WellFormed := by
  induction es generalizing v with
  | nil => exact hv
  | cons e es ih =>
    rw [List.forall_mem_cons] at hes
    exact ih (hv.putWithin _ hes.1) hes.2

end Value

namespace Query

theorem seedCondition_equality {v : Value} {e : String × Value}
    (hp : Path.Plain (Dotted.segments e.1)) (hv : v.Clear (Dotted.segments e.1)) :
    seedCondition v (.equality e) = .ok (v.putWithin (Dotted.segments e.1) e.2) := by
  rw [Condition.equality, seedCondition, Step.ofPath, hp.map_ofSegment,
    Value.edit_put_of_clear e.2 hv (Dotted.segments_ne_nil e.1)]
  rfl

theorem foldlM_seedCondition {v : Value} {es : List (String × Value)}
    (hp : ∀ e ∈ es, Path.Plain (Dotted.segments e.1)) (ha : PathsApart (es.map Prod.fst))
    (hv : ∀ e ∈ es, v.Clear (Dotted.segments e.1)) :
    (es.map Condition.equality).foldlM seedCondition v = .ok (v.putAll es) := by
  induction es generalizing v with
  | nil => rfl
  | cons e es ih =>
    obtain ⟨hfirst, hrest⟩ := List.pairwise_cons.mp ha
    rw [List.forall_mem_cons] at hp hv
    rw [List.map_cons, List.foldlM_cons, seedCondition_equality hp.1 hv.1]
    exact ih hp.2 hrest fun f hf =>
      (hv.2 f hf).putWithin e.2 (hfirst f.1 (List.mem_map_of_mem hf))

/-- **Equalities on plain paths apart describe a document** that has every operand at its path. -/
theorem exists_described {q : Query} {es : List (String × Value)}
    (hq : q.conditions = es.map Condition.equality)
    (hp : ∀ e ∈ es, Path.Plain (Dotted.segments e.1)) (ha : PathsApart (es.map Prod.fst)) :
    ∃ d, q.described = .ok d ∧
      (∀ e ∈ es, (Value.document d).within? (Dotted.segments e.1) = some e.2) ∧
      ((∀ e ∈ es, e.2.WellFormed) → d.WellFormed) := by
  have hclear : ∀ e ∈ es, (Value.document []).Clear (Dotted.segments e.1) :=
    fun e _ => Value.clear_empty _
  obtain ⟨d, hd⟩ := Value.putAll_document [] es
  refine ⟨d, ?_, ?_, fun hes => ?_⟩
  · rw [described, hq, foldlM_seedCondition hp ha hclear, hd]
    rfl
  · rw [← hd]
    exact Value.within?_putAll ha hclear
  · rw [Document.WellFormed, ← hd]
    exact Value.WellFormed.putAll (by simp [Entries.Distinct, Entries.keys]) hes

end Query

end Dossier
