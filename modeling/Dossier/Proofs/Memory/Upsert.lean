import Mathlib
import Dossier.Proofs.Edit.Described
import Dossier.Proofs.Memory.Writes
import Dossier.Proofs.Value.Reflexive

/-!
# Upserts converge

An update by equalities that matches nothing inserts a document which the equalities describe.
Updates that keep off the paths of the equalities leave it a match, so it is never inserted twice.

* **`Description`**: equalities on plain paths apart, and `Description.SparedBy`, the queries whose
  updates keep off those paths;
* `Description.Met`: a document has every operand at its path, the invariant of such updates
  (`Description.met_edit`), which makes it a match (`Description.holds_of_met`);
* `Description.Grown`: a collection has one such document after the old ones, the invariant of calls
  (`Upsert.perform_keeps`);
* `Upsert`: the two calls that update the first match or insert;
* **`Upsert.converges`**: the first call inserts one matching document, later ones nothing more.
-/

namespace Dossier

/-- Equalities that describe a document: on plain paths, none of which begins with another, with
operands that equal themselves. -/
structure Description where
  equalities : List (String × Value)
  plain : ∀ e ∈ equalities, Path.Plain (Dotted.segments e.1)
  apart : PathsApart (equalities.map Prod.fst)
  wellFormed : ∀ e ∈ equalities, e.2.WellFormed
  nanFree : ∀ e ∈ equalities, e.2.NaNFree

namespace Description

variable (D : Description)

/-- The conditions of a query by the equalities. -/
def conditions : List Condition := D.equalities.map .equality

/-- Whether the updates of a query are on plain paths apart from those of the equalities. -/
def SparedBy (q : Query) : Prop :=
  ∀ u ∈ q.updates, Path.Plain (Dotted.segments u.field) ∧
    ∀ e ∈ D.equalities, Path.Apart (Dotted.segments u.field) (Dotted.segments e.1)

instance (q : Query) : Decidable (D.SparedBy q) := inferInstanceAs (Decidable (∀ _ ∈ _, _))

/-- Whether a document has every operand at its path, through documents only. -/
def Met (d : Document) : Prop :=
  ∀ e ∈ D.equalities, (Value.document d).within? (Dotted.segments e.1) = some e.2

/-- Whether a collection holds just one document after the old ones, with every operand at its
path. -/
def Grown (old documents : List Document) : Prop := ∃ d, documents = old ++ [d] ∧ D.Met d

variable {D} {q : Query} {d d' : Document} {changed : Bool}

/-! ## Matches -/

theorem holds_equality {e : String × Value} (hw : e.2.WellFormed) (hn : e.2.NaNFree)
    (h : (Value.document d).within? (Dotted.segments e.1) = some e.2) :
    (Condition.equality e).holds d = true := by
  have hreach := Document.reach_of_within? (Dotted.segments_ne_nil e.1) h
  rw [Condition.equality, Condition.holds, Document.compareAt]
  simp [Document.equalsAt, Document.candidates, hreach, Value.alike_self hw hn]

/-- **A document that has every operand at its path is a match.** -/
theorem holds_of_met (h : D.Met d) : ∀ c ∈ D.conditions, c.holds d = true := by
  intro c hc
  obtain ⟨e, he, rfl⟩ := List.mem_map.mp hc
  exact holds_equality (D.wellFormed e he) (D.nanFree e he) (h e he)

theorem accepts_of_met (hq : q.conditions = D.conditions) (h : D.Met d) : q.accepts d = true := by
  rw [Query.accepts, hq, Condition.allHold_iff]
  exact holds_of_met h

/-! ## The invariant -/

theorem met_edit (hs : D.SparedBy q) (h : D.Met d) (he : q.edit d = .ok (d', changed)) :
    D.Met d' := by
  intro e hm
  have havoids : ∀ u ∈ q.updates, u.Avoids (Dotted.segments e.1) := fun u hu =>
    Update.avoids_of_plain (hs u hu).1 ((hs u hu).2 e hm)
  rw [Query.within?_edit_of_avoids havoids he]
  exact h e hm

theorem met_cons {key : String} (v : Value) (hk : d.contains key = false) (h : D.Met d) :
    D.Met ((key, v) :: d) := by
  intro e he
  have hd := h e he
  obtain ⟨k, rest, hp⟩ := List.exists_cons_of_ne_nil (Dotted.segments_ne_nil e.1)
  rw [hp] at hd ⊢
  obtain ⟨child, hchild, hw⟩ := Option.bind_eq_some_iff.mp hd
  have hne : key ≠ k := by
    rintro rfl
    rw [Entries.contains, hchild] at hk
    cases hk
  rw [Value.within?, Entries.find?_cons, if_neg hne, hchild, Option.bind_some, hw]

/-- **The seeded document** has every operand at its path, and an identity. -/
theorem met_seed (hq : q.conditions = D.conditions) (hs : D.SparedBy q) {fresh : ObjectId}
    (h : q.seed fresh = .ok d) : D.Met d ∧ d.contains "_id" = true := by
  obtain ⟨start, hstart, hmet, -⟩ := Query.exists_described hq D.plain D.apart
  obtain ⟨_, hdescribed, h⟩ := bind_eq_ok.mp h
  rw [hstart] at hdescribed
  cases hdescribed
  obtain ⟨⟨edited, changed⟩, hedit, h⟩ := bind_eq_ok.mp h
  have hedited := met_edit hs hmet hedit
  by_cases hid : edited.contains "_id" = true
  · simp only [hid, if_true] at h
    cases h
    exact ⟨hedited, hid⟩
  · simp only [hid] at h
    cases h
    exact ⟨met_cons _ (by simpa using hid) hedited, by simp [Entries.contains, Entries.find?_cons]⟩

end Description

/-! ## Calls -/

/-- A call that updates the first match, or inserts. -/
inductive Upsert where
  | update (q : Query)
  | findAndUpdate (q : Query)

namespace Upsert

/-- The query of a call. -/
def query : Upsert → Query
  | update q => q
  | findAndUpdate q => q

/-- The outcome of an action without its answer. -/
def outcome {α : Type} (done : Except StoreError α × Memory) : Except StoreError Unit × Memory :=
  (done.1.map fun _ => (), done.2)

/-- Whether a call succeeds, and the state after it. -/
def perform (name : String) (memory : Memory) : Upsert → Except StoreError Unit × Memory
  | update q => outcome ((Memory.backend.update q name).perform memory)
  | findAndUpdate q => outcome ((Memory.backend.findAndUpdate q name).perform memory)

/-- The state after calls one after the other, whether they succeed or not. -/
def performAll (name : String) (memory : Memory) (calls : List Upsert) : Memory :=
  calls.foldl (fun memory call => (call.perform name memory).2) memory

theorem outcome_updateStep_cases {α : Type} (q : Query) (name : String)
    (answer : Option Document × Bool → α) (memory : Memory) :
    (∃ result memory', memory.update q name = .ok (result, memory') ∧
      outcome (Memory.updateStep q name answer memory) = (.ok (), memory')) ∨
    (∃ cause, outcome (Memory.updateStep q name answer memory) = (.error cause, memory)) := by
  obtain ⟨result, memory', hu, heq⟩ | ⟨cause, -, heq⟩ := Memory.updateStep_cases answer memory
  · exact .inl ⟨result, memory', hu, by rw [heq]; rfl⟩
  · exact .inr ⟨.backend (.update cause), by rw [heq]; rfl⟩

theorem perform_cases (call : Upsert) (name : String) (memory : Memory) :
    (∃ result memory', memory.update call.query name = .ok (result, memory') ∧
      call.perform name memory = (.ok (), memory')) ∨
    (∃ cause, call.perform name memory = (.error cause, memory)) := by
  cases call with
  | update q => exact outcome_updateStep_cases q name _ memory
  | findAndUpdate q => exact outcome_updateStep_cases q name _ memory

variable {D : Description} {name : String} {memory memory' : Memory} {old : List Document}

theorem perform_keeps (hold : ∀ d ∈ old, Condition.allHold D.conditions d = false) {call : Upsert}
    (hq : call.query.conditions = D.conditions) (hs : D.SparedBy call.query)
    (h : D.Grown old (memory.documents name)) :
    D.Grown old ((call.perform name memory).2.documents name) := by
  obtain ⟨d, hdocs, hmet⟩ := h
  have haccepts : call.query.accepts d = true := Description.accepts_of_met hq hmet
  obtain ⟨result, memory', hu, heq⟩ | ⟨cause, heq⟩ := perform_cases call name memory
  · rw [heq]
    obtain ⟨before, found, after, new, changed, hsplit, hedit, -, hnew⟩ | ⟨seed, hnone, -⟩ :=
      Memory.update_cases hu
    · have hfirst : splitFirst call.query.accepts (old ++ [d]) = some (old, d, []) :=
        splitFirst_append_singleton (fun x hx => by rw [Query.accepts, hq]; exact hold x hx)
          haccepts
      rw [hdocs, hfirst] at hsplit
      cases hsplit
      exact ⟨new, hnew, Description.met_edit hs hmet hedit⟩
    · have := hnone d (by simp [hdocs])
      rw [haccepts] at this
      cases this
  · rw [heq]
    exact ⟨d, hdocs, hmet⟩

theorem performAll_keeps (hold : ∀ d ∈ old, Condition.allHold D.conditions d = false)
    {calls : List Upsert}
    (hcalls : ∀ call ∈ calls, call.query.conditions = D.conditions ∧ D.SparedBy call.query)
    (h : D.Grown old (memory.documents name)) :
    D.Grown old ((performAll name memory calls).documents name) := by
  induction calls generalizing memory with
  | nil => exact h
  | cons call rest ih =>
    rw [List.forall_mem_cons] at hcalls
    obtain ⟨⟨hq, hs⟩, hrest⟩ := hcalls
    exact ih hrest (perform_keeps hold hq hs h)

/-- **Upserts converge.** When nothing matches the equalities of a call and the call succeeds, it
appends one document, which has an identity and matches; and after any later calls by the same
equalities, whose updates keep off their paths too, there is still just one document more than
before. -/
theorem converges {first : Upsert} (hq : first.query.conditions = D.conditions)
    (hs : D.SparedBy first.query)
    (hnone : ∀ d ∈ memory.documents name, first.query.accepts d = false)
    (hok : first.perform name memory = (.ok (), memory')) :
    ∃ d, memory'.documents name = memory.documents name ++ [d] ∧ d.contains "_id" = true ∧
      (∀ c ∈ first.query.conditions, c.holds d = true) ∧
      ∀ later : List Upsert,
        (∀ call ∈ later, call.query.conditions = D.conditions ∧ D.SparedBy call.query) →
        ∃ d', (performAll name memory' later).documents name = memory.documents name ++ [d'] ∧
          first.query.accepts d' = true := by
  obtain ⟨result, next, hu, heq⟩ | ⟨cause, heq⟩ := perform_cases first name memory
  case inr => rw [heq] at hok; cases hok
  rw [heq] at hok
  cases hok
  obtain ⟨before, found, after, new, changed, hsplit, -⟩ | ⟨seed, -, hseed, -, hdocs⟩ :=
    Memory.update_cases hu
  · rw [splitFirst_eq_none.mpr hnone] at hsplit
    cases hsplit
  obtain ⟨hmet, hid⟩ := Description.met_seed hq hs hseed
  refine ⟨seed, hdocs, hid, hq ▸ Description.holds_of_met hmet, fun later hlater => ?_⟩
  have hold : ∀ d ∈ memory.documents name, Condition.allHold D.conditions d = false := by
    intro d hd
    rw [← hq]
    exact hnone d hd
  obtain ⟨d', hd', hmet'⟩ := performAll_keeps hold hlater ⟨seed, hdocs, hmet⟩
  exact ⟨d', hd', Description.accepts_of_met hq hmet'⟩

/-- The counter of a page on a day. -/
def pageCounter : Description where
  equalities := [("page", .string "home"), ("day.number", .int32 1)]
  plain := by decide
  apart := by decide
  wellFormed := by
    rw [List.forall_mem_cons, List.forall_mem_singleton]
    exact ⟨Value.wellFormed_of_isAtom rfl, Value.wellFormed_of_isAtom rfl⟩
  nanFree := by simp [Value.NaNFree, Value.Everywhere, Value.NotNaN]

/-- The query that counts a visit of the page. -/
def counting : Query where
  conditions := pageCounter.conditions
  updates := [⟨"visits.total", .increment (.int32 1)⟩]

/-- The first visit makes the counter, and two more visits make no other. -/
theorem converges_counting :
    ∃ memory', (Upsert.update counting).perform "pages" {} = (.ok (), memory') ∧
      (∃ d, memory'.documents "pages" = [d] ∧ counting.accepts d = true) ∧
      ∃ d', (performAll "pages" memory' [.findAndUpdate counting, .update counting]).documents
        "pages" = [d'] ∧ counting.accepts d' = true := by
  have hs : pageCounter.SparedBy counting := by decide
  obtain ⟨memory', hok⟩ : ∃ memory',
      (Upsert.update counting).perform "pages" {} = (.ok (), memory') := ⟨_, rfl⟩
  obtain ⟨d, hdocs, -, hholds, hlater⟩ :=
    @converges pageCounter "pages" {} memory' (.update counting) rfl hs nofun hok
  obtain ⟨d', hdocs', haccepts⟩ := hlater [.findAndUpdate counting, .update counting]
    (by simp [query, hs]; rfl)
  exact ⟨memory', hok, ⟨d, hdocs, Condition.allHold_iff.mpr hholds⟩, d', hdocs', haccepts⟩

end Upsert

end Dossier
