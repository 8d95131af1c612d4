import Mathlib
import Dossier.Proofs.Value.Part
import Dossier.Read
import Dossier.Read.Plan

/-!
# What projections keep

* `Document.copyPath_eq`: copying along a path puts what the path leads to through documents only;
* **`Document.document_project`**: a projection is the part of a document at its paths;
* **`Document.project_eq_iff`**: two documents have one projection just when they agree on its paths;
* `Document.EntersArray`: whether a path goes on to values in an array that it meets after documents
  only, and **`ReadPlan.read_select`**: a read that selects one field loses its values just then.
-/

namespace Dossier

namespace Document

variable {d e projection : Document}

/-! ## Copying along a path -/

theorem exists_start {source target inner : Document} {key : String}
    (h : (Value.document target).PartOf (.document source))
    (hfind : source.find? key = some (.document inner)) :
    ∃ start : Document, ((target.find? key).bind Value.fields?).getD [] = start ∧
      (target.find? key).getD (.document []) = .document start ∧
      (start = [] ∨ target.find? key = some (.document start)) ∧
      (Value.document start).PartOf (.document inner) := by
  obtain ⟨fields, heq, hfields⟩ := h.exists_fields
  obtain rfl := Value.document.inj heq
  cases htarget : target.find? key with
  | none => exact ⟨[], rfl, rfl, .inl rfl, .empty inner⟩
  | some v =>
    obtain ⟨w, hw, hpart⟩ := hfields key v htarget
    obtain rfl := Option.some.inj (hfind.symm.trans hw)
    obtain ⟨start, rfl, -⟩ := hpart.exists_fields
    exact ⟨start, rfl, rfl, .inr rfl, hpart⟩

/-- **Copying along a path** into a part of the source puts what the path leads to. -/
theorem copyPath_eq {source target : Document} {p : Path} (hp : p ≠ [])
    (h : (Value.document target).PartOf (.document source)) :
    .document (copyPath p source target) = (Value.document source).addAt (.document target) p := by
  induction p generalizing source target with
  | nil => exact absurd rfl hp
  | cons key rest ih =>
    cases rest with
    | nil =>
      cases hfind : Entries.find? source key <;>
        simp [copyPath, Value.addAt, Value.within?, Value.putWithin, hfind]
    | cons next rest =>
      rw [copyPath]
      split
      case h_2 hother =>
        -- there is nothing to go on in, or a value that is no document
        have hmissing : (Value.document source).within? (key :: next :: rest) = none := by
          rw [Value.within?]
          cases hfind : Entries.find? source key with
          | none => rfl
          | some child =>
            cases child
            case document inner => exact absurd hfind (hother inner)
            all_goals rfl
        rw [Value.addAt_of_missing _ hmissing]
      case h_1 inner hfind =>
        obtain ⟨start, hcopied, hput, hstart, hpart⟩ := exists_start h hfind
        have hnested := ih (List.cons_ne_nil _ _) hpart
        have hwithin : (Value.document source).within? (key :: next :: rest) =
            (Value.document inner).within? (next :: rest) := by
          rw [Value.within?, hfind, Option.bind_some]
        rw [hcopied]
        cases hw : (Value.document inner).within? (next :: rest) with
        | none =>
          rw [Value.addAt_of_missing _ hw] at hnested
          rw [Value.addAt_of_missing _ (hwithin.trans hw), Value.document.inj hnested]
          rcases hstart with rfl | hstart
          · rfl
          · have hinsert := Entries.insert_of_find? hstart
            simp only [hinsert, ite_self]
        | some w =>
          rw [Value.addAt_of_within? _ hw, Value.putWithin] at hnested
          have hne : copyPath (next :: rest) inner start ≠ [] := by
            rw [Value.document.inj hnested]
            exact Entries.insert_ne_nil _ _ _
          rw [Value.addAt_of_within? _ (hwithin.trans hw), Value.putWithin, hput, Value.putWithin,
            ← hnested, if_neg (by simpa using hne)]

/-! ## Projections -/

/-- The paths of a projection, with that of the identity. -/
def keptPaths (projection : Document) : List Path :=
  (if projection.keepsId then [["_id"]] else []) ++ projection.includedPaths

theorem ne_nil_of_mem_keptPaths {p : Path} (hp : p ∈ projection.keptPaths) : p ≠ [] := by
  rcases List.mem_append.mp hp with hp | hp
  · split at hp
    · rw [List.mem_singleton.mp hp]
      exact List.cons_ne_nil _ _
    · cases hp
  · obtain ⟨field, -, rfl⟩ := List.mem_map.mp hp
    exact Dotted.segments_ne_nil field.1

theorem project_eq_foldl (projection d : Document) :
    projection.project d = projection.keptPaths.foldl (fun target path => copyPath path d target) [] := by
  rw [project, keptPaths, List.foldl_append]
  split <;> rfl

/-- **A projection is the part of a document at its paths.** -/
theorem document_project (projection d : Document) :
    .document (projection.project d) = (Value.document d).partAt projection.keptPaths := by
  have hpaths : ∀ p ∈ projection.keptPaths, p ≠ [] := fun p => ne_nil_of_mem_keptPaths
  rw [project_eq_foldl]
  generalize projection.keptPaths = paths at hpaths
  induction paths using List.reverseRecOn with
  | nil => rfl
  | append_singleton paths p ih =>
    rw [List.forall_mem_append, List.forall_mem_singleton] at hpaths
    have hpart := Value.partOf_partAt d paths
    rw [← ih hpaths.1] at hpart
    rw [List.foldl_append, Value.partAt_concat, ← ih hpaths.1]
    exact copyPath_eq hpaths.2 hpart

example : project [("a.b", .int32 1), ("a", .int32 0), ("a.b.c", .int32 1)]
    [("_id", .int32 1), ("a", .document [("b", .document [("c", .null)]), ("e", .null)])] =
    [("_id", .int32 1), ("a", .document [("b", .document [("c", .null)])])] := rfl

/-- **A projection keeps what it includes, and nothing else.** Two documents have one projection just
when they agree on the identity, unless it is left out, and on what every included path leads to
through documents only. -/
theorem project_eq_iff (projection d e : Document) :
    projection.project d = projection.project e ↔
      (projection.keepsId = true → d.find? "_id" = e.find? "_id") ∧
      ∀ p ∈ projection.includedPaths,
        (Value.document d).within? p = (Value.document e).within? p := by
  have hid (d : Document) : (Value.document d).within? ["_id"] = d.find? "_id" := by
    cases hfind : Entries.find? d "_id" <;> simp [Value.within?, hfind]
  rw [← Value.document.injEq, document_project, document_project, Value.partAt_eq_iff, keptPaths,
    List.forall_mem_append]
  refine and_congr_left fun _ => ?_
  split
  case isTrue h => simp [h, hid]
  case isFalse h => simp [h]

/-! ## Paths into arrays -/

/-- Whether a path leads through documents only to an array, and on to values in it. -/
def EntersArray (d : Document) (p : Path) : Prop :=
  ∃ front back items, p = front ++ back ∧ back ≠ [] ∧
    (Value.document d).within? front = some (.array items) ∧ d.reach p ≠ []

theorem reach_empty (p : Path) : reach [] p = [] := by
  cases p with
  | nil => rfl
  | cons k rest => exact Value.foldl_children_nil rest

/-- Where a path ends early, it meets a value in which it cannot go on through documents. -/
theorem exists_stop {v : Value} {p : Path} (h : v.within? p = none) :
    ∃ front k rest w, p = front ++ k :: rest ∧ v.within? front = some w ∧
      ∀ fields : Document, w = .document fields → fields.find? k = none := by
  induction p generalizing v with
  | nil => simp at h
  | cons k rest ih =>
    cases v
    case document fields =>
      cases hfind : Entries.find? fields k with
      | none =>
        refine ⟨[], k, rest, _, rfl, Value.within?_nil _, fun others heq => ?_⟩
        rw [← Value.document.inj heq, hfind]
      | some child =>
        rw [Value.within?, hfind, Option.bind_some] at h
        obtain ⟨front, l, rest, w, rfl, hw, hstop⟩ := ih h
        exact ⟨k :: front, l, rest, w, rfl, by rw [Value.within?, hfind, Option.bind_some, hw], hstop⟩
    all_goals exact ⟨[], k, rest, _, rfl, Value.within?_nil _, fun _ heq => by cases heq⟩

theorem entersArray_iff {p : Path} :
    d.EntersArray p ↔ (Value.document d).within? p = none ∧ d.reach p ≠ [] := by
  constructor
  · rintro ⟨front, back, items, rfl, hback, hitems, hreach⟩
    obtain ⟨k, rest, rfl⟩ := List.exists_cons_of_ne_nil hback
    refine ⟨?_, hreach⟩
    rw [Value.within?_append, hitems]
    rfl
  · rintro ⟨hmissing, hreach⟩
    obtain ⟨front, k, rest, w, rfl, hw, hstop⟩ := exists_stop hmissing
    refine ⟨front, k :: rest, w.items, rfl, List.cons_ne_nil _ _, ?_, hreach⟩
    rw [reach_eq_foldl d (by simp), List.foldl_append,
      Value.foldl_children_of_descend? (Value.descend?_of_within? hw), List.foldl_cons,
      List.flatMap_singleton] at hreach
    cases w
    case array items => exact hw
    all_goals
      exfalso
      apply hreach
      simp [Value.children, hstop, Value.foldl_children_nil]

end Document

/-! ## Reads that select one field -/

namespace ReadPlan

variable {f : String}

/-- The projection of a read that selects one field. -/
def selection (f : String) : Document := Entries.ofList [(f, .int32 1), ("_id", .int32 0)]

theorem keptPaths_selection (hf : f ≠ "_id") : (selection f).keptPaths = [Dotted.segments f] := by
  have hpairs : selection f = [(f, .int32 1), ("_id", .int32 0)] :=
    Entries.ofList_of_distinct (by simp [Entries.Distinct, Entries.keys, hf])
  have hone : (Value.int32 1).isIncluded = true := rfl
  have hzero : (Value.int32 0).isIncluded = false := rfl
  simp [Document.keptPaths, Document.keepsId, Document.includedPaths, hpairs, Entries.find?_cons, hf,
    hone, hzero]

/-- What a selection keeps at its path is what stands there among documents, or nothing at all. -/
theorem project_selection (hf : f ≠ "_id") (d : Document) :
    (Value.document ((selection f).project d)).within? (Dotted.segments f) =
        (Value.document d).within? (Dotted.segments f) ∧
      ((Value.document d).within? (Dotted.segments f) = none → (selection f).project d = []) := by
  have hpart := Document.document_project (selection f) d
  rw [keptPaths_selection hf] at hpart
  constructor
  · rw [hpart]
    exact Value.within?_partAt d List.mem_cons_self
  · intro hmissing
    rw [Value.partAt, List.foldl_cons, Value.addAt_of_missing _ hmissing] at hpart
    exact Value.document.inj hpart

/-- **A read that selects one field** gives the selected part of what it gives otherwise. The part
reaches at the field just what the document reaches there, unless the path enters an array: then
nothing is left of the document. -/
theorem read_select (plan : ReadPlan) (hf : f ≠ "_id") (q : Query) (documents : List Document) :
    (∀ shape ∈ [(plan.select f).shape, (plan.select f).readLazily.1],
      shape.read q documents =
        ({ shape with projection := none }.read q documents).map (selection f).project) ∧
    ∀ d : Document,
      (((selection f).project d).reach (Dotted.segments f) = d.reach (Dotted.segments f) ↔
        ¬ d.EntersArray (Dotted.segments f)) ∧
      (d.EntersArray (Dotted.segments f) → (selection f).project d = []) := by
  have hp := Dotted.segments_ne_nil f
  constructor
  · have hread (shape : ReadShape) (hprojection : shape.projection = some (selection f)) :
        shape.read q documents =
          ({ shape with projection := none }.read q documents).map (selection f).project := by
      rw [ReadShape.read, ReadShape.read, List.map_map]
      refine List.map_congr_left fun d _ => ?_
      rw [ReadShape.cut, hprojection]
      rfl
    intro shape hshape
    refine hread shape ?_
    rcases List.mem_pair.mp hshape with rfl | rfl
    · rfl
    · rw [readLazily]
      split <;> rfl
  · intro d
    obtain ⟨hkept, hlost⟩ := project_selection hf d
    rw [Document.entersArray_iff]
    cases hw : (Value.document d).within? (Dotted.segments f) with
    | some w =>
      rw [hw] at hkept
      rw [Document.reach_of_within? hp hkept, Document.reach_of_within? hp hw]
      simp
    | none =>
      rw [hlost hw, Document.reach_empty]
      refine ⟨⟨fun h hreach => hreach.2 h.symm, fun h => ?_⟩, fun _ => rfl⟩
      exact (not_not.mp fun hreach => h ⟨rfl, hreach⟩).symm

/-- A field of a nested document is selected without its neighbour. -/
theorem read_select_city :
    let d : Document :=
      [("_id", .int32 1), ("address", .document [("zip", .int32 2), ("city", .string "x")])]
    "address.city" ≠ "_id" ∧
      (empty.select "address.city").shape.read .empty [d] =
        [[("address", .document [("city", .string "x")])]] ∧
      ¬ d.EntersArray (Dotted.segments "address.city") := by
  intro d
  have hf : "address.city" ≠ "_id" := by decide
  obtain ⟨hread, hkeeps⟩ := read_select empty hf .empty [d]
  exact ⟨hf, hread _ List.mem_cons_self, (hkeeps d).1.mp rfl⟩

/-- The field of documents in an array is lost. -/
theorem read_select_lines :
    let d : Document := [("_id", .int32 1), ("lines", .array [.document [("qty", .int32 2)]])]
    (empty.select "lines.qty").shape.read .empty [d] = [[]] ∧
      d.reach (Dotted.segments "lines.qty") = [.int32 2] ∧
      Document.reach [] (Dotted.segments "lines.qty") = [] :=
  ⟨rfl, rfl, rfl⟩

end ReadPlan

end Dossier
