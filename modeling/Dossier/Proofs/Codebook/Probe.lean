import Mathlib
import Dossier.Proofs.Codebook.Along

/-!
# Probes

Codecs and documents that show in which order, and where, codecs are applied.

* `Codec.Lawful`: decoding undoes encoding; `Codec.unchanged` and **`Codec.wrapping`** are lawful;
* `Value.DocumentsOnly`: values that codecs which change nothing can pass
  (`Value.pass_unchangedOn`), and `Value.nest`, the simplest of them, a path;
* **`Codebook.wrappingAt`**: codecs for many fields of which one wraps values.
-/

namespace Dossier

theorem Dotted.segments_injective : Function.Injective segments :=
  Function.LeftInverse.injective join_segments

theorem Dotted.dot_not_mem_of_mem_segments {text segment : String} (h : segment ∈ segments text) :
    '.' ∉ segment.toList := by
  obtain ⟨piece, hpiece, rfl⟩ := List.mem_map.mp h
  simpa using dot_not_mem_split _ piece hpiece

theorem Dotted.exists_cons_of_prefix {a b : String} (hne : a ≠ b)
    (h : segments a <+: segments b) :
    ∃ k q, segments b = segments a ++ k :: q ∧ '.' ∉ k.toList := by
  obtain ⟨q, hq⟩ := h
  cases q with
  | nil =>
    rw [List.append_nil] at hq
    exact absurd (segments_injective hq) hne
  | cons k q => exact ⟨k, q, hq.symm, @dot_not_mem_of_mem_segments b k (by simp [← hq])⟩

namespace Codec

/-- Decoding undoes encoding. -/
def Lawful (c : Codec) : Prop := ∀ v w, c.encode v = .ok w → c.decode w = .ok v

/-- Leaves values as they are. -/
def unchanged : Codec := ⟨.ok, .ok⟩

/-- Puts values under a key with a dot, which is on no path. -/
def wrapping : Codec where
  encode v := .ok (.document [("w.v", v)])
  decode v :=
    match v.within? ["w.v"] with
    | some inner => .ok inner
    | none => .error (.invalidDocument (.rejected "not wrapped"))

theorem lawful_unchanged : unchanged.Lawful := by
  intro v w h
  cases h
  rfl

theorem lawful_wrapping : wrapping.Lawful := by
  intro v w h
  cases h
  rfl

/-- Codecs for fields that change nothing. -/
def unchangedOn (fields : List String) : Entries Codec := fields.map (·, unchanged)

/-- Codecs for fields, of which that for one field wraps values. -/
def wrappingAt (front : List String) (field : String) (back : List String) : Entries Codec :=
  unchangedOn front ++ (field, wrapping) :: unchangedOn back

variable {fields front back : List String} {field : String}

@[simp] theorem keys_unchangedOn : (unchangedOn fields).keys = fields := by
  simp [unchangedOn, Entries.keys, Function.comp_def]

@[simp] theorem keys_wrappingAt : (wrappingAt front field back).keys = front ++ field :: back := by
  rw [wrappingAt, Entries.keys, List.map_append, List.map_cons]
  exact congrArg₂ (· ++ field :: ·) keys_unchangedOn keys_unchangedOn

theorem eq_unchanged_of_mem {e : String × Codec} (h : e ∈ unchangedOn fields) :
    e.2 = unchanged := by
  obtain ⟨_, -, rfl⟩ := List.mem_map.mp h
  rfl

theorem eq_unchanged_of_find?_wrappingAt {other : String} {c : Codec} (hne : other ≠ field)
    (h : (wrappingAt front field back).find? other = some c) : c = unchanged := by
  have hmem := Entries.mem_of_find? h
  rw [wrappingAt, List.mem_append, List.mem_cons] at hmem
  obtain hmem | hmem | hmem := hmem
  · exact eq_unchanged_of_mem hmem
  · exact absurd (congrArg Prod.fst hmem) hne
  · exact eq_unchanged_of_mem hmem

theorem lawful_of_mem_unchangedOn : ∀ e ∈ unchangedOn fields, e.2.Lawful := by
  intro e he
  rw [eq_unchanged_of_mem he]
  exact lawful_unchanged

end Codec

namespace Value

variable {f : Value → Except StoreError Value} {way : Codec → Value → Except StoreError Value}
  {p q r : Path} {v w x : Value} {k l : String} {fields : List String}

/-! ## Documents only -/

/-- Whether there is nothing but documents inside. -/
def DocumentsOnly (v : Value) : Prop := v.Everywhere fun v => ∃ fields, v = document fields

theorem documentsOnly_document {fields : Document} :
    (document fields).DocumentsOnly ↔ ∀ f ∈ fields, f.2.DocumentsOnly := by
  simp [DocumentsOnly, everywhere_document]

theorem documentsOnly_empty : (document []).DocumentsOnly :=
  documentsOnly_document.mpr fun _ h => absurd h List.not_mem_nil

theorem wellFormed_empty : (document []).WellFormed := by simp [Entries.Distinct, Entries.keys]

theorem DocumentsOnly.clear (h : v.DocumentsOnly) (p : Path) : v.Clear p := by
  induction p generalizing v with
  | nil => exact clear_nil v
  | cons k p ih =>
    obtain ⟨fields, rfl⟩ := h.self
    intro child hchild
    exact ih (documentsOnly_document.mp h _ (Entries.mem_of_find? hchild))

theorem mapAt_ok_of_clear (h : v.Clear p) : v.mapAt .ok p = .ok v := by
  induction p generalizing v with
  | nil => exact mapAt_nil
  | cons k p ih =>
    obtain ⟨fields, rfl, hchild⟩ := h.exists_fields
    cases hk : Entries.find? fields k with
    | none => exact mapAt_cons_of_find?_eq_none hk
    | some child =>
      rw [mapAt_cons_of_find? hk, ih (hchild child hk), Except.map, Entries.insert_of_find? hk]

theorem pass_unchangedOn (hway : way .unchanged = .ok) (hv : v.DocumentsOnly) :
    v.pass way (Codec.unchangedOn fields).placed = .ok v := by
  induction fields with
  | nil => rfl
  | cons field fields ih =>
    have hstep : v.mapAt (way .unchanged) (Dotted.segments field) = .ok v := by
      rw [hway, mapAt_ok_of_clear (hv.clear _)]
    exact (pass_cons_of_eq_ok hstep).trans ih

theorem pass_wrappingAt (hway : way .unchanged = .ok) {front back : List String} {field : String}
    (hv : v.DocumentsOnly) :
    v.pass way (Codec.wrappingAt front field back).placed =
      v.mapAt (way .wrapping) (Dotted.segments field) >>=
        pass way (Codec.unchangedOn back).placed := by
  rw [Codec.wrappingAt, Entries.placed, List.map_append, List.map_cons, ← Entries.placed,
    pass_append_of_eq_ok (pass_unchangedOn hway hv), pass_cons, ← Entries.placed]

theorem pass_wrappingAt_eq_ok (hway : way .unchanged = .ok) {front back : List String}
    {field : String} (hv : v.DocumentsOnly) (hw : w.DocumentsOnly)
    (h : v.mapAt (way .wrapping) (Dotted.segments field) = .ok w) :
    v.pass way (Codec.wrappingAt front field back).placed = .ok w := by
  rw [pass_wrappingAt hway hv, h]
  exact pass_unchangedOn hway hw

/-! ## Nested documents -/

/-- A value at the end of a path through documents that hold nothing else. -/
def nest (p : Path) (x : Value) : Value := p.foldr (fun key v => document [(key, v)]) x

@[simp] theorem nest_nil : nest [] x = x := rfl

@[simp] theorem nest_cons : nest (k :: p) x = document [(k, nest p x)] := rfl

theorem nest_append : nest (p ++ q) x = nest p (nest q x) := List.foldr_append

theorem exists_document_nest (p : Path) (fields : Document) :
    ∃ d : Document, nest p (document fields) = document d := by
  cases p with
  | nil => exact ⟨fields, rfl⟩
  | cons k p => exact ⟨_, rfl⟩

theorem DocumentsOnly.nest (hx : x.DocumentsOnly) (p : Path) : (nest p x).DocumentsOnly := by
  induction p with
  | nil => exact hx
  | cons k p ih =>
    rw [nest_cons, documentsOnly_document]
    simpa using ih

theorem WellFormed.nest (hx : x.WellFormed) (p : Path) : (nest p x).WellFormed := by
  induction p with
  | nil => exact hx
  | cons k p ih =>
    rw [nest_cons, wellFormed_document]
    simpa [Entries.Distinct, Entries.keys] using ih

theorem within?_nest : (nest p x).within? (p ++ q) = x.within? q := by
  induction p with
  | nil => rfl
  | cons k p ih =>
    rw [nest_cons, List.cons_append, within?, Entries.find?_cons, if_pos rfl, Option.bind_some, ih]

theorem within?_nest_self : (nest p x).within? p = some x := by
  have h := @within?_nest p [] x
  rwa [List.append_nil, within?_nil] at h

theorem mapAt_nest : (nest p x).mapAt f (p ++ q) = (x.mapAt f q).map (nest p) := by
  induction p with
  | nil =>
    rw [List.nil_append, nest_nil]
    cases x.mapAt f q <;> rfl
  | cons k p ih =>
    have hfind : Entries.find? [(k, nest p x)] k = some (nest p x) := by
      rw [Entries.find?_cons, if_pos rfl]
    rw [nest_cons, List.cons_append, mapAt_cons_of_find? hfind, ih]
    cases x.mapAt f q with
    | error e => rfl
    | ok w => simp [Except.map, Entries.insert]

theorem mapAt_nest_of_ne (h : k ≠ l) :
    (nest (p ++ l :: q) x).mapAt f (p ++ k :: r) = .ok (nest (p ++ l :: q) x) := by
  have hfind : Entries.find? [(l, nest q x)] k = none := by
    rw [Entries.find?_cons, if_neg h.symm, Entries.find?_nil]
  rw [nest_append, mapAt_nest, nest_cons, mapAt_cons_of_find?_eq_none hfind, Except.map]

theorem mapAt_wrapping_nest (p q : Path) :
    (nest (p ++ q) x).mapAt Codec.wrapping.encode p = .ok (nest (p ++ "w.v" :: q) x) := by
  have h := @mapAt_nest Codec.wrapping.encode p [] (nest q x)
  rw [List.append_nil, mapAt_nil, ← nest_append] at h
  rw [h, nest_append]
  rfl

theorem nest_inj : nest p (document []) = nest q (document []) ↔ p = q := by
  constructor
  · intro h
    induction p generalizing q with
    | nil => cases q <;> simp at h ⊢
    | cons k p ih =>
      cases q with
      | nil => simp at h
      | cons l q =>
        simp only [nest_cons, document.injEq, List.cons.injEq, Prod.mk.injEq, and_true] at h
        rw [h.1, ih h.2]
  · rintro rfl
    rfl

end Value

end Dossier
