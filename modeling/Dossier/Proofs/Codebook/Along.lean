import Mathlib
import Dossier.Codebook
import Dossier.Proofs.Edit.Described

/-!
# Codecs along paths

A codec acts on one place of a document, at the end of its path, and leaves a document without that
place alone.

* `Value.mapAt`: a function at a path inside a value, as `Document.mapAt` inside a document
  (`Document.mapAt_eq_ok_iff`); `Value.mapAt_cons_eq_ok` takes one step of it apart;
* **`Value.mapAt_undo`**: what undoes the function undoes it at a path;
* **`Value.mapAt_diamond`**: functions at paths apart can be applied in either order;
* `Value.exists_mapAt_append`, `Value.within?_mapAt_of_apart`: what shows of it at another path;
* `Value.pass`, `Entries.placed`: a value passed through the codecs of a codebook, one after the
  other (`Codebook.encodeDocument_eq_ok`, `Codebook.decodeDocument_eq_ok`).
-/

namespace Dossier

theorem Entries.insert_comm {α : Type} {entries : Entries α} {k l : String} (h : k ≠ l) {a b : α}
    (hk : entries.find? k = some a) (hl : entries.find? l = some b) (v w : α) :
    Entries.insert (entries.insert k v) l w = Entries.insert (entries.insert l w) k v := by
  induction entries with
  | nil => cases hk
  | cons entry rest ih =>
    obtain ⟨key, u⟩ := entry
    rw [find?_cons] at hk hl
    by_cases hkey : key = k
    · subst hkey
      simp [insert, h]
    · by_cases hkey' : key = l
      · subst hkey'
        simp [insert, hkey]
      · rw [if_neg hkey] at hk
        rw [if_neg hkey'] at hl
        simp [insert, hkey, hkey', ih hk hl]

/-- Applies `f` to the value at a path through documents. A path that ends early changes nothing,
one that meets another value on its way fails. -/
def Value.mapAt (f : Value → Except StoreError Value) : Path → Value → Except StoreError Value
  | [], v => f v
  | key :: rest, .document fields =>
    match Entries.find? fields key with
    | some child =>
      (mapAt f rest child).map fun child => .document (Entries.insert fields key child)
    | none => .ok (.document fields)
  | p, _ => .error (.invalidDocument (.crossesValue (Dotted.join p)))

variable {f g : Value → Except StoreError Value} {p q : Path} {v w : Value} {k : String}

namespace Value

/-! ## One step -/

@[simp] theorem mapAt_nil : v.mapAt f [] = f v := by cases v <;> rfl

theorem mapAt_cons_eq_ok : v.mapAt f (k :: p) = .ok w ↔ ∃ fields : Document, v = document fields ∧
    ((fields.find? k = none ∧ w = document fields) ∨ ∃ child child', fields.find? k = some child ∧
      child.mapAt f p = .ok child' ∧ w = document (fields.insert k child')) := by
  cases v
  case document fields =>
    rw [mapAt]
    cases hk : Entries.find? fields k with
    | none => simp [hk, eq_comm]
    | some child =>
      rw [map_eq_ok]
      constructor
      · rintro ⟨child', hc, rfl⟩
        exact ⟨fields, rfl, .inr ⟨child, child', hk, hc, rfl⟩⟩
      · rintro ⟨_, hfields, ⟨hnone, -⟩ | ⟨_, child', hsome, hc, rfl⟩⟩ <;> cases hfields
        · rw [hk] at hnone
          cases hnone
        · rw [hk, Option.some.injEq] at hsome
          subst hsome
          exact ⟨child', hc, rfl⟩
  all_goals simp [mapAt]

theorem mapAt_cons_of_find? {fields : Document} {child : Value} (h : fields.find? k = some child) :
    (document fields).mapAt f (k :: p) =
      (child.mapAt f p).map fun child => document (fields.insert k child) := by
  rw [mapAt, h]

theorem mapAt_cons_of_find?_eq_none {fields : Document} (h : fields.find? k = none) :
    (document fields).mapAt f (k :: p) = .ok (document fields) := by
  rw [mapAt, h]

theorem exists_document_of_mapAt {d : Document} (hp : p ≠ []) (h : (document d).mapAt f p = .ok w) :
    ∃ e : Document, w = document e := by
  obtain ⟨k, rest, rfl⟩ := List.exists_cons_of_ne_nil hp
  obtain ⟨fields, -, ⟨-, rfl⟩ | ⟨_, child', -, -, rfl⟩⟩ := mapAt_cons_eq_ok.mp h
  · exact ⟨fields, rfl⟩
  · exact ⟨_, rfl⟩

end Value

theorem Document.mapAt_eq_ok_iff {d e : Document} (hp : p ≠ []) :
    d.mapAt f p = .ok e ↔ (Value.document d).mapAt f p = .ok (.document e) := by
  obtain ⟨k, rest, rfl⟩ := List.exists_cons_of_ne_nil hp
  induction rest generalizing k d e with
  | nil =>
    rw [Document.mapAt, Value.mapAt]
    cases Entries.find? d k with
    | none => simp
    | some child => simp [map_eq_ok]
  | cons l rest ih =>
    rw [Document.mapAt]
    cases hk : Entries.find? d k with
    | none => simp [Value.mapAt_cons_of_find?_eq_none hk]
    | some child =>
      rw [Value.mapAt_cons_of_find? hk]
      cases child
      case document inner =>
        simp only [map_eq_ok]
        constructor
        · rintro ⟨inner', hinner, rfl⟩
          exact ⟨.document inner', (ih l (by simp)).mp hinner, rfl⟩
        · rintro ⟨child', hchild, he⟩
          obtain ⟨inner', rfl⟩ := Value.exists_document_of_mapAt (by simp) hchild
          exact ⟨inner', (ih l (by simp)).mpr hchild, Value.document.inj he⟩
      all_goals simp [Value.mapAt, Except.map]

namespace Value

/-! ## Undoing and reordering -/

/-- **What undoes a function undoes it at a path.** -/
theorem mapAt_undo (hfg : ∀ v w, f v = .ok w → g w = .ok v) (h : v.mapAt f p = .ok w) :
    w.mapAt g p = .ok v := by
  induction p generalizing v w with
  | nil =>
    rw [mapAt_nil] at h ⊢
    exact hfg v w h
  | cons k p ih =>
    obtain ⟨fields, rfl, ⟨hk, rfl⟩ | ⟨child, child', hk, hc, rfl⟩⟩ := mapAt_cons_eq_ok.mp h
    · exact mapAt_cons_of_find?_eq_none hk
    · have hput : Entries.insert (Entries.insert fields k child') k child = fields := by
        rw [Entries.insert_insert, Entries.insert_of_find? hk]
      rw [mapAt_cons_of_find? (Entries.find?_insert_self _ _ _), ih hc, Except.map, hput]

/-- **Functions at paths apart can be applied in either order.** -/
theorem mapAt_diamond {a b : Value} (hpq : Path.Apart p q) (ha : v.mapAt f p = .ok a)
    (hb : v.mapAt g q = .ok b) : ∃ w, a.mapAt g q = .ok w ∧ b.mapAt f p = .ok w := by
  induction p generalizing q v a b with
  | nil => exact absurd hpq Path.not_apart_nil_left
  | cons k p ih =>
    cases q with
    | nil => exact absurd hpq Path.not_apart_nil_right
    | cons l q =>
      rw [Path.apart_cons_cons] at hpq
      obtain ⟨fields, rfl, ⟨hk, rfl⟩ | ⟨x, x', hk, hx, rfl⟩⟩ := mapAt_cons_eq_ok.mp ha
      · -- nothing at `p`, and nothing comes there
        refine ⟨b, hb, ?_⟩
        obtain ⟨_, hfields, ⟨-, rfl⟩ | ⟨y, y', hl, hy, rfl⟩⟩ := mapAt_cons_eq_ok.mp hb
        · cases hfields
          exact mapAt_cons_of_find?_eq_none hk
        · cases hfields
          have hlk : l ≠ k := by rintro rfl; rw [hk] at hl; cases hl
          exact mapAt_cons_of_find?_eq_none (by rw [Entries.find?_insert_of_ne _ hlk, hk])
      obtain ⟨_, hfields, ⟨hl, rfl⟩ | ⟨y, y', hl, hy, rfl⟩⟩ := mapAt_cons_eq_ok.mp hb <;>
        cases hfields
      · -- nothing at `q`
        have hkl : k ≠ l := by rintro rfl; rw [hk] at hl; cases hl
        refine ⟨_, mapAt_cons_of_find?_eq_none (by rw [Entries.find?_insert_of_ne _ hkl, hl]), ?_⟩
        exact ha
      by_cases hkl : k = l
      · subst hkl
        rw [hk, Option.some.injEq] at hl
        subst hl
        obtain ⟨z, hz, hz'⟩ := ih (hpq rfl) hx hy
        refine ⟨document (Entries.insert fields k z), ?_, ?_⟩
        · rw [mapAt_cons_of_find? (Entries.find?_insert_self _ _ _), hz, Except.map,
            Entries.insert_insert]
        · rw [mapAt_cons_of_find? (Entries.find?_insert_self _ _ _), hz', Except.map,
            Entries.insert_insert]
      · refine ⟨document (Entries.insert (Entries.insert fields k x') l y'), ?_, ?_⟩
        · have hl' : Entries.find? (Entries.insert fields k x') l = some y := by
            rw [Entries.find?_insert_of_ne _ hkl, hl]
          rw [mapAt_cons_of_find? hl', hy, Except.map]
        · have hk' : Entries.find? (Entries.insert fields l y') k = some x := by
            rw [Entries.find?_insert_of_ne _ (Ne.symm hkl), hk]
          rw [mapAt_cons_of_find? hk', hx, Except.map, Entries.insert_comm hkl hk hl]

/-! ## What shows at another path -/

theorem exists_mapAt_append {x : Value} (hx : v.within? p = some x)
    (h : v.mapAt f (p ++ q) = .ok w) : ∃ y, x.mapAt f q = .ok y ∧ w.within? p = some y := by
  induction p generalizing v w with
  | nil =>
    rw [within?_nil, Option.some.injEq] at hx
    subst hx
    exact ⟨w, h, within?_nil w⟩
  | cons k p ih =>
    obtain ⟨fields, child, rfl, hchild, hx⟩ := exists_fields_of_within? hx
    rw [List.cons_append, mapAt_cons_of_find? hchild] at h
    obtain ⟨child', hc, rfl⟩ := map_eq_ok.mp h
    obtain ⟨y, hy, hw⟩ := ih hx hc
    exact ⟨y, hy, by rw [within?, Entries.find?_insert_self, Option.bind_some, hw]⟩

theorem within?_mapAt_of_apart (hpq : Path.Apart p q) (h : v.mapAt f p = .ok w) :
    w.within? q = v.within? q := by
  induction p generalizing q v w with
  | nil => exact absurd hpq Path.not_apart_nil_left
  | cons k p ih =>
    cases q with
    | nil => exact absurd hpq Path.not_apart_nil_right
    | cons l q =>
      rw [Path.apart_cons_cons] at hpq
      obtain ⟨fields, rfl, ⟨-, rfl⟩ | ⟨child, child', hk, hc, rfl⟩⟩ := mapAt_cons_eq_ok.mp h
      · rfl
      by_cases hkl : k = l
      · subst hkl
        rw [within?, within?, Entries.find?_insert_self, hk, Option.bind_some, Option.bind_some,
          ih (hpq rfl) hc]
      · rw [within?, within?, Entries.find?_insert_of_ne _ hkl]

/-! ## Codecs one after the other -/

/-- A value passed through codecs at their paths, one after the other, all in one way. -/
def pass (way : Codec → Value → Except StoreError Value) (codecs : List (Path × Codec))
    (v : Value) : Except StoreError Value :=
  codecs.foldlM (fun v c => v.mapAt (way c.2) c.1) v

variable {way : Codec → Value → Except StoreError Value} {codecs : List (Path × Codec)}
  {c : Path × Codec}

@[simp] theorem pass_nil : pass way [] v = .ok v := rfl

theorem pass_cons : pass way (c :: codecs) v = v.mapAt (way c.2) c.1 >>= pass way codecs :=
  List.foldlM_cons

theorem pass_cons_of_eq_ok (h : v.mapAt (way c.2) c.1 = .ok w) :
    v.pass way (c :: codecs) = w.pass way codecs := by
  rw [pass_cons, h]
  rfl

theorem pass_append_of_eq_ok (h : v.pass way codecs = .ok w) (others : List (Path × Codec)) :
    v.pass way (codecs ++ others) = w.pass way others := by
  rw [pass, List.foldlM_append, ← pass, h]
  rfl

theorem pass_diamond {a b : Value} (hp : ∀ c ∈ codecs, Path.Apart p c.1) (ha : v.mapAt f p = .ok a)
    (hb : v.pass way codecs = .ok b) : ∃ w, a.pass way codecs = .ok w ∧ b.mapAt f p = .ok w := by
  induction codecs generalizing v a with
  | nil =>
    cases hb
    exact ⟨a, rfl, ha⟩
  | cons c codecs ih =>
    rw [List.forall_mem_cons] at hp
    rw [pass_cons] at hb
    obtain ⟨x, hx, hb⟩ := bind_eq_ok.mp hb
    obtain ⟨y, hy, hxy⟩ := mapAt_diamond hp.1 ha hx
    obtain ⟨w, hw, hbw⟩ := ih hp.2 hxy hb
    exact ⟨w, by rw [pass_cons, hy]; exact hw, hbw⟩

end Value

/-- Codecs at the paths of their fields. -/
def Entries.placed (codecs : Entries Codec) : List (Path × Codec) :=
  codecs.map fun e => (Dotted.segments e.1, e.2)

namespace Codebook

theorem foldlM_mapAt_eq_ok (way : Codec → Value → Except StoreError Value) (codecs : Entries Codec)
    (d e : Document) :
    codecs.foldlM (fun d c => Document.mapAt (way c.2) (Dotted.segments c.1) d) d = .ok e ↔
      (Value.document d).pass way codecs.placed = .ok (.document e) := by
  induction codecs generalizing d with
  | nil => simp [Entries.placed, pure, Except.pure]
  | cons c codecs ih =>
    have hp := Dotted.segments_ne_nil c.1
    rw [List.foldlM_cons, Entries.placed, List.map_cons, Value.pass_cons, bind_eq_ok, bind_eq_ok]
    constructor
    · rintro ⟨a, ha, h⟩
      exact ⟨_, (Document.mapAt_eq_ok_iff hp).mp ha, (ih a).mp h⟩
    · rintro ⟨w, hw, h⟩
      obtain ⟨a, rfl⟩ := Value.exists_document_of_mapAt hp hw
      exact ⟨a, (Document.mapAt_eq_ok_iff hp).mpr hw, (ih a).mpr h⟩

variable {book : Codebook} {d e : Document}

theorem encodeDocument_eq_ok : book.encodeDocument d = .ok e ↔
    ∃ a, (Value.document d).pass Codec.encode book.codecs.placed = .ok (.document a) ∧
      e = if book.follows .escapeReservedKeys then Document.renameKeys Keys.escape a else a := by
  rw [encodeDocument, bind_eq_ok]
  refine exists_congr fun a => and_congr (foldlM_mapAt_eq_ok _ _ _ _) ?_
  split <;> simp [pure, Except.pure, eq_comm]

theorem decodeDocument_eq_ok (hb : book.follows .escapeReservedKeys = false) :
    book.decodeDocument d = .ok e ↔
      (Value.document d).pass Codec.decode book.codecs.placed = .ok (.document e) := by
  rw [decodeDocument, hb]
  exact foldlM_mapAt_eq_ok _ _ _ _

end Codebook

end Dossier
