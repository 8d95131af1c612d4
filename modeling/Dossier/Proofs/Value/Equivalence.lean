import Mathlib
import Dossier.Proofs.Value.Differ

/-!
# Equality of values as an equivalence

Sameness of values and their equality in filters both go through arrays in order and through
documents by their keys. On well-formed values without NaN both are equivalences; NaN is only lost
for reflexivity, and repeated keys for symmetry.

* `Scalar.equal_iff`, `Value.same_iff_of_isAtom`, **`Value.alike_iff_of_isAtom`**: values that hold no
  others are equal when they stand for one scalar or are one value;
* `Entries.Covered.symm`, `Entries.Covered.trans`: when covered entries can be turned around or
  chained;
* `Value.same_symm`, `Value.same_trans`, **`Value.alike_symm`**, **`Value.alike_trans`**.
-/

namespace Dossier

/-! ## Values that hold no others -/

theorem Scalar.equal_iff {a b : Scalar} : a.equal b = true ↔ a = b ∧ a ≠ number none := by
  obtain _ | ⟨_ | _⟩ | _ | _ | _ | _ := a <;> obtain _ | ⟨_ | _⟩ | _ | _ | _ | _ := b <;>
    simp [equal]

theorem Double.equal_iff {x y : Float} :
    equal x y = true ↔ ∃ r, rank? x = some r ∧ rank? y = some r := by
  rw [equal]
  cases rank? x with
  | none => simp
  | some r =>
    cases rank? y with
    | none => simp
    | some s =>
      simp only [beq_iff_eq, Option.some.injEq, exists_eq_left']
      exact eq_comm

namespace Value

variable {v w x : Value}

theorem same_iff_of_isAtom (hv : v.isAtom = true) (hdouble : v.kind ≠ .double) :
    v.same w = true ↔ v = w := by
  cases v
  case array => cases hv
  case document => cases hv
  case codeWithScope => cases hv
  case double => exact absurd rfl hdouble
  -- other kinds are not the same, and one part or two parts of one kind are compared as such
  all_goals
    cases w <;> first
      | exact iff_of_false Bool.false_ne_true Value.noConfusion
      | exact iff_of_true rfl rfl
      | exact beq_iff_eq.trans (by simp)
      | exact Bool.and_eq_true_iff.trans (by simp)

theorem isAtom_of_scalar? {a : Scalar} (h : v.scalar? = some a) : v.isAtom = true := by
  cases v <;> first | rfl | cases h

theorem alike_of_isAtom (hv : v.isAtom = true) :
    v.alike w = match v.scalar?, w.scalar? with
      | some a, some b => a.equal b
      | none, none => v.same w
      | _, _ => false := by
  cases v
  case array => cases hv
  case document => cases hv
  case codeWithScope => cases hv
  all_goals cases w <;> rfl

theorem kind_ne_double (h : v.scalar? = none) : v.kind ≠ .double := by
  cases v
  case double => cases h
  all_goals
    intro hkind
    cases hkind

/-- **Equality of values that hold no others**: they stand for one scalar, or are one value. -/
theorem alike_iff_of_isAtom (hv : v.isAtom = true) : v.alike w = true ↔
    (∃ a, v.scalar? = some a ∧ w.scalar? = some a ∧ a ≠ .number none) ∨
      (v.scalar? = none ∧ v = w) := by
  rw [alike_of_isAtom hv]
  cases hscalar : v.scalar? with
  | some a =>
    cases w.scalar? with
    | some b =>
      simp only [Scalar.equal_iff, Option.some.injEq, exists_eq_left', reduceCtorEq, false_and,
        or_false]
      rw [eq_comm]
    | none => simp
  | none =>
    have hsame := same_iff_of_isAtom (w := w) hv (kind_ne_double hscalar)
    cases hw : w.scalar? with
    | some b =>
      have hne : v ≠ w := by
        rintro rfl
        rw [hscalar] at hw
        cases hw
      simp [hne]
    | none => simp [hsame]

end Value

/-! ## Items and fields -/

namespace Entries

variable {α : Type} {R : α → α → Prop} {fs gs hs : Entries α}

theorem Covered.symm (h : Covered R fs gs) (hf : fs.Distinct) (hg : gs.Distinct)
    (hlength : fs.length = gs.length) (hR : ∀ f ∈ fs, ∀ g ∈ gs, R f.2 g.2 → R g.2 f.2) :
    Covered R gs fs := by
  intro g hmem
  have hrel := h.rel_find? hf hlength g.1
  rw [find?_of_mem hg hmem] at hrel
  cases hfind : fs.find? g.1 with
  | none =>
    rw [hfind] at hrel
    cases hrel
  | some v =>
    rw [hfind] at hrel
    cases hrel with
    | some hv => exact ⟨v, rfl, hR _ (mem_of_find? hfind) _ hmem hv⟩

theorem Covered.trans (hfg : Covered R fs gs) (hgh : Covered R gs hs)
    (hR : ∀ f ∈ fs, ∀ w x, R f.2 w → R w x → R f.2 x) : Covered R fs hs := by
  intro f hf
  obtain ⟨w, hw, hfw⟩ := hfg f hf
  obtain ⟨x, hx, hwx⟩ := hgh _ (mem_of_find? hw)
  exact ⟨x, hx, hR f hf w x hfw hwx⟩

end Entries

namespace Value

variable {v w x : Value} {xs ys zs : List Value}

theorem forall₂_symm {R : Value → Value → Prop} (h : List.Forall₂ R xs ys)
    (hR : ∀ x ∈ xs, ∀ y ∈ ys, R x y → R y x) : List.Forall₂ R ys xs := by
  induction h with
  | nil => exact .nil
  | cons hxy _ ih =>
    refine .cons (hR _ List.mem_cons_self _ List.mem_cons_self hxy) (ih fun x hx y hy => ?_)
    exact hR x (List.mem_cons_of_mem _ hx) y (List.mem_cons_of_mem _ hy)

theorem forall₂_trans {R : Value → Value → Prop} (hxy : List.Forall₂ R xs ys)
    (hyz : List.Forall₂ R ys zs) (hR : ∀ x ∈ xs, ∀ y z, R x y → R y z → R x z) :
    List.Forall₂ R xs zs := by
  induction hxy generalizing zs with
  | nil => exact hyz
  | cons hxy _ ih =>
    cases hyz with
    | cons hyz hrest =>
      refine .cons (hR _ List.mem_cons_self _ _ hxy hyz) (ih hrest fun x hx => ?_)
      exact hR x (List.mem_cons_of_mem _ hx)

/-! ## Sameness -/

theorem same_array_iff : (array xs).same w = true ↔
    ∃ ys, w = array ys ∧ List.Forall₂ (fun x y => x.same y = true) xs ys := by
  cases w
  case array ys => simp [same_array, sameItems_iff]
  all_goals exact iff_of_false (fun h => by cases h) (by rintro ⟨_, h, _⟩; cases h)

theorem same_document_iff {fs : Document} : (document fs).same w = true ↔
    ∃ gs : Document, w = document gs ∧ fs.length = gs.length ∧
      Entries.Covered (fun v w => v.same w = true) fs gs := by
  cases w
  case document gs => simp [same_document, sameFields_iff, Entries.Covered]
  all_goals exact iff_of_false (fun h => by cases h) (by rintro ⟨_, h, _⟩; cases h)

theorem same_codeWithScope_iff {source : String} {fs : Document} :
    (codeWithScope source fs).same w = true ↔
      ∃ gs : Document, w = codeWithScope source gs ∧ fs.length = gs.length ∧
        Entries.Covered (fun v w => v.same w = true) fs gs := by
  cases w
  case codeWithScope other gs =>
    simp only [same_codeWithScope, Bool.and_eq_true, beq_iff_eq, sameFields_iff, Entries.Covered,
      codeWithScope.injEq]
    constructor
    · rintro ⟨⟨rfl, hlength⟩, h⟩
      exact ⟨gs, ⟨rfl, rfl⟩, hlength, h⟩
    · rintro ⟨_, ⟨rfl, rfl⟩, hlength, h⟩
      exact ⟨⟨rfl, hlength⟩, h⟩
  all_goals exact iff_of_false (fun h => by cases h) (by rintro ⟨_, h, _⟩; cases h)

theorem same_symm (hv : v.WellFormed) (hw : w.WellFormed) (h : v.same w = true) :
    w.same v = true := by
  induction v using induct generalizing w with
  | atom v hatom =>
    by_cases hkind : v.kind = .double
    · cases v <;> cases hkind
      cases w <;> try cases h
      obtain ⟨r, hx, hy⟩ := Double.equal_iff.mp h
      exact Double.equal_iff.mpr ⟨r, hy, hx⟩
    · obtain rfl := (same_iff_of_isAtom hatom hkind).mp h
      exact h
  | array xs ih =>
    obtain ⟨ys, rfl, hitems⟩ := same_array_iff.mp h
    rw [wellFormed_array] at hv hw
    exact same_array_iff.mpr ⟨xs, rfl,
      forall₂_symm hitems fun x hx y hy => ih x hx (hv x hx) (hw y hy)⟩
  | document fs ih =>
    obtain ⟨gs, rfl, hlength, hfields⟩ := same_document_iff.mp h
    obtain ⟨hfs, hv⟩ := wellFormed_document.mp hv
    obtain ⟨hgs, hw⟩ := wellFormed_document.mp hw
    exact same_document_iff.mpr ⟨fs, rfl, hlength.symm, hfields.symm hfs hgs hlength
      fun f hf g hg => ih f hf (hv f hf) (hw g hg)⟩
  | codeWithScope source fs ih =>
    obtain ⟨gs, rfl, hlength, hfields⟩ := same_codeWithScope_iff.mp h
    obtain ⟨hfs, hv⟩ := wellFormed_codeWithScope.mp hv
    obtain ⟨hgs, hw⟩ := wellFormed_codeWithScope.mp hw
    exact same_codeWithScope_iff.mpr ⟨fs, rfl, hlength.symm, hfields.symm hfs hgs hlength
      fun f hf g hg => ih f hf (hv f hf) (hw g hg)⟩

theorem same_trans (hvw : v.same w = true) (hwx : w.same x = true) : v.same x = true := by
  induction v using induct generalizing w x with
  | atom v hatom =>
    by_cases hkind : v.kind = .double
    · cases v <;> cases hkind
      cases w <;> try cases hvw
      cases x <;> try cases hwx
      obtain ⟨r, ha, hb⟩ := Double.equal_iff.mp hvw
      obtain ⟨s, hb', hc⟩ := Double.equal_iff.mp hwx
      obtain rfl : r = s := Option.some.inj (hb.symm.trans hb')
      exact Double.equal_iff.mpr ⟨r, ha, hc⟩
    · obtain rfl := (same_iff_of_isAtom hatom hkind).mp hvw
      exact hwx
  | array xs ih =>
    obtain ⟨ys, rfl, hxy⟩ := same_array_iff.mp hvw
    obtain ⟨zs, rfl, hyz⟩ := same_array_iff.mp hwx
    exact same_array_iff.mpr ⟨zs, rfl, forall₂_trans hxy hyz fun x hx y z => ih x hx⟩
  | document fs ih =>
    obtain ⟨gs, rfl, hlength, hfg⟩ := same_document_iff.mp hvw
    obtain ⟨hs, rfl, hlength', hgh⟩ := same_document_iff.mp hwx
    exact same_document_iff.mpr ⟨hs, rfl, hlength.trans hlength',
      hfg.trans hgh fun f hf w x => ih f hf⟩
  | codeWithScope source fs ih =>
    obtain ⟨gs, rfl, hlength, hfg⟩ := same_codeWithScope_iff.mp hvw
    obtain ⟨hs, rfl, hlength', hgh⟩ := same_codeWithScope_iff.mp hwx
    exact same_codeWithScope_iff.mpr ⟨hs, rfl, hlength.trans hlength',
      hfg.trans hgh fun f hf w x => ih f hf⟩

/-! ## Equality in filters -/

theorem alikeItems_iff :
    alikeItems xs ys = true ↔ List.Forall₂ (fun x y => x.alike y = true) xs ys := by
  induction xs generalizing ys with
  | nil =>
    cases ys with
    | nil => exact iff_of_true rfl .nil
    | cons y ys => exact iff_of_false (fun h => by cases h) (fun h => by cases h)
  | cons x xs ih =>
    cases ys with
    | nil => exact iff_of_false (fun h => by cases h) (fun h => by cases h)
    | cons y ys => rw [alikeItems_cons, Bool.and_eq_true, ih, List.forall₂_cons]

theorem alike_array_iff : (array xs).alike w = true ↔
    ∃ ys, w = array ys ∧ List.Forall₂ (fun x y => x.alike y = true) xs ys := by
  cases w
  case array ys => simp [alike_array, alikeItems_iff]
  all_goals exact iff_of_false (fun h => by cases h) (by rintro ⟨_, h, _⟩; cases h)

theorem alike_document_iff {fs : Document} : (document fs).alike w = true ↔
    ∃ gs : Document, w = document gs ∧ fs.length = gs.length ∧
      Entries.Covered (fun v w => v.alike w = true) fs gs := by
  cases w
  case document gs => simp [alike_document, alikeFields_iff, Entries.Covered]
  all_goals exact iff_of_false (fun h => by cases h) (by rintro ⟨_, h, _⟩; cases h)

/-- **Equality in filters is symmetric** on well-formed values. -/
theorem alike_symm (hv : v.WellFormed) (hw : w.WellFormed) (h : v.alike w = true) :
    w.alike v = true := by
  induction v using induct generalizing w with
  | atom v hatom =>
    obtain ⟨a, ha, hb, hnan⟩ | ⟨-, rfl⟩ := (alike_iff_of_isAtom hatom).mp h
    · exact (alike_iff_of_isAtom (isAtom_of_scalar? hb)).mpr (.inl ⟨a, hb, ha, hnan⟩)
    · exact h
  | array xs ih =>
    obtain ⟨ys, rfl, hitems⟩ := alike_array_iff.mp h
    rw [wellFormed_array] at hv hw
    exact alike_array_iff.mpr ⟨xs, rfl,
      forall₂_symm hitems fun x hx y hy => ih x hx (hv x hx) (hw y hy)⟩
  | document fs ih =>
    obtain ⟨gs, rfl, hlength, hfields⟩ := alike_document_iff.mp h
    obtain ⟨hfs, hv⟩ := wellFormed_document.mp hv
    obtain ⟨hgs, hw⟩ := wellFormed_document.mp hw
    exact alike_document_iff.mpr ⟨fs, rfl, hlength.symm, hfields.symm hfs hgs hlength
      fun f hf g hg => ih f hf (hv f hf) (hw g hg)⟩
  | codeWithScope source fs =>
    rw [alike_codeWithScope] at h
    obtain ⟨gs, rfl, -⟩ := same_codeWithScope_iff.mp h
    rw [alike_codeWithScope]
    exact same_symm hv hw h

/-- **Equality in filters is transitive.** -/
theorem alike_trans (hvw : v.alike w = true) (hwx : w.alike x = true) : v.alike x = true := by
  induction v using induct generalizing w x with
  | atom v hatom =>
    obtain ⟨a, hv, hw, hnan⟩ | ⟨-, rfl⟩ := (alike_iff_of_isAtom hatom).mp hvw
    · obtain ⟨b, hw', hx, -⟩ | ⟨hw', -⟩ := (alike_iff_of_isAtom (isAtom_of_scalar? hw)).mp hwx
      · obtain rfl : a = b := Option.some.inj (hw.symm.trans hw')
        exact (alike_iff_of_isAtom hatom).mpr (.inl ⟨a, hv, hx, hnan⟩)
      · rw [hw] at hw'
        cases hw'
    · exact hwx
  | array xs ih =>
    obtain ⟨ys, rfl, hxy⟩ := alike_array_iff.mp hvw
    obtain ⟨zs, rfl, hyz⟩ := alike_array_iff.mp hwx
    exact alike_array_iff.mpr ⟨zs, rfl, forall₂_trans hxy hyz fun x hx y z => ih x hx⟩
  | document fs ih =>
    obtain ⟨gs, rfl, hlength, hfg⟩ := alike_document_iff.mp hvw
    obtain ⟨hs, rfl, hlength', hgh⟩ := alike_document_iff.mp hwx
    exact alike_document_iff.mpr ⟨hs, rfl, hlength.trans hlength',
      hfg.trans hgh fun f hf w x => ih f hf⟩
  | codeWithScope source fs =>
    rw [alike_codeWithScope] at hvw ⊢
    obtain ⟨gs, rfl, -⟩ := same_codeWithScope_iff.mp hvw
    rw [alike_codeWithScope] at hwx
    exact same_trans hvw hwx

end Value

end Dossier
