import Mathlib
import Dossier.Proofs.Value.Shape
import Dossier.Value.Order

/-!
# Values equal to themselves

* **`Value.same_self`**, **`Value.alike_self`**: a well-formed value without NaN is the same as
  itself, and equal to itself in filters;
* `Value.same_array`, `Value.alike_array` and the like: one step of a comparison;
* `Value.sameFields_iff`, `Value.alikeFields_iff`: the comparisons of fields, by keys;
* **`Value.alike_of_same`**: filters do not tell apart what is the same.
-/

namespace Dossier.Value

variable {xs ys items : List Value} {fs gs : Document} {x y v w : Value} {key : String}

/-! ## One step of a comparison -/

theorem same_array : (array xs).same (array ys) = sameItems xs ys := rfl

theorem same_document :
    (document fs).same (document gs) = (fs.length == gs.length && sameFields fs gs) := rfl

theorem same_codeWithScope {source other : String} :
    (codeWithScope source fs).same (codeWithScope other gs) =
      (source == other && fs.length == gs.length && sameFields fs gs) := rfl

theorem sameItems_cons : sameItems (x :: xs) (y :: ys) = (x.same y && sameItems xs ys) := rfl

theorem sameFields_cons : sameFields ((key, v) :: fs) gs =
    ((match Entries.find? gs key with
      | some w => v.same w
      | none => false) && sameFields fs gs) := rfl

theorem alike_array : (array xs).alike (array ys) = alikeItems xs ys := rfl

theorem alike_document :
    (document fs).alike (document gs) = (fs.length == gs.length && alikeFields fs gs) := rfl

/-- Code is no ordered kind, so filters ask whether it is the same. -/
theorem alike_codeWithScope {source : String} :
    (codeWithScope source fs).alike w = (codeWithScope source fs).same w := by
  cases w <;> rfl

theorem alikeItems_cons : alikeItems (x :: xs) (y :: ys) = (x.alike y && alikeItems xs ys) := rfl

theorem alikeFields_cons : alikeFields ((key, v) :: fs) gs =
    ((match Entries.find? gs key with
      | some w => v.alike w
      | none => false) && alikeFields fs gs) := rfl

/-! ## Items and fields -/

theorem sameItems_self (h : ∀ v ∈ items, v.same v = true) : sameItems items items = true := by
  induction items with
  | nil => rfl
  | cons v rest ih =>
    rw [sameItems_cons, h v List.mem_cons_self, ih fun w hw => h w (List.mem_cons_of_mem _ hw)]
    rfl

theorem sameFields_iff :
    sameFields fs gs = true ↔ ∀ f ∈ fs, ∃ w, Entries.find? gs f.1 = some w ∧ f.2.same w = true := by
  induction fs with
  | nil => exact iff_of_true rfl fun f hf => absurd hf List.not_mem_nil
  | cons f rest ih =>
    obtain ⟨key, v⟩ := f
    rw [sameFields_cons, Bool.and_eq_true, ih, List.forall_mem_cons]
    refine and_congr_left fun _ => ?_
    cases Entries.find? gs key <;> simp

theorem sameFields_self (hd : Entries.Distinct fs) (h : ∀ f ∈ fs, f.2.same f.2 = true) :
    sameFields fs fs = true :=
  sameFields_iff.mpr fun f hf => ⟨f.2, Entries.find?_of_mem hd hf, h f hf⟩

theorem alikeItems_self (h : ∀ v ∈ items, v.alike v = true) : alikeItems items items = true := by
  induction items with
  | nil => rfl
  | cons v rest ih =>
    rw [alikeItems_cons, h v List.mem_cons_self, ih fun w hw => h w (List.mem_cons_of_mem _ hw)]
    rfl

theorem alikeFields_iff :
    alikeFields fs gs = true ↔
      ∀ f ∈ fs, ∃ w, Entries.find? gs f.1 = some w ∧ f.2.alike w = true := by
  induction fs with
  | nil => exact iff_of_true rfl fun f hf => absurd hf List.not_mem_nil
  | cons f rest ih =>
    obtain ⟨key, v⟩ := f
    rw [alikeFields_cons, Bool.and_eq_true, ih, List.forall_mem_cons]
    refine and_congr_left fun _ => ?_
    cases Entries.find? gs key <;> simp

theorem alikeFields_self (hd : Entries.Distinct fs) (h : ∀ f ∈ fs, f.2.alike f.2 = true) :
    alikeFields fs fs = true :=
  alikeFields_iff.mpr fun f hf => ⟨f.2, Entries.find?_of_mem hd hf, h f hf⟩

/-! ## Values -/

theorem exists_rank {x : Float} (h : NotNaN (double x)) : ∃ r, Double.rank? x = some r := by
  have hx : (Double.rank? x).isNone = false := h
  exact Option.isSome_iff_exists.mp (by simpa using hx)

/-- **A well-formed value without NaN is the same as itself.** -/
theorem same_self (hw : v.WellFormed) (hn : v.NaNFree) : v.same v = true := by
  induction v using induct with
  | atom v hatom =>
    cases v
    case double x =>
      obtain ⟨r, hr⟩ := exists_rank hn.self
      have hequal : Double.equal x x = true := by simp [Double.equal, hr]
      exact hequal
    case array => cases hatom
    case document => cases hatom
    case codeWithScope => cases hatom
    -- one part or two parts of an atom are compared with themselves
    all_goals
      first
        | rfl
        | exact beq_self_eq_true _
        | exact Bool.and_eq_true_iff.mpr ⟨beq_self_eq_true _, beq_self_eq_true _⟩
  | array items ih =>
    rw [wellFormed_array] at hw
    obtain ⟨-, hn⟩ := everywhere_array.mp hn
    rw [same_array]
    exact sameItems_self fun v hv => ih v hv (hw v hv) (hn v hv)
  | document fields ih =>
    obtain ⟨hd, hw⟩ := wellFormed_document.mp hw
    obtain ⟨-, hn⟩ := everywhere_document.mp hn
    rw [same_document, sameFields_self hd fun f hf => ih f hf (hw f hf) (hn f hf)]
    simp
  | codeWithScope source scope ih =>
    obtain ⟨hd, hw⟩ := wellFormed_codeWithScope.mp hw
    obtain ⟨-, hn⟩ := everywhere_codeWithScope.mp hn
    rw [same_codeWithScope, sameFields_self hd fun f hf => ih f hf (hw f hf) (hn f hf)]
    simp

/-- **A well-formed value without NaN equals itself in filters.** -/
theorem alike_self (hw : v.WellFormed) (hn : v.NaNFree) : v.alike v = true := by
  induction v using induct with
  | atom v hatom =>
    cases v
    case double x =>
      obtain ⟨r, hr⟩ := exists_rank hn.self
      have hequal : (Scalar.number (Double.rank? x)).equal (.number (Double.rank? x)) = true := by
        simp [Scalar.equal, hr]
      exact hequal
    case array => cases hatom
    case document => cases hatom
    case codeWithScope => cases hatom
    all_goals
      first
        | rfl
        | exact beq_self_eq_true _
        | exact Bool.and_eq_true_iff.mpr ⟨beq_self_eq_true _, beq_self_eq_true _⟩
  | array items ih =>
    rw [wellFormed_array] at hw
    obtain ⟨-, hn⟩ := everywhere_array.mp hn
    rw [alike_array]
    exact alikeItems_self fun v hv => ih v hv (hw v hv) (hn v hv)
  | document fields ih =>
    obtain ⟨hd, hw⟩ := wellFormed_document.mp hw
    obtain ⟨-, hn⟩ := everywhere_document.mp hn
    rw [alike_document, alikeFields_self hd fun f hf => ih f hf (hw f hf) (hn f hf)]
    simp
  | codeWithScope source scope ih =>
    rw [alike_codeWithScope]
    exact same_self hw hn

theorem alikeItems_of_sameItems
    (h : ∀ x ∈ xs, ∀ y, x.same y = true → x.alike y = true) (hsame : sameItems xs ys = true) :
    alikeItems xs ys = true := by
  induction xs generalizing ys with
  | nil =>
    cases ys with
    | nil => rfl
    | cons y ys => cases hsame
  | cons x xs ih =>
    cases ys with
    | nil => cases hsame
    | cons y ys =>
      rw [List.forall_mem_cons] at h
      rw [sameItems_cons, Bool.and_eq_true] at hsame
      rw [alikeItems_cons, h.1 y hsame.1, ih h.2 hsame.2]
      rfl

/-- **What is the same is equal in filters.** -/
theorem alike_of_same (h : v.same w = true) : v.alike w = true := by
  induction v using induct generalizing w with
  | atom v hatom =>
    cases v
    case array => cases hatom
    case document => cases hatom
    case codeWithScope => cases hatom
    case double x =>
      cases w <;> try cases h
      case double y =>
        have hequal : (Scalar.number (Double.rank? x)).equal (.number (Double.rank? y)) = true := by
          have hsame : Double.equal x y = true := h
          rw [Double.equal] at hsame
          cases hx : Double.rank? x <;> cases hy : Double.rank? y <;> simp_all [Scalar.equal]
        exact hequal
    -- integers of one kind are the same only if they are equal; other atoms are compared alike
    all_goals
      cases w <;>
        first
          | exact absurd h Bool.false_ne_true
          | exact h
          | (obtain rfl := eq_of_beq h; exact beq_self_eq_true _)
  | array items ih =>
    cases w <;> try cases h
    case array others => exact alikeItems_of_sameItems (fun x hx y => ih x hx) h
  | document fields ih =>
    cases w <;> try cases h
    case document others =>
      rw [same_document, Bool.and_eq_true, sameFields_iff] at h
      rw [alike_document, Bool.and_eq_true, alikeFields_iff]
      refine ⟨h.1, fun f hf => ?_⟩
      obtain ⟨y, hy, hsame⟩ := h.2 f hf
      exact ⟨y, hy, ih f hf hsame⟩
  | codeWithScope source scope ih =>
    rw [alike_codeWithScope]
    exact h

end Dossier.Value
