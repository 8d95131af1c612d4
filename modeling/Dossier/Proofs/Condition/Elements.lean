import Mathlib
import Dossier.Proofs.Value.Reached
import Dossier.Query.Condition

/-!
# Conditions on the elements of arrays

A path that goes on behind an array with a key fans out over the documents in it, and an element
condition looks at these documents one by one. Conditions that ask for something in a document are
met on both ways alike.

* **`Document.Spreads`**: a path reaches what another one reaches in some documents; what conditions
  look at there (`Spreads.equalsAt_iff`, `Spreads.orderedAt_iff`, `Spreads.elementsAt`);
* `Document.ReachesArrays.spreads`: a path behind arrays spreads over the documents in them;
* `Condition.on`: a condition placed on another path;
* `Condition.Demanding`: conditions that ask for something, and **`Condition.holds_on_iff`**: where a
  path spreads over documents, such a condition holds iff it does in one of them;
* **`Condition.holds_element_iff`**: so it holds of an element iff it holds behind the array.
-/

namespace Dossier

/-! ## Paths behind arrays -/

/-- Whether the first segment of a path is no position. -/
def Path.BeginsWithKey (p : Path) : Prop := ∃ k rest, p = k :: rest ∧ Numeral.index? k = none

namespace Value

variable {k : String}

theorem children_array (hk : Numeral.index? k = none) (items : List Value) :
    (array items).children k =
      (items.filterMap fields?).flatMap fun d => (Entries.find? d k).toList := by
  rw [children, hk]
  induction items with
  | nil => rfl
  | cons v rest ih =>
    cases v
    case document fields =>
      have hfields : (document fields).fields? = some fields := rfl
      rw [List.filterMap_cons_some hfields, List.flatMap_cons, ← ih]
      cases hfind : Entries.find? fields k <;> simp [hfind]
    all_goals exact ih

theorem foldl_children_flatMap {α : Type} (f : α → List Value) (xs : List α) (q : Path) :
    q.foldl (fun reached segment => reached.flatMap (children segment)) (xs.flatMap f) =
      xs.flatMap fun x =>
        q.foldl (fun reached segment => reached.flatMap (children segment)) (f x) := by
  induction q generalizing f with
  | nil => rfl
  | cons k q ih =>
    rw [List.foldl_cons, List.flatMap_assoc, ih]
    rfl

end Value

namespace Document

variable {d : Document} {ds : List Document} {p q : Path} {k : String} {v : Value}

theorem reach_append (d : Document) (hp : p ≠ []) (q : Path) : d.reach (p ++ q) =
    q.foldl (fun reached segment => reached.flatMap (Value.children segment)) (d.reach p) := by
  rw [reach_eq_foldl d hp, reach_eq_foldl d (by simp [hp]), List.foldl_append]

/-- Whether a path reaches nothing but arrays. -/
def ReachesArrays (d : Document) (p : Path) : Prop :=
  ∀ v ∈ d.reach p, ∃ items, v = .array items

theorem flatMap_children_of_arrays {vs : List Value} (h : ∀ v ∈ vs, ∃ items, v = .array items)
    (hk : Numeral.index? k = none) : vs.flatMap (Value.children k) =
      ((vs.flatMap Value.items).filterMap Value.fields?).flatMap fun e =>
        (Entries.find? e k).toList := by
  induction vs with
  | nil => rfl
  | cons v vs ih =>
    rw [List.forall_mem_cons] at h
    obtain ⟨items, rfl⟩ := h.1
    rw [List.flatMap_cons, List.flatMap_cons, List.filterMap_append, List.flatMap_append, ih h.2,
      Value.children_array hk]
    rfl

/-! ## Paths that spread over documents -/

/-- Whether a path reaches in a document what another path reaches in some documents. -/
def Spreads (d : Document) (p : Path) (ds : List Document) (q : Path) : Prop :=
  d.reach p = ds.flatMap (·.reach q)

/-- **Behind arrays** a path that goes on with a key reaches what the documents in them reach. -/
theorem ReachesArrays.spreads (h : d.ReachesArrays p) (hp : p ≠ []) (hq : q.BeginsWithKey) :
    d.Spreads (p ++ q) (d.elementsAt p) q := by
  obtain ⟨k, rest, rfl, hk⟩ := hq
  rw [Spreads, reach_append d hp, List.foldl_cons, flatMap_children_of_arrays h hk,
    Value.foldl_children_flatMap]
  rfl

theorem Spreads.mem_candidates (h : d.Spreads p ds q) :
    v ∈ d.candidates p ↔ ∃ e ∈ ds, v ∈ e.candidates q := by
  rw [candidates, h, List.flatMap_assoc, List.mem_flatMap]
  rfl

theorem Spreads.reach_eq_nil_iff (h : d.Spreads p ds q) :
    d.reach p = [] ↔ ∀ e ∈ ds, e.reach q = [] := by
  rw [h, List.flatMap_eq_nil_iff]

theorem Spreads.elementsAt (h : d.Spreads p ds q) :
    d.elementsAt p = ds.flatMap (·.elementsAt q) := by
  rw [Document.elementsAt, h, List.flatMap_assoc, List.filterMap_flatMap]
  rfl

theorem equalsAt_iff : d.equalsAt p v = true ↔
    (v = .null ∧ d.reach p = []) ∨ ∃ w ∈ d.candidates p, w.alike v = true := by
  unfold equalsAt
  cases v <;> simp

theorem orderedAt_iff {wanted : Ordering → Bool} : d.orderedAt p v wanted = true ↔
    ∃ w ∈ d.candidates p, (w.compare? v).any wanted = true := by
  rw [orderedAt, List.any_eq_true]

theorem Spreads.exists_candidate_iff {P : Value → Prop} (h : d.Spreads p ds q) :
    (∃ w ∈ d.candidates p, P w) ↔ ∃ e ∈ ds, ∃ w ∈ e.candidates q, P w := by
  simp only [h.mem_candidates]
  constructor
  · rintro ⟨w, ⟨e, he, hw⟩, hP⟩
    exact ⟨e, he, w, hw, hP⟩
  · rintro ⟨e, he, w, hw, hP⟩
    exact ⟨w, ⟨e, he, hw⟩, hP⟩

theorem Spreads.equalsAt_iff (h : d.Spreads p ds q) (hv : v ≠ .null) :
    d.equalsAt p v = true ↔ ∃ e ∈ ds, e.equalsAt q v = true := by
  simp only [Document.equalsAt_iff, hv, false_and, false_or, h.exists_candidate_iff]

theorem Spreads.orderedAt_iff {wanted : Ordering → Bool} (h : d.Spreads p ds q) :
    d.orderedAt p v wanted = true ↔ ∃ e ∈ ds, e.orderedAt q v wanted = true := by
  simp only [Document.orderedAt_iff, h.exists_candidate_iff]

end Document

/-! ## Conditions on other paths -/

namespace Condition

variable {d : Document} {ds : List Document} {c : Condition} {cs : List Condition}
  {field array : String}

/-- The condition placed on another path. -/
def on (field : String) : Condition → Condition
  | compare _ relation operand => compare field relation operand
  | present _ expected => present field expected
  | member _ operands expected => member field operands expected
  | element _ conditions => element field conditions

@[simp] theorem on_field (c : Condition) : c.on c.field = c := by
  cases c <;> rfl

/-- Whether a condition asks for something that has to be there: it does not negate, and null, which a
missing field equals, is none of its operands. -/
def Demanding : Condition → Prop
  | compare _ relation operand => relation ≠ .differs ∧ operand ≠ .null
  | present _ expected => expected = true
  | member _ operands expected => expected = true ∧ Value.null ∉ operands
  | element _ _ => True

/-- **Where a path spreads over documents**, a demanding condition holds iff it does in one of them. -/
theorem holds_on_iff (hc : c.Demanding)
    (h : d.Spreads (Dotted.segments field) ds (Dotted.segments c.field)) :
    (c.on field).holds d = true ↔ ∃ e ∈ ds, c.holds e = true := by
  cases c with
  | compare _ relation operand =>
    cases relation with
    | equals => exact h.equalsAt_iff hc.2
    | differs => exact absurd rfl hc.1
    | greater | greaterOrEquals | less | lessOrEquals => exact h.orderedAt_iff
  | present _ expected =>
    obtain rfl : expected = true := hc
    have hsome (e : Document) (p : Path) : (!(e.reach p).isEmpty == true) = true ↔ ¬ e.reach p = [] := by
      simp
    simp only [on, holds, hsome, h.reach_eq_nil_iff, not_forall, exists_prop]
    rfl
  | member _ operands expected =>
    obtain ⟨rfl, hnull⟩ := hc
    have hoperand : ∀ v ∈ operands, d.equalsAt (Dotted.segments field) v = true ↔
        ∃ e ∈ ds, e.equalsAt (Dotted.segments _) v = true := fun v hv =>
      h.equalsAt_iff fun hnil => hnull (hnil ▸ hv)
    simp only [on, holds, beq_true, List.any_eq_true]
    constructor
    · rintro ⟨v, hv, hequals⟩
      obtain ⟨e, he, hequals⟩ := (hoperand v hv).mp hequals
      exact ⟨e, he, v, hv, hequals⟩
    · rintro ⟨e, he, v, hv, hequals⟩
      exact ⟨v, hv, (hoperand v hv).mpr ⟨e, he, hequals⟩⟩
  | element _ conditions =>
    simp only [on, holds, List.any_eq_true, h.elementsAt, List.mem_flatMap]
    constructor
    · rintro ⟨x, ⟨e, he, hx⟩, hhold⟩
      exact ⟨e, he, x, hx, hhold⟩
    · rintro ⟨e, he, x, hx, hhold⟩
      exact ⟨x, ⟨e, he, hx⟩, hhold⟩

theorem holds_element : (element array cs).holds d = true ↔
    ∃ e ∈ d.elementsAt (Dotted.segments array), ∀ c ∈ cs, c.holds e = true := by
  simp only [holds, List.any_eq_true, allHold_iff]

theorem holds_behind_iff (harrays : d.ReachesArrays (Dotted.segments array)) (hc : c.Demanding)
    (hkey : Path.BeginsWithKey (Dotted.segments c.field)) :
    (c.on (array ++ "." ++ c.field)).holds d = true ↔
      ∃ e ∈ d.elementsAt (Dotted.segments array), c.holds e = true := by
  refine holds_on_iff hc ?_
  rw [Dotted.segments_append_dot]
  exact harrays.spreads (Dotted.segments_ne_nil array) hkey

/-- **Element conditions and dotted ones.** Where a path reaches nothing but arrays, a demanding
condition on a path that begins with a key holds of some element iff it holds behind the arrays.
Several such conditions that hold of one element hold each behind the arrays. -/
theorem holds_element_iff (harrays : d.ReachesArrays (Dotted.segments array)) :
    (∀ c : Condition, c.Demanding → Path.BeginsWithKey (Dotted.segments c.field) →
      ((element array [c]).holds d = true ↔ (c.on (array ++ "." ++ c.field)).holds d = true)) ∧
    ∀ cs : List Condition,
      (∀ c ∈ cs, c.Demanding ∧ Path.BeginsWithKey (Dotted.segments c.field)) →
      (element array cs).holds d = true →
      ∀ c ∈ cs, (c.on (array ++ "." ++ c.field)).holds d = true := by
  constructor
  · intro c hc hkey
    simp only [holds_behind_iff harrays hc hkey, holds_element, List.forall_mem_singleton]
  · intro cs hcs h c hc
    obtain ⟨e, he, hall⟩ := holds_element.mp h
    exact (holds_behind_iff harrays (hcs c hc).1 (hcs c hc).2).mpr ⟨e, he, hall c hc⟩

/-- Two orders; the second one has two lines, a number and a list of a line among its lines. -/
def twoOrders : Document :=
  [("orders", .array [.document [("lines", .array [])],
    .document [("lines", .array [.document [("sku", .string "a"), ("qty", .int32 1)], .int32 7,
      .array [.document [("qty", .int32 9)]], .document [("sku", .string "b"), ("qty", .int32 9)]])]])]

/-- Asks for a quantity of nine. -/
def nine : Condition := .compare "qty" .equals (.int32 9)

/-- Asks for an article. -/
def article (sku : String) : Condition := .compare "sku" .equals (.string sku)

/-- One line meets two conditions, and so each of them holds behind the lists of lines. A third one
holds there as well, of another line. -/
theorem holds_element_lines :
    twoOrders.ReachesArrays (Dotted.segments "orders.lines") ∧
      nine.Demanding ∧ (article "a").Demanding ∧ (article "b").Demanding ∧
      (element "orders.lines" [nine, article "b"]).holds twoOrders = true ∧
      (nine.on "orders.lines.qty").holds twoOrders = true ∧
      ((article "a").on "orders.lines.sku").holds twoOrders = true ∧
      (element "orders.lines" [nine, article "a"]).holds twoOrders = false := by
  have harrays : twoOrders.ReachesArrays (Dotted.segments "orders.lines") := by
    intro v hv
    have hreach : twoOrders.reach (Dotted.segments "orders.lines") =
        [.array [], .array [.document [("sku", .string "a"), ("qty", .int32 1)], .int32 7,
          .array [.document [("qty", .int32 9)]],
          .document [("sku", .string "b"), ("qty", .int32 9)]]] := rfl
    rw [hreach] at hv
    simp only [List.mem_cons, List.not_mem_nil, or_false] at hv
    obtain rfl | rfl := hv <;> exact ⟨_, rfl⟩
  have hnine : nine.Demanding := ⟨by decide, fun h => by cases h⟩
  have harticle (sku : String) : (article sku).Demanding := ⟨by decide, fun h => by cases h⟩
  have hqty : Path.BeginsWithKey (Dotted.segments "qty") := ⟨"qty", [], rfl, rfl⟩
  have hsku : Path.BeginsWithKey (Dotted.segments "sku") := ⟨"sku", [], rfl, rfl⟩
  obtain ⟨hsingle, hseveral⟩ := holds_element_iff harrays
  have hboth : ∀ c ∈ [nine, article "b"],
      c.Demanding ∧ Path.BeginsWithKey (Dotted.segments c.field) := by
    rw [List.forall_mem_cons, List.forall_mem_singleton]
    exact ⟨⟨hnine, hqty⟩, harticle "b", hsku⟩
  exact ⟨harrays, hnine, harticle "a", harticle "b", rfl,
    hseveral [nine, article "b"] hboth rfl nine List.mem_cons_self,
    (hsingle (article "a") (harticle "a") hsku).mp rfl, rfl⟩

end Condition

end Dossier
