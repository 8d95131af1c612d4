import Mathlib
import Dossier.Edit
import Dossier.Proofs.Condition.Elements
import Dossier.Proofs.Value.Replaced

/-!
# The element that a query matched

A `$` behind an array stands for the first element that, alone in the array, still lets the document
pass the query's condition. A condition on the array or behind it that the document passes is passed
with some element alone, also when it negates or asks for null.

* **`Document.Splits`**: what conditions find at a path is found in one of several documents. So for a
  path that spreads over them (`Spreads.splits`), and for an array and its elements
  (`splits_of_array`);
* **`Condition.exists_holds`**: a condition that holds does so in one of these documents;
* `Condition.Concerns`, **`Condition.Matches`**: conditions on an array, and those that look at its
  elements;
* **`Query.position_matched`**: the position of the matched element.
-/

namespace Dossier

/-- The segments of a text begin with those of another one where the text goes on at a dot. -/
theorem Dotted.segments_prefix_iff {front text : String} :
    segments front <+: segments text ↔ text = front ∨ ∃ rest, text = front ++ "." ++ rest := by
  constructor
  · rintro ⟨rest, hrest⟩
    rw [← join_segments text, ← hrest]
    by_cases hnil : rest = []
    · exact .inl (by rw [hnil, List.append_nil, join_segments])
    · refine .inr ⟨join rest, ?_⟩
      rw [join, String.intercalate_append_of_ne_nil (segments_ne_nil front) hnil, ← join,
        join_segments, ← join]
  · rintro (rfl | ⟨rest, rfl⟩)
    · exact List.prefix_rfl
    · rw [segments_append_dot]
      exact List.prefix_append _ _

/-! ## Arrays that a path leads to -/

namespace Value

variable {v : Value}

theorem alike_array_eq_false {items : List Value} (h : ∀ others, v ≠ array others) :
    (array items).alike v = false := by
  cases v
  case array others => exact absurd rfl (h others)
  all_goals rfl

end Value

namespace Document

variable {d : Document} {p : Path} {v : Value} {items : List Value} {wanted : Ordering → Bool}

theorem reachesArrays_of_at? (h : d.at? p = some (.array items)) : d.ReachesArrays p := by
  intro v hv
  rw [reach_of_at? h, List.mem_singleton] at hv
  exact ⟨items, hv⟩

theorem elementsAt_of_at? (h : d.at? p = some (.array items)) :
    d.elementsAt p = items.filterMap Value.fields? := by
  rw [elementsAt, reach_of_at? h, List.flatMap_singleton]
  rfl

theorem candidates_of_at? (h : d.at? p = some (.array items)) :
    d.candidates p = .array items :: items := by
  rw [candidates, reach_of_at? h, List.flatMap_singleton]
  rfl

theorem equalsAt_of_array (h : d.at? p = some (.array items)) (hv : ∀ others, v ≠ .array others) :
    d.equalsAt p v = true ↔ ∃ item ∈ items, item.alike v = true := by
  simp [equalsAt_iff, reach_of_at? h, candidates_of_at? h, Value.alike_array_eq_false hv]

theorem orderedAt_of_array (h : d.at? p = some (.array items)) :
    d.orderedAt p v wanted = true ↔ ∃ item ∈ items, (item.compare? v).any wanted = true := by
  have harray : (Value.array items).compare? v = none := rfl
  simp [orderedAt_iff, candidates_of_at? h, harray]

end Document

/-! ## Conditions that hold of one of many -/

namespace Document

variable {d : Document} {ds : List Document} {p : Path} {v : Value} {items operands : List Value}

/-- Whether comparisons with some operands find in one of several documents what they find at a path of
a document, and one of the documents has nothing else for them. -/
structure Splits (d : Document) (ds : List Document) (p : Path) (operands : List Value) : Prop where
  equals : ∀ v ∈ operands, d.equalsAt p v = true → ∃ e ∈ ds, e.equalsAt p v = true
  ordered : ∀ v wanted, d.orderedAt p v wanted = true → ∃ e ∈ ds, e.orderedAt p v wanted = true
  element : ∀ x ∈ d.elementsAt p, ∃ e ∈ ds, x ∈ e.elementsAt p
  nothingElse : ∃ e ∈ ds, (e.reach p = [] ↔ d.reach p = []) ∧
    ∀ v ∈ operands, e.equalsAt p v = true → d.equalsAt p v = true

/-- **A path that spreads over documents**: the one with nothing else is one in which something is
reached, if there is any. -/
theorem Spreads.splits (h : d.Spreads p ds p) (hds : ds ≠ []) (operands : List Value) :
    d.Splits ds p operands where
  equals v _ hv := by
    simp only [Document.equalsAt_iff, h.mem_candidates, h.reach_eq_nil_iff] at hv ⊢
    rcases hv with ⟨hnull, hnil⟩ | ⟨w, ⟨e, he, hw⟩, halike⟩
    · obtain ⟨e, he⟩ := List.exists_mem_of_ne_nil ds hds
      exact ⟨e, he, .inl ⟨hnull, hnil e he⟩⟩
    · exact ⟨e, he, .inr ⟨w, hw, halike⟩⟩
  ordered v wanted := h.orderedAt_iff.mp
  element x hx := by rwa [h.elementsAt, List.mem_flatMap] at hx
  nothingElse := by
    obtain ⟨e, he, hreach⟩ : ∃ e ∈ ds, e.reach p = [] → d.reach p = [] := by
      by_cases hnil : d.reach p = []
      · obtain ⟨e, he⟩ := List.exists_mem_of_ne_nil ds hds
        exact ⟨e, he, fun _ => hnil⟩
      · simp only [h.reach_eq_nil_iff, not_forall, exists_prop] at hnil
        obtain ⟨e, he, hsome⟩ := hnil
        exact ⟨e, he, fun hnone => absurd hnone hsome⟩
    refine ⟨e, he, ⟨hreach, fun hnil => h.reach_eq_nil_iff.mp hnil e he⟩, fun v _ hv => ?_⟩
    rw [Document.equalsAt_iff] at hv ⊢
    rcases hv with ⟨hnull, hnone⟩ | ⟨w, hw, halike⟩
    · exact .inl ⟨hnull, hreach hnone⟩
    · exact .inr ⟨w, h.mem_candidates.mpr ⟨e, he, hw⟩, halike⟩

/-- **An array** splits into its elements, if no operand is an array. -/
theorem splits_of_array (hd : d.at? p = some (.array items)) (hitems : items ≠ [])
    (hoperands : ∀ v ∈ operands, ∀ others, v ≠ .array others) {alone : Value → Document}
    (halone : ∀ item, (alone item).at? p = some (.array [item])) :
    d.Splits (items.map alone) p operands := by
  have hequals : ∀ v ∈ operands, ∀ item, (alone item).equalsAt p v = true ↔ item.alike v = true := by
    intro v hv item
    rw [equalsAt_of_array (halone item) (hoperands v hv)]
    simp
  refine ⟨fun v hv h => ?_, fun v wanted h => ?_, fun x hx => ?_, ?_⟩
  · obtain ⟨item, hitem, halike⟩ := (equalsAt_of_array hd (hoperands v hv)).mp h
    exact ⟨alone item, List.mem_map_of_mem hitem, (hequals v hv item).mpr halike⟩
  · obtain ⟨item, hitem, hwanted⟩ := (orderedAt_of_array hd).mp h
    refine ⟨alone item, List.mem_map_of_mem hitem, (orderedAt_of_array (halone item)).mpr ?_⟩
    exact ⟨item, List.mem_singleton_self item, hwanted⟩
  · rw [elementsAt_of_at? hd] at hx
    obtain ⟨item, hitem, hfields⟩ := List.mem_filterMap.mp hx
    refine ⟨alone item, List.mem_map_of_mem hitem, ?_⟩
    rw [elementsAt_of_at? (halone item)]
    exact List.mem_filterMap.mpr ⟨item, List.mem_singleton_self item, hfields⟩
  · obtain ⟨item, hitem⟩ := List.exists_mem_of_ne_nil items hitems
    refine ⟨alone item, List.mem_map_of_mem hitem, ?_, fun v hv h => ?_⟩
    · simp [reach_of_at? hd, reach_of_at? (halone item)]
    · exact (equalsAt_of_array hd (hoperands v hv)).mpr ⟨item, hitem, (hequals v hv item).mp h⟩

end Document

namespace Condition

variable {c : Condition} {d : Document} {ds : List Document} {array : String}

/-- The values that a condition compares with. -/
def operands : Condition → List Value
  | compare _ _ operand => [operand]
  | member _ operands _ => operands
  | present _ _ => []
  | element _ _ => []

/-- **A condition that holds** does so in one of the documents that its field splits into. -/
theorem exists_holds (h : d.Splits ds (Dotted.segments c.field) c.operands)
    (hc : c.holds d = true) : ∃ e ∈ ds, c.holds e = true := by
  obtain ⟨e, he, hreach, hequals⟩ := h.nothingElse
  cases c with
  | compare field relation operand =>
    cases relation with
    | equals => exact h.equals operand (List.mem_singleton_self operand) hc
    | differs =>
      simp only [holds, Document.compareAt, Bool.not_eq_true', ← Bool.not_eq_true] at hc ⊢
      exact ⟨e, he, fun heq => hc (hequals operand (List.mem_singleton_self operand) heq)⟩
    | greater | greaterOrEquals | less | lessOrEquals => exact h.ordered operand _ hc
  | present field expected =>
    rw [Condition.field, ← List.isEmpty_iff, ← List.isEmpty_iff, ← Bool.eq_iff_iff] at hreach
    rw [holds, ← hreach] at hc
    exact ⟨e, he, hc⟩
  | member field operands expected =>
    cases expected with
    | true =>
      simp only [holds, beq_true, List.any_eq_true] at hc ⊢
      obtain ⟨v, hv, heq⟩ := hc
      obtain ⟨e, he, heq⟩ := h.equals v hv heq
      exact ⟨e, he, v, hv, heq⟩
    | false =>
      simp only [holds, beq_false, Bool.not_eq_true', List.any_eq_false] at hc ⊢
      exact ⟨e, he, fun v hv heq => hc v hv (hequals v hv heq)⟩
  | element field conditions =>
    simp only [holds_element] at hc ⊢
    obtain ⟨x, hx, hall⟩ := hc
    obtain ⟨e, he, hx⟩ := h.element x hx
    exact ⟨e, he, x, hx, hall⟩

/-- Whether the field of a condition is an array or is behind it. -/
def Concerns (c : Condition) (array : String) : Prop :=
  c.field = array ∨ ∃ rest, c.field = array ++ "." ++ rest

/-- Whether a condition looks at the elements of an array: it is on the array, with no array among its
operands, or behind the array, where it goes on with a key. -/
def Matches (c : Condition) (array : String) : Prop :=
  (c.field = array ∧ ∀ v ∈ c.operands, ∀ others, v ≠ .array others) ∨
    ∃ rest, c.field = array ++ "." ++ rest ∧ Path.BeginsWithKey (Dotted.segments rest)

theorem Matches.concerns (h : c.Matches array) : c.Concerns array :=
  h.imp And.left fun ⟨rest, hfield, _⟩ => ⟨rest, hfield⟩

end Condition

/-! ## The position of the matched element -/

namespace Scope

variable {scope : Scope} {path q : Path} {items : List Value} {c : Condition} {array : String}

theorem replaceAt?_narrowed (h : scope.before.at? path = some (.array items)) (item : Value) :
    scope.before.replaceAt? path (.array [item]) = some (scope.narrowed path item) := by
  obtain ⟨view, hview⟩ := Document.exists_replaceAt? h (.array [item])
  rw [narrowed, hview, Option.getD_some]

theorem at?_narrowed (h : scope.before.at? path = some (.array items)) (item : Value) :
    (scope.narrowed path item).at? path = some (.array [item]) :=
  Document.at?_replaceAt? (Document.ne_nil_of_at? h) (replaceAt?_narrowed h item)

theorem spreads_narrowed (h : scope.before.at? path = some (.array items)) (hq : q.BeginsWithKey) :
    scope.before.Spreads (path ++ q) (items.map (scope.narrowed path)) (path ++ q) := by
  have hpath := Document.ne_nil_of_at? h
  have halone (item : Value) : (scope.narrowed path item).reach (path ++ q) =
      ([item].filterMap Value.fields?).flatMap (·.reach q) := by
    rw [(Document.reachesArrays_of_at? (at?_narrowed h item)).spreads hpath hq,
      Document.elementsAt_of_at? (at?_narrowed h item)]
  rw [Document.Spreads, (Document.reachesArrays_of_at? h).spreads hpath hq,
    Document.elementsAt_of_at? h, List.flatMap_map, List.filterMap_eq_flatMap_toList,
    List.flatMap_assoc]
  refine List.flatMap_congr fun item _ => ?_
  rw [halone]
  cases hfields : item.fields? <;> simp [hfields]

/-- A condition that a `$` refers to and that holds does so with one element alone. -/
theorem exists_holds_narrowed (h : scope.before.at? (Dotted.segments array) = some (.array items))
    (hitems : items ≠ []) (hmatches : c.Matches array) (hc : c.holds scope.before = true) :
    ∃ item ∈ items, c.holds (scope.narrowed (Dotted.segments array) item) = true := by
  have hsplits : scope.before.Splits (items.map (scope.narrowed (Dotted.segments array)))
      (Dotted.segments c.field) c.operands := by
    obtain ⟨hfield, hoperands⟩ | ⟨rest, hfield, hkey⟩ := hmatches
    · rw [hfield]
      exact Document.splits_of_array h hitems hoperands (at?_narrowed h)
    · rw [hfield, Dotted.segments_append_dot]
      exact (spreads_narrowed h hkey).splits (by simpa using hitems) _
  obtain ⟨e, he, hc⟩ := Condition.exists_holds hsplits hc
  obtain ⟨item, hitem, rfl⟩ := List.mem_map.mp he
  exact ⟨item, hitem, hc⟩

theorem conditionsOn_eq_singleton {front back : List Condition}
    (hconditions : scope.conditions = front ++ c :: back) (hc : c.Concerns array)
    (hothers : ∀ other ∈ front ++ back, ¬ other.Concerns array) :
    scope.conditionsOn (Dotted.segments array) = [c] := by
  have hconcerns (other : Condition) :
      (Dotted.segments array).isPrefixOf (Dotted.segments other.field) = true ↔
        other.Concerns array := by
    rw [List.isPrefixOf_iff_prefix, Dotted.segments_prefix_iff, Condition.Concerns]
  obtain ⟨hfront, hback⟩ := List.forall_mem_append.mp hothers
  have hnone {others : List Condition} (h : ∀ other ∈ others, ¬ other.Concerns array) :
      others.filter (fun other =>
        (Dotted.segments array).isPrefixOf (Dotted.segments other.field)) = [] :=
    List.filter_eq_nil_iff.mpr fun other hother hprefix => h other hother ((hconcerns other).mp hprefix)
  rw [conditionsOn, hconditions, List.filter_append, List.filter_cons, if_pos ((hconcerns c).mpr hc),
    hnone hfront, hnone hback, List.nil_append]

theorem position_eq_ok_iff {i : ℕ} (h : scope.before.at? path = some (.array items))
    (hconditions : scope.conditionsOn path ≠ []) : scope.position path = .ok i ↔
      items.findIdx? (fun item =>
        Condition.allHold (scope.conditionsOn path) (scope.narrowed path item)) = some i := by
  rw [position]
  simp only [h, List.isEmpty_iff, hconditions, if_false]
  cases items.findIdx? fun item =>
    Condition.allHold (scope.conditionsOn path) (scope.narrowed path item) <;> simp

end Scope

namespace Query

variable {q : Query} {c : Condition} {d : Document} {array : String} {items : List Value}

/-- **A `$` stands for the first element that the query matched.** Let a path lead to an array with
elements, let just one condition of a query concern the array, and let it look at the elements and hold
of the document. Then there is a first element with which, alone in the place of the array, the
condition still holds. Its position is found, and `$` names it. -/
theorem position_matched {front back : List Condition} (hq : q.conditions = front ++ c :: back)
    (hothers : ∀ other ∈ front ++ back, ¬ other.Concerns array)
    (h : d.at? (Dotted.segments array) = some (.array items)) (hitems : items ≠ [])
    (hmatches : c.Matches array) (hc : c.holds d = true) :
    ∃ (i : ℕ) (item : Value) (alone : Document), items[i]? = some item ∧
      d.replaceAt? (Dotted.segments array) (.array [item]) = some alone ∧ c.holds alone = true ∧
      (∀ (j : ℕ) (other : Value), j < i → items[j]? = some other → ∃ alone',
        d.replaceAt? (Dotted.segments array) (.array [other]) = some alone' ∧
          c.holds alone' = false) ∧
      (q.scope d).position (Dotted.segments array) = .ok i ∧
      ∀ now : List Value,
        (q.scope d).slots (Dotted.segments array) .matched (.array now) = .ok [.index i] := by
  have hbefore : (q.scope d).before.at? (Dotted.segments array) = some (.array items) := h
  have hconditions : (q.scope d).conditionsOn (Dotted.segments array) = [c] :=
    Scope.conditionsOn_eq_singleton hq hmatches.concerns hothers
  obtain ⟨found, hfound, hholds⟩ := Scope.exists_holds_narrowed hbefore hitems hmatches hc
  obtain ⟨i, hi⟩ : ∃ i, items.findIdx? (fun item =>
      c.holds ((q.scope d).narrowed (Dotted.segments array) item)) = some i := by
    rw [← Option.isSome_iff_exists, List.findIdx?_isSome, List.any_eq_true]
    exact ⟨found, hfound, hholds⟩
  have hposition : (q.scope d).position (Dotted.segments array) = .ok i := by
    rw [Scope.position_eq_ok_iff hbefore (by simp [hconditions]), hconditions, ← hi]
    exact congrArg (items.findIdx? ·) (funext fun item => Bool.and_true _)
  obtain ⟨hlt, hpass, hfirst⟩ := List.findIdx?_eq_some_iff_getElem.mp hi
  refine ⟨i, items[i], _, List.getElem?_eq_getElem hlt, Scope.replaceAt?_narrowed hbefore _, hpass,
    fun j other hj hother => ?_, hposition, fun now => ?_⟩
  · obtain ⟨hjlt, rfl⟩ := List.getElem?_eq_some_iff.mp hother
    exact ⟨_, Scope.replaceAt?_narrowed hbefore _, Bool.eq_false_iff.mpr (hfirst j hj)⟩
  · rw [Scope.slots, hposition]
    rfl

/-- The lines of an order: one without a quantity, a number, and one with a quantity. -/
def unevenLines : List Value :=
  [.document [("sku", .string "a")], .int32 7, .document [("qty", .int32 9)]]

/-- An order with these lines. -/
def unevenOrder : Document := [("orders", .array [.document [("lines", .array unevenLines)]])]

/-- Asks for a quantity other than null, which one without a quantity equals. -/
def counted : Condition := .compare "orders.0.lines.qty" .differs .null

/-- Only the last line has a quantity, and a `$` behind the lines stands for it. -/
theorem position_matched_uneven :
    let q : Query := { conditions := [.present "orders" true, counted] }
    let path := Dotted.segments "orders.0.lines"
    unevenOrder.at? path = some (.array unevenLines) ∧ counted.Matches "orders.0.lines" ∧
      counted.holds unevenOrder = true ∧
      (∃ alone, unevenOrder.replaceAt? path (.array [.document [("qty", .int32 9)]]) = some alone ∧
        counted.holds alone = true) ∧
      ∀ now : List Value,
        (q.scope unevenOrder).slots path .matched (.array now) = .ok [.index 2] := by
  intro q path
  have harray : unevenOrder.at? path = some (.array unevenLines) := rfl
  have hmatches : counted.Matches "orders.0.lines" := .inr ⟨"qty", rfl, "qty", [], rfl, rfl⟩
  have hconditions : q.conditions = [.present "orders" true] ++ counted :: [] := rfl
  have hothers : ∀ other ∈ [Condition.present "orders" true] ++ [],
      ¬ other.Concerns "orders.0.lines" := by
    rw [List.append_nil, List.forall_mem_singleton, Condition.Concerns,
      ← Dotted.segments_prefix_iff]
    decide
  obtain ⟨i, item, alone, hitem, halone, hholds, -, hposition, hslots⟩ :=
    position_matched hconditions hothers harray (by simp [unevenLines]) hmatches rfl
  have htwo : (q.scope unevenOrder).position path = .ok 2 := rfl
  obtain rfl : 2 = i := Except.ok.inj (htwo.symm.trans hposition)
  obtain rfl : .document [("qty", .int32 9)] = item := Option.some.inj hitem
  exact ⟨harray, hmatches, rfl, ⟨alone, halone, hholds⟩, hslots⟩

end Query

end Dossier
