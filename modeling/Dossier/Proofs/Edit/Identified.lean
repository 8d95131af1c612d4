import Mathlib
import Dossier.Proofs.Edit.Elements
import Dossier.Proofs.Edit.Elsewhere
import Dossier.Proofs.Value.Replaced

/-!
# Updates of the element of an identity

A call that overwrites an array element acts on all elements of its identity, and on nothing else.

* `Value.put_eq_replaceChild?`, **`Value.edit_of_descend?`**: an edit at the end of a path that leads
  somewhere is one of the value there, put in its place;
* **`ElementCall.Identifies`**: the elements of an identity;
* **`ElementCall.edit_identified`**: what a query with one call makes of a document.
-/

namespace Dossier

namespace Value

variable {v w w' child : Value} {slot : Slot} {creates changed : Bool} {scope : Scope} {path : Path}
  {k : String} {rest : List Step} {act : Value → Slot → Except UpdateError (Value × Bool)}

theorem put_eq_replaceChild? (hslots : scope.slots path (.key k) v = .ok [slot])
    (h : v.inSlot? slot = some child) (new : Value) :
    ∃ w, v.replaceChild? k new = some w ∧ v.put slot new = .ok w := by
  obtain ⟨slot', hslot, rfl | ⟨items, index, rfl, rfl⟩⟩ := Scope.slots_key_cases hslots
  · cases hslot
    cases v <;> try cases h
    case document fields =>
      have hfind : Entries.find? fields k = some child := h
      exact ⟨_, if_pos (Entries.contains_of_find? hfind), rfl⟩
  · cases hslot
    have hlt := (List.getElem?_eq_some_iff.mp h).1
    refine ⟨array (items.set index new), ?_, by rw [put, putItem_of_lt hlt]⟩
    rw [replaceChild?, index?_of_slots hslots]
    exact if_pos hlt

/-- **Where a path leads somewhere**, an edit is one of the value there, put in its place. -/
theorem edit_of_descend? {ks : Path} (h : v.descend? ks = some w) (hrest : rest ≠ [])
    (hedit : ∀ path, w.edit scope creates act rest path = .ok (w', changed)) (path : Path) :
    ∃ v', v.replace? ks w' = some v' ∧
      v.edit scope creates act (ks.map .key ++ rest) path = .ok (v', changed) := by
  induction ks generalizing v path with
  | nil =>
    cases h
    exact ⟨w', rfl, hedit path⟩
  | cons k ks ih =>
    obtain ⟨child, hchild, hw⟩ := Option.bind_eq_some_iff.mp h
    obtain ⟨slot, hslots, hslot⟩ := exists_slot_of_child? scope path hchild
    obtain ⟨child', hreplace, hinside⟩ := ih hw (path ++ [slot.segment])
    obtain ⟨v', hv', hput⟩ := put_eq_replaceChild? hslots hslot child'
    refine ⟨v', ?_, ?_⟩
    · rw [replace?, hchild, Option.bind_eq_bind, Option.bind_some, hreplace]
      exact hv'
    · rw [List.map_cons, List.cons_append, edit_cons hslots (by simp [hrest]),
        enter?_of_inSlot? hslot]
      simp only [bind, Except.bind, hinside, hput]
      rfl

end Value

namespace ElementCall

/-- Whether an element is one of the identity that a call is for: a document with a value under `_id`
that equals the identity in filters. -/
def Identifies (call : ElementCall) (w : Value) : Prop :=
  ∃ fields x, w = .document fields ∧ Entries.find? fields "_id" = some x ∧
    x.alike call.element.id.toValue = true

theorem allAccept_iff_identifies (call : ElementCall) (w : Value) :
    Binding.allAccept [call.binding] w = true ↔ call.Identifies w := by
  cases w
  case document fields =>
    rw [allAccept_singleton, accepts_binding_iff]
    constructor
    · rintro ⟨x, hx, halike⟩
      exact ⟨fields, x, rfl, hx, halike⟩
    · rintro ⟨_, x, hfields, hx, halike⟩
      cases hfields
      exact ⟨x, hx, halike⟩
  all_goals
    constructor
    · intro h
      cases h
    · rintro ⟨fields, x, hfields, -⟩
      cases hfields

theorem overwrites_iff (call : ElementCall) (w : Value) :
    call.overwrites w = true ↔ call.Identifies w ∧ w.same call.value = false := by
  rw [overwrites, Bool.and_eq_true, allAccept_iff_identifies, Bool.not_eq_true']

theorem overwritten_of_identifies {call : ElementCall} {w : Value} (h : call.Identifies w) :
    call.overwritten w = if w.same call.value then w else call.value := by
  rw [overwritten, (allAccept_iff_identifies call w).mpr h]
  cases w.same call.value <;> rfl

theorem overwritten_of_not_identifies {call : ElementCall} {w : Value} (h : ¬ call.Identifies w) :
    call.overwritten w = w := by
  rw [← allAccept_iff_identifies, Bool.not_eq_true] at h
  rw [overwritten, h]
  rfl

/-- **One call hits just the elements of its identity.** With any conditions beside it, its query
succeeds on every document whose path leads to an array. The array keeps its length; an element of
the identity is overwritten unless it is the same as the value, and every other one stays. The
document has the new array in the place of the old one and is otherwise as it was, and the flag tells
whether an element was overwritten. -/
theorem edit_identified (call : ElementCall) (conditions : List Condition)
    (hplain : Path.Plain call.path) {d : Document} {items : List Value}
    (h : d.at? call.path = some (.array items)) :
    ∃ (q : Query) (d' : Document) (items' : List Value) (changed : Bool),
      record? { conditions } call = some q ∧ q.edit d = .ok (d', changed) ∧
      d'.at? call.path = some (.array items') ∧ items'.length = items.length ∧
      (∀ (i : ℕ) (w : Value), items[i]? = some w →
        (call.Identifies w →
          items'[i]? = some (if w.same call.value then w else call.value)) ∧
        (¬ call.Identifies w → items'[i]? = some w)) ∧
      d.replaceAt? call.path (.array items') = some d' ∧
      (∀ p, Path.Diverge call.path p → d'.at? p = d.at? p) ∧
      (changed = true ↔ ∃ w ∈ items, call.Identifies w ∧ w.same call.value = false) := by
  obtain ⟨q, hq⟩ : ∃ q : Query, q = { batch [call] with conditions } := ⟨_, rfl⟩
  have hpath : call.path ≠ [] := Dotted.segments_ne_nil call.element.array
  have hbindings : (q.scope d).bindingsOf "elem" = [call.binding] := by
    rw [hq]
    exact (bindingsOf_batch [call] d "elem").trans (if_pos rfl)
  have hupdates : q.updates = [call.update] := by rw [hq]; rfl
  have hsteps : Step.ofPath call.update.field = call.path.map .key ++ [.bound "elem"] := by
    rw [ofPath_update, hplain.map_ofSegment]
  obtain ⟨v, hreplace, happly⟩ := Value.edit_of_descend? (Document.at?_eq_array_iff.mp h)
    (List.cons_ne_nil _ _) (edit_items hbindings items) []
  rw [Value.replace?_document hpath] at hreplace
  obtain ⟨d', hd', rfl⟩ := Option.map_eq_some_iff.mp hreplace
  have hedit : q.edit d = .ok (d', items.any call.overwrites) := by
    rw [Query.edit_single_eq_ok hupdates, Update.apply_eq, hsteps]
    exact happly
  refine ⟨q, d', items.map call.overwritten, items.any call.overwrites, by rw [hq]; rfl, hedit,
    Document.at?_replaceAt? hpath hd', List.length_map _, fun i w hw => ⟨fun hid => ?_, fun hid => ?_⟩,
    hd', fun p hp => ?_, ?_⟩
  · rw [List.getElem?_map, hw, Option.map_some, overwritten_of_identifies hid]
  · rw [List.getElem?_map, hw, Option.map_some, overwritten_of_not_identifies hid]
  · -- nulls are made at the end of a path only, and this one goes on to the elements
    refine (Query.at?_edit_of_diverge hupdates hsteps hp hedit).resolve_right ?_
    rintro ⟨hrest, -⟩
    cases hrest
  · simp only [List.any_eq_true, overwrites_iff]

/-- A call for the line of identity 1 in the first order. -/
def firstLine : ElementCall :=
  ⟨⟨"orders.0.lines", .integer 1⟩, .document [("_id", .int64 1)]⟩

/-- Two lines of identity 1, the second one the same as the value of the call, a number, and a line of
another identity. -/
def mixedLines : List Value :=
  [.document [("_id", .int32 1), ("qty", .int32 3)], .document [("_id", .int64 1)], .int32 1,
    .document [("_id", .int64 2)]]

/-- One order with lines. -/
def oneOrder : Document := [("orders", .array [.document [("lines", .array mixedLines)]])]

/-- The first line is overwritten, and nothing else. -/
theorem edit_identified_mixed :
    Path.Plain firstLine.path ∧ oneOrder.at? firstLine.path = some (.array mixedLines) ∧
      ∃ (q : Query) (d' : Document) (items' : List Value),
        record? { conditions := [.present "orders" true] } firstLine = some q ∧
        q.edit oneOrder = .ok (d', true) ∧ d'.at? firstLine.path = some (.array items') ∧
        items'[0]? = some firstLine.value ∧ items'[1]? = mixedLines[1]? ∧
        items'[2]? = mixedLines[2]? ∧ items'[3]? = mixedLines[3]? := by
  have hplain : Path.Plain firstLine.path := by decide
  have harray : oneOrder.at? firstLine.path = some (.array mixedLines) := rfl
  have hfirst : firstLine.Identifies (.document [("_id", .int32 1), ("qty", .int32 3)]) :=
    (allAccept_iff_identifies firstLine _).mp rfl
  have hsecond : firstLine.Identifies (.document [("_id", .int64 1)]) :=
    (allAccept_iff_identifies firstLine _).mp rfl
  have hnumber : ¬ firstLine.Identifies (.int32 1) := by
    rw [← allAccept_iff_identifies]
    decide
  have hother : ¬ firstLine.Identifies (.document [("_id", .int64 2)]) := by
    rw [← allAccept_iff_identifies]
    decide
  obtain ⟨q, d', items', changed, hq, hedit, hat, -, hitems, -, -, hchanged⟩ :=
    edit_identified firstLine [.present "orders" true] hplain harray
  obtain rfl : changed = true := hchanged.mpr ⟨_, List.mem_cons_self, hfirst, rfl⟩
  exact ⟨hplain, harray, q, d', items', hq, hedit, hat, (hitems 0 _ rfl).1 hfirst,
    (hitems 1 _ rfl).1 hsecond, (hitems 2 _ rfl).2 hnumber, (hitems 3 _ rfl).2 hother⟩

end ElementCall

end Dossier
