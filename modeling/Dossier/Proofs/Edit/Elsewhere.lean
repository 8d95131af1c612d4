import Mathlib
import Dossier.Proofs.Edit.Slots

/-!
# What an edit leaves alone

An edit does not show on a path that leads elsewhere. Two spellings of one position do not lead
elsewhere, and an array that is filled in behind its end gets nulls in between.

* **`Path.Diverge`**: paths that lead to different places;
* `Value.Padded`, **`Document.Pads`**: the positions that get nulls;
* `Value.child?_put`, `Value.child?_perform`: one slot;
* **`Value.descend?_edit_of_diverge`**: an edit along keys, whatever it does at their end;
* **`Query.at?_edit_elsewhere`**: an update of a document.
-/

namespace Dossier

/-! ## Paths that lead elsewhere -/

namespace Path

/-- Whether two paths lead to different places: neither begins with the other, and where they differ
first, they do not spell one position in two ways. -/
def Diverge (p q : Path) : Prop :=
  ∃ front k l back back', p = front ++ k :: back ∧ q = front ++ l :: back' ∧ k ≠ l ∧
    ∀ index, Numeral.index? k = some index → Numeral.index? l ≠ some index

variable {p q : Path} {k l : String}

theorem not_diverge_nil_left : ¬ Diverge [] q := by
  rintro ⟨front, k, l, back, back', hp, -⟩
  exact absurd hp.symm (by simp)

theorem not_diverge_nil_right : ¬ Diverge p [] := by
  rintro ⟨front, k, l, back, back', -, hq, -⟩
  exact absurd hq.symm (by simp)

theorem Diverge.ne_nil_left (h : Diverge p q) : p ≠ [] := by
  rintro rfl
  exact not_diverge_nil_left h

theorem Diverge.ne_nil_right (h : Diverge p q) : q ≠ [] := by
  rintro rfl
  exact not_diverge_nil_right h

theorem diverge_cons_cons (h : Diverge (k :: p) (l :: q)) :
    (k ≠ l ∧ ∀ index, Numeral.index? k = some index → Numeral.index? l ≠ some index) ∨
      (k = l ∧ Diverge p q) := by
  obtain ⟨front, k', l', back, back', hp, hq, hne, hindex⟩ := h
  cases front with
  | nil =>
    cases hp
    cases hq
    exact .inl ⟨hne, hindex⟩
  | cons m front =>
    cases hp
    cases hq
    exact .inr ⟨rfl, front, k', l', back, back', rfl, rfl, hne, hindex⟩

end Path

/-- Whether a segment names a slot. -/
def Slot.Named : Slot → String → Prop
  | key k, segment => k = segment
  | index i, segment => Numeral.index? segment = some i

/-- Whether a segment names a position between the end of an array and a slot behind it. -/
def Value.Padded (v : Value) (slot : Slot) (segment : String) : Prop :=
  ∃ items index position, v = array items ∧ slot = .index index ∧
    Numeral.index? segment = some position ∧ items.length ≤ position ∧ position < index

/-- Whether two paths lead to positions behind the end of one array, the second one to a position
before that of the first. -/
def Value.Pads (v : Value) (p q : Path) : Prop :=
  ∃ front k l items index position, p = front ++ [k] ∧ q = front ++ [l] ∧
    v.descend? front = some (array items) ∧ Numeral.index? k = some index ∧
    Numeral.index? l = some position ∧ items.length ≤ position ∧ position < index

/-- Whether two paths lead to positions behind the end of one array of a document, the second one to
a position before that of the first. -/
def Document.Pads (d : Document) (p q : Path) : Prop :=
  ∃ front k l items index position, p = front ++ [k] ∧ q = front ++ [l] ∧
    d.at? front = some (.array items) ∧ Numeral.index? k = some index ∧
    Numeral.index? l = some position ∧ items.length ≤ position ∧ position < index

theorem Document.pads_iff {d : Document} {p q : Path} :
    d.Pads p q ↔ (Value.document d).Pads p q := by
  simp only [Pads, Value.Pads, Document.at?_eq_array_iff]

namespace Value

variable {v w new child : Value} {slot : Slot} {creates changed : Bool} {scope : Scope}
  {path p q : Path} {k l : String} {rest : List Step}
  {act : Value → Slot → Except UpdateError (Value × Bool)}

theorem not_pads_empty : ¬ (document []).Pads p q := by
  rintro ⟨front, k, l, items, index, position, -, -, hitems, -⟩
  cases front with
  | nil => cases hitems
  | cons m front => cases hitems

theorem descend?_of_pads (h : v.Pads p q) : v.descend? q = none := by
  obtain ⟨front, k, l, items, index, position, rfl, rfl, hitems, -, hposition, hle, -⟩ := h
  rw [descend?_append, hitems, Option.bind_some, descend?, child?, hposition, Option.bind_some,
    List.getElem?_eq_none hle, Option.bind_none]

theorem Pads.cons (hchild : v.child? k = some child) (h : child.Pads p q) :
    v.Pads (k :: p) (k :: q) := by
  obtain ⟨front, k', l', items, index, position, rfl, rfl, hitems, hrest⟩ := h
  refine ⟨k :: front, k', l', items, index, position, rfl, rfl, ?_, hrest⟩
  rw [descend?, hchild, Option.bind_some, hitems]

/-! ## One slot -/

theorem getElem?_putItem_of_ne (items : List Value) {index position : ℕ} (h : index ≠ position)
    (new : Value) : (putItem items index new)[position]? =
      if items.length ≤ position ∧ position < index then some null else items[position]? := by
  rw [putItem, List.getElem?_set_ne h, List.getElem?_append]
  split
  case isTrue hlt => rw [if_neg (by omega)]
  case isFalse hle =>
    rw [List.getElem?_replicate, List.getElem?_eq_none (not_lt.mp hle)]
    exact if_congr (by omega) rfl rfl

/-- **Filling a slot** leaves the others alone, apart from nulls behind the end of an array. -/
theorem child?_put (h : v.put slot new = .ok w) (hl : ¬ slot.Named l) :
    w.child? l = v.child? l ∨ (v.Padded slot l ∧ w.child? l = some null) := by
  cases v <;> cases slot <;> cases h
  case document.key.refl fields k => exact .inl (Entries.find?_insert_of_ne fields hl new)
  case array.index.refl items index =>
    cases hposition : Numeral.index? l with
    | none => left; rw [child?, child?, hposition]; rfl
    | some position =>
      have hne : index ≠ position := by
        rintro rfl
        exact hl hposition
      rw [child?, child?, hposition, Option.bind_some, Option.bind_some,
        getElem?_putItem_of_ne items hne]
      split
      case isTrue hpadded =>
        exact .inr ⟨⟨items, index, position, rfl, rfl, hposition, hpadded⟩, rfl⟩
      case isFalse => exact .inl rfl

theorem child?_clear (hl : ¬ slot.Named l) : (v.clear slot).1.child? l = v.child? l := by
  cases v <;> cases slot <;> try rfl
  case document.key fields k => exact Entries.find?_erase_of_ne fields hl
  case array.index items index =>
    rw [clear]
    split
    case isFalse => rfl
    case isTrue =>
      cases hposition : Numeral.index? l with
      | none => rw [child?, child?, hposition]; rfl
      | some position =>
        have hne : index ≠ position := by
          rintro rfl
          exact hl hposition
        rw [child?, child?, hposition, Option.bind_some, Option.bind_some,
          List.getElem?_set_ne hne]

theorem child?_perform {effect : Effect} (h : v.perform slot effect = .ok (w, changed))
    (hl : ¬ slot.Named l) :
    w.child? l = v.child? l ∨ (v.Padded slot l ∧ w.child? l = some null) := by
  cases effect with
  | keep =>
    cases h
    exact .inl rfl
  | clear =>
    have hclear : v.clear slot = (w, changed) := Except.ok.inj h
    have hchild := child?_clear (v := v) hl
    rw [hclear] at hchild
    exact .inl hchild
  | fill new =>
    rw [perform] at h
    split at h
    case isTrue =>
      cases h
      exact .inl rfl
    case isFalse =>
      obtain ⟨put, hput, h⟩ := map_eq_ok.mp h
      cases h
      exact child?_put hput hl

/-- Whether an act leaves all but its slot alone, apart from nulls behind the end of an array. -/
def Contained (act : Value → Slot → Except UpdateError (Value × Bool)) : Prop :=
  ∀ v slot w changed, act v slot = .ok (w, changed) → ∀ l, ¬ slot.Named l →
    w.child? l = v.child? l ∨ (v.Padded slot l ∧ w.child? l = some null)

theorem not_named_of_slots (h : scope.slots path (.key k) v = .ok [slot]) (hne : k ≠ l)
    (hindex : ∀ index, Numeral.index? k = some index → Numeral.index? l ≠ some index) :
    ¬ slot.Named l := by
  obtain ⟨slot', hslot, rfl | ⟨items, i, rfl, rfl⟩⟩ := Scope.slots_key_cases h
  · cases hslot
    exact hne
  · cases hslot
    exact hindex i (index?_of_slots h)

theorem not_padded_of_enter? (h : v.enter? creates slot = .ok (some child)) :
    ¬ v.Padded slot l := by
  rintro ⟨items, index, position, rfl, rfl, -, hle, hlt⟩
  have hnone : items[index]? = none := List.getElem?_eq_none (by omega)
  have hsome : items[index]? = some child := Except.ok.inj h
  rw [hnone] at hsome
  cases hsome

/-! ## Paths -/

theorem edit_child_cases (hslots : scope.slots path (.key k) v = .ok [slot]) (hrest : rest ≠ [])
    (h : v.edit scope creates act (.key k :: rest) path = .ok (w, changed)) :
    w = v ∨ ∃ child child', w.child? k = some child' ∧
      (v.child? k = some child ∨ (v.child? k = none ∧ child = document [])) ∧
      child.edit scope creates act rest (path ++ [slot.segment]) = .ok (child', changed) := by
  refine (edit_cons_cases hslots hrest h).imp And.right ?_
  rintro ⟨child, child', henter, hedit, hput⟩
  refine ⟨child, child', ?_, ?_, hedit⟩
  · rw [← inSlot?_eq_child? ((slots_key_of_kind (kind_put hput)).trans hslots)]
    exact inSlot?_put hput
  · rw [← inSlot?_eq_child? hslots]
    exact (enter?_eq_some henter).imp_right And.right

/-- An edit that begins with a key does not show under a segment that leads elsewhere, apart from
nulls behind the end of an array, which only an act on the slot of the key makes. -/
theorem child?_edit_of_not_named (hact : Contained act)
    (hslots : scope.slots path (.key k) v = .ok [slot]) (hl : ¬ slot.Named l)
    (h : v.edit scope creates act (.key k :: rest) path = .ok (w, changed)) :
    w.child? l = v.child? l ∨ (rest = [] ∧ v.Padded slot l ∧ w.child? l = some null) := by
  by_cases hrest : rest = []
  · subst hrest
    rw [edit_last hslots] at h
    exact (hact _ _ _ _ h l hl).imp_right fun hpadded => ⟨rfl, hpadded⟩
  · obtain ⟨-, rfl⟩ | ⟨child, child', henter, -, hput⟩ := edit_cons_cases hslots hrest h
    · exact .inl rfl
    · exact (child?_put hput hl).imp_right fun hpadded =>
        absurd hpadded.1 (not_padded_of_enter? henter)

/-- **An edit along keys** does not show on a path that leads elsewhere, apart from nulls behind the
end of an array, which only an act at the end of the keys makes. -/
theorem descend?_edit_of_diverge (hact : Contained act) {ks : Path} (hq : Path.Diverge ks q)
    (h : v.edit scope creates act (ks.map .key ++ rest) path = .ok (w, changed)) :
    w.descend? q = v.descend? q ∨ (rest = [] ∧ v.Pads ks q ∧ w.descend? q = some null) := by
  induction ks generalizing v w path q with
  | nil => exact absurd hq Path.not_diverge_nil_left
  | cons k ks ih =>
    obtain ⟨l, q, rfl⟩ := List.exists_cons_of_ne_nil hq.ne_nil_right
    rw [List.map_cons, List.cons_append] at h
    cases hslots : scope.slots path (.key k) v with
    | error cause =>
      rw [edit, hslots] at h
      cases h
    | ok slots =>
      obtain ⟨slot, rfl, -⟩ := Scope.slots_key_cases hslots
      rcases Path.diverge_cons_cons hq with ⟨hne, hindex⟩ | ⟨rfl, hgo⟩
      · -- the paths part here
        obtain hsame | ⟨hlast, ⟨items, index, position, rfl, rfl, hposition, hle, hlt⟩, hnull⟩ :=
          child?_edit_of_not_named hact hslots (not_named_of_slots hslots hne hindex) h
        · rw [descend?, descend?, hsame]
          exact .inl rfl
        · obtain ⟨hks, rfl⟩ := List.append_eq_nil_iff.mp hlast
          obtain rfl := List.map_eq_nil_iff.mp hks
          have hpads : (array items).Pads [k] [l] :=
            ⟨[], k, l, items, index, position, rfl, rfl, rfl, index?_of_slots hslots, hposition,
              hle, hlt⟩
          cases q with
          | nil => exact .inr ⟨rfl, hpads, by rw [descend?, hnull]; rfl⟩
          | cons m q =>
            -- nothing is found inside the null, as nothing was found before
            have hnone : (array items).child? l = none := by
              rw [child?, hposition, Option.bind_some, List.getElem?_eq_none hle]
            rw [descend?, descend?, hnull, hnone]
            exact .inl rfl
      · -- both go on under the same key
        have hrest : ks.map Step.key ++ rest ≠ [] := by simp [hgo.ne_nil_left]
        obtain rfl | ⟨child, child', hafter, hbefore, hedit⟩ := edit_child_cases hslots hrest h
        · exact .inl rfl
        rw [descend?, descend?, hafter, Option.bind_some]
        obtain hbefore | ⟨hnone, rfl⟩ := hbefore
        · rw [hbefore, Option.bind_some]
          refine (ih hgo hedit).imp_right ?_
          rintro ⟨hlast, hpads, hnull⟩
          exact ⟨hlast, hpads.cons hbefore, hnull⟩
        · obtain ⟨m, q, rfl⟩ := List.exists_cons_of_ne_nil hgo.ne_nil_right
          rw [hnone]
          exact .inl ((ih hgo hedit).resolve_right fun hpads => not_pads_empty hpads.2.1)

end Value

/-! ## Updates -/

theorem Update.contained_act (u : Update) : Value.Contained u.act := by
  intro v slot w changed h l hl
  obtain ⟨effect, -, h⟩ := bind_eq_ok.mp h
  exact Value.child?_perform h hl

namespace Query

variable {q : Query} {u : Update} {d d' : Document} {changed : Bool} {p : Path}

/-- An update of a document does not show on a path that leads elsewhere than the keys its own path
begins with. -/
theorem at?_edit_of_diverge (hq : q.updates = [u]) {ks : Path} {rest : List Step}
    (hpath : Step.ofPath u.field = ks.map .key ++ rest) (hp : Path.Diverge ks p)
    (h : q.edit d = .ok (d', changed)) :
    d'.at? p = d.at? p ∨ (rest = [] ∧ d.Pads ks p ∧ d'.at? p = some .null) := by
  rw [edit_single_eq_ok hq, Update.apply_eq, hpath] at h
  rw [Document.at?_eq_descend? _ hp.ne_nil_right, Document.at?_eq_descend? _ hp.ne_nil_right,
    Document.pads_iff]
  exact Value.descend?_edit_of_diverge u.contained_act hp h

/-- **An update leaves everything else alone.** On a path that leads elsewhere than its own, a value
that was there is there afterwards, and where nothing was, there is nothing, or a null where an array
was filled up to the position that the update writes. -/
theorem at?_edit_elsewhere (hq : q.updates = [u]) (hplain : Path.Plain (Dotted.segments u.field))
    (hp : Path.Diverge (Dotted.segments u.field) p) (h : q.edit d = .ok (d', changed)) :
    (∀ x, d.at? p = some x → d'.at? p = some x) ∧
      (d.at? p = none → d'.at? p = none ∨
        (d'.at? p = some .null ∧ d.Pads (Dotted.segments u.field) p)) := by
  have hpath : Step.ofPath u.field = (Dotted.segments u.field).map .key ++ [] := by
    rw [Step.ofPath, hplain.map_ofSegment, List.append_nil]
  obtain hsame | ⟨-, hpads, hnull⟩ := at?_edit_of_diverge hq hpath hp h
  · exact ⟨fun x hx => hsame.trans hx, fun hnone => .inl (hsame.trans hnone)⟩
  · have hnone : d.at? p = none := by
      rw [Document.at?_eq_descend? _ hp.ne_nil_right]
      exact Value.descend?_of_pads (Document.pads_iff.mp hpads)
    refine ⟨fun x hx => ?_, fun _ => .inr ⟨hnull, hpads⟩⟩
    rw [hnone] at hx
    cases hx

/-- Behind two marks a fifth one is set: the third gets a null, and so does the fourth. -/
theorem at?_edit_elsewhere_padded :
    let marks : Document := [("_id", .int32 1), ("marks", .array [.int32 7, .int32 8])]
    let filled : Document :=
      [("_id", .int32 1), ("marks", .array [.int32 7, .int32 8, .null, .null, .int32 9])]
    Path.Plain (Dotted.segments "marks.4") ∧
      Path.Diverge (Dotted.segments "marks.4") ["marks", "3"] ∧
      ({ updates := [⟨"marks.4", .assign (.int32 9)⟩] } : Query).edit marks = .ok (filled, true) ∧
      marks.at? ["marks", "3"] = none ∧ filled.at? ["marks", "3"] = some .null ∧
      marks.Pads (Dotted.segments "marks.4") ["marks", "3"] := by
  intro marks filled
  have hplain : Path.Plain (Dotted.segments "marks.4") := by decide
  have hdiverge : Path.Diverge (Dotted.segments "marks.4") ["marks", "3"] :=
    ⟨["marks"], "4", "3", [], [], rfl, rfl, by decide, fun _ h => by cases h; decide⟩
  have hedit : ({ updates := [⟨"marks.4", .assign (.int32 9)⟩] } : Query).edit marks =
      .ok (filled, true) := rfl
  obtain hnone | ⟨hnull, hpads⟩ := (at?_edit_elsewhere rfl hplain hdiverge hedit).2 rfl
  · cases hnone
  · exact ⟨hplain, hdiverge, hedit, rfl, hnull, hpads⟩

end Query

end Dossier
