import Mathlib
import Dossier.Proofs.Edit.OneKey
import Dossier.Proofs.Value.Equivalence

/-!
# Arrays as sets

The update that appends a value unless an equal one is there, and the one that removes all equal
ones, keep a set in an array. Equality is that of filters, in which numbers are equal across kinds and
documents without regard to the order of their keys.

* **`Member`**: a value that can be in such a set, and its equality, an equivalence relation;
* `SetCall`, `SetCall.next`, `SetCall.members`: the two updates, what one of them makes of the members,
  and what a list of them leaves;
* `SetCall.pairwise_members`, **`SetCall.mem_members_iff`**, **`SetCall.members_append`**: no two
  members are equal, the last call about a value decides whether it is a member, and members that are
  not removed stay in order, new ones behind them;
* **`Query.edit_set`**: an edit by such updates of one field that is not there at first.
-/

namespace Dossier

/-! ## Members -/

/-- A value that can be in a set: every document inside has each key once, and no number is NaN. -/
structure Member where
  value : Value
  wellFormed : value.WellFormed
  nanFree : value.NaNFree

namespace Member

/-- Members are equal as filters take them. -/
instance : Setoid Member where
  r a b := a.value.alike b.value = true
  iseqv :=
    { refl a := Value.alike_self a.wellFormed a.nanFree
      symm {a b} h := Value.alike_symm a.wellFormed b.wellFormed h
      trans h h' := Value.alike_trans h h' }

theorem equiv_iff {a b : Member} : a ≈ b ↔ a.value.alike b.value = true := Iff.rfl

instance : DecidableRel (α := Member) (· ≈ ·) := fun a b =>
  inferInstanceAs (Decidable (a.value.alike b.value = true))

end Member

/-! ## Calls -/

/-- A change of a set. -/
inductive SetCall where
  | add (a : Member)
  | remove (a : Member)

namespace SetCall

variable {a b : Member} {c : SetCall} {calls : List SetCall}

/-- What the call is about. -/
def operand : SetCall → Member
  | add a => a
  | remove a => a

/-- The member that the call may add. -/
def added? : SetCall → Option Member
  | add a => some a
  | remove _ => none

/-- Whether the call removes a member. -/
def Removes : SetCall → Member → Prop
  | add _, _ => False
  | remove a, b => b ≈ a

theorem not_removes_add (a b : Member) : ¬ (add a).Removes b := id

theorem removes_remove (a b : Member) : (remove a).Removes b ↔ b ≈ a := Iff.rfl

instance (b : Member) : (c : SetCall) → Decidable (c.Removes b)
  | add _ => inferInstanceAs (Decidable False)
  | remove a => inferInstanceAs (Decidable (b ≈ a))

/-- The operator of the call. -/
def op : SetCall → UpdateOp
  | add _ => .addIfNotExist
  | remove _ => .removeFromArray

/-- The update of a field by the call. -/
def update (field : String) : SetCall → Update
  | add a => ⟨field, .addUnique a.value⟩
  | remove a => ⟨field, .pull a.value⟩

theorem ofOperator?_op (c : SetCall) (field : String) :
    Change.ofOperator? c.op c.operand.value = some (c.update field).change := by
  cases c <;> rfl

theorem field_update (field : String) (c : SetCall) : (c.update field).field = field := by
  cases c <;> rfl

/-- What one call makes of the members. -/
def next (members : List Member) : SetCall → List Member
  | add a => if ∃ b ∈ members, b ≈ a then members else members ++ [a]
  | remove a => members.filter fun b => ¬ b ≈ a

/-- The members that calls leave, from none. -/
def members (calls : List SetCall) : List Member := calls.foldl next []

theorem members_concat (calls : List SetCall) (c : SetCall) :
    members (calls ++ [c]) = next (members calls) c := by
  rw [members, List.foldl_append]
  rfl

/-! ## The members after some calls -/

theorem pairwise_next {members : List Member} (h : members.Pairwise (¬ · ≈ ·)) (c : SetCall) :
    (next members c).Pairwise (¬ · ≈ ·) := by
  cases c with
  | add a =>
    rw [next]
    split
    case isTrue => exact h
    case isFalse hnew =>
      refine List.pairwise_append.mpr ⟨h, List.pairwise_singleton _ _, fun b hb c hc heq => ?_⟩
      rw [List.mem_singleton.mp hc] at heq
      exact hnew ⟨b, hb, heq⟩
  | remove a => exact h.filter _

/-- **No two members are equal.** -/
theorem pairwise_members (calls : List SetCall) : (members calls).Pairwise (¬ · ≈ ·) := by
  induction calls using List.reverseRecOn with
  | nil => exact .nil
  | append_singleton calls c ih =>
    rw [members_concat]
    exact pairwise_next ih c

/-- A call about an equal value decides whether there is an equal member. -/
theorem exists_next_of_equiv (members : List Member) (h : c.operand ≈ a) :
    (∃ b ∈ next members c, b ≈ a) ↔ ∃ e, c = add e := by
  cases c with
  | add e =>
    refine iff_of_true ?_ ⟨e, rfl⟩
    rw [next]
    split
    case isTrue hold =>
      obtain ⟨b, hb, hbe⟩ := hold
      exact ⟨b, hb, Setoid.trans hbe h⟩
    case isFalse => exact ⟨e, List.mem_append_right _ List.mem_cons_self, h⟩
  | remove e =>
    refine iff_of_false ?_ (by simp)
    rintro ⟨b, hb, hba⟩
    have hbe : ¬ b ≈ e := by simpa using (List.mem_filter.mp hb).2
    exact hbe (Setoid.trans hba (Setoid.symm h))

theorem exists_next_of_not_equiv (members : List Member) (h : ¬ c.operand ≈ a) :
    (∃ b ∈ next members c, b ≈ a) ↔ ∃ b ∈ members, b ≈ a := by
  cases c with
  | add e =>
    have hea : ¬ e ≈ a := h
    rw [next]
    split
    case isTrue => rfl
    case isFalse => simp [hea]
  | remove e =>
    refine exists_congr fun b => and_congr_left fun hba => ?_
    have hbe : ¬ b ≈ e := fun hbe => h (Setoid.trans (Setoid.symm hbe) hba)
    simp [next, hbe]

/-- **The last call about a value decides** whether it is a member. -/
theorem mem_members_iff (calls : List SetCall) (a : Member) :
    (∃ b ∈ members calls, b ≈ a) ↔
      ∃ e, (calls.filter fun c => c.operand ≈ a).getLast? = some (add e) := by
  induction calls using List.reverseRecOn with
  | nil => simp [members]
  | append_singleton calls c ih =>
    rw [members_concat, List.filter_append]
    by_cases hca : c.operand ≈ a
    · rw [exists_next_of_equiv _ hca]
      simp [hca]
    · rw [exists_next_of_not_equiv _ hca, ih]
      simp [hca]

/-- **Members that are not removed stay in order**, and what is added stands behind them. -/
theorem members_append (before after : List SetCall) :
    ∃ new, members (before ++ after) =
        ((members before).filter fun a => ∀ c ∈ after, ¬ c.Removes a) ++ new ∧
      new.Sublist (after.filterMap added?) := by
  induction after using List.reverseRecOn with
  | nil => exact ⟨[], by simp, .slnil⟩
  | append_singleton after c ih =>
    obtain ⟨new, hmembers, hnew⟩ := ih
    rw [← List.append_assoc, members_concat, hmembers, List.filterMap_append]
    cases c with
    | add a =>
      simp only [List.forall_mem_append, List.forall_mem_singleton, not_removes_add,
        not_false_eq_true, and_true]
      rw [next]
      split
      case isTrue => exact ⟨new, rfl, hnew.trans (List.sublist_append_left _ _)⟩
      case isFalse => exact ⟨new ++ [a], List.append_assoc _ _ _, hnew.append (.refl _)⟩
    | remove a =>
      refine ⟨new.filter fun b => ¬ b ≈ a, ?_, ?_⟩
      · simp only [next, List.filter_append, List.filter_filter, List.forall_mem_append,
          List.forall_mem_singleton, removes_remove, Bool.decide_and]
        congr 2
        funext b
        exact Bool.and_comm _ _
      · exact (List.filter_sublist).trans (hnew.trans (List.sublist_append_left _ _))

/-! ## Calls as updates -/

variable {f : String} {d : Document}

/-- The array of some members. -/
def arrayOf (members : List Member) : Value := .array (members.map Member.value)

theorem any_alike_iff {members : List Member} :
    (members.map Member.value).any (·.alike a.value) = true ↔ ∃ b ∈ members, b ≈ a := by
  simp [Member.equiv_iff]

theorem yields_of_length {u : Update} {xs ys : List Member} (hlength : xs.length ≠ ys.length)
    (heffect : u.change.effect u.field (some (arrayOf xs)) = .ok (.fill (arrayOf ys))) :
    u.Yields (some (arrayOf xs)) (.ok (arrayOf ys)) := by
  refine .of_fill heffect fun held hheld hsame => ?_
  obtain rfl := Option.some.inj hheld
  rw [arrayOf, arrayOf, Value.same_array_of_length (by simpa using hlength)] at hsame
  cases hsame

theorem yields_first (f : String) (a : Member) :
    ((add a).update f).Yields none (.ok (arrayOf [a])) :=
  .of_fill rfl fun held hheld => by cases hheld

/-- **One update** puts the next members into the array. -/
theorem yields_update (f : String) (members : List Member) (c : SetCall) :
    (c.update f).Yields (some (arrayOf members)) (.ok (arrayOf (next members c))) := by
  cases c with
  | add a =>
    have heffect : ((add a).update f).change.effect f (some (arrayOf members)) =
        .ok (if (members.map Member.value).any (·.alike a.value) then .keep
          else .fill (.array (members.map Member.value ++ [a.value]))) := rfl
    rw [next]
    split
    case isTrue hold =>
      rw [any_alike_iff.mpr hold, if_pos rfl] at heffect
      exact .of_keep heffect
    case isFalse hnew =>
      have harray : arrayOf (members ++ [a]) = .array (members.map Member.value ++ [a.value]) := by
        simp [arrayOf]
      rw [if_neg fun hany => hnew (any_alike_iff.mp hany), ← harray] at heffect
      exact yields_of_length (by simp) heffect
  | remove a =>
    have hfilter : (members.map Member.value).filter (!·.alike a.value) =
        (next members (remove a)).map Member.value := by
      simp [next, List.filter_map, Function.comp_def, Member.equiv_iff]
    have heffect : ((remove a).update f).change.effect f (some (arrayOf members)) =
        .ok (if ((members.map Member.value).filter (!·.alike a.value)).length =
            (members.map Member.value).length then .keep
          else .fill (.array ((members.map Member.value).filter (!·.alike a.value)))) := rfl
    rw [hfilter, List.length_map, List.length_map] at heffect
    by_cases hlength : (next members (remove a)).length = members.length
    · have hall : next members (remove a) = members := List.filter_sublist.eq_of_length hlength
      rw [if_pos hlength] at heffect
      rw [hall]
      exact .of_keep heffect
    · rw [if_neg hlength] at heffect
      exact yields_of_length (Ne.symm hlength) heffect

/-- **Updates one after the other**, from a document without the field. The first call that adds a
member makes the array, and before it there is nothing to remove. -/
theorem map_fst_foldlM_step (scope : Scope) (changed : Bool) (hkey : IsKey f)
    (hd : d.find? f = none) (calls : List SetCall) :
    ((calls.map (update f)).foldlM (Query.step scope) (.document d, changed)).map Prod.fst =
      .ok (.document (if ∃ c ∈ calls, c.added?.isSome then d.insert f (arrayOf (members calls))
        else d)) := by
  let run (members : List Member) (c : SetCall) : Except UpdateError (List Member) :=
    pure (next members c)
  have hrun (members : List Member) (c : SetCall) :
      (c.update f).Yields (some (arrayOf members)) ((run members c).map arrayOf) :=
    yields_update f members c
  induction calls with
  | nil => rfl
  | cons c calls ih =>
    cases c with
    | add a =>
      have hfirst : ((add a).update f).Yields (d.find? f) ((run [] (add a)).map arrayOf) :=
        hd ▸ yields_first f a
      rw [map_fst_foldlM_step_cons hkey (field_update f) hfirst fun members changed => ?_,
        List.foldlM_pure, if_pos ⟨add a, List.mem_cons_self, rfl⟩]
      · rfl
      · rw [Dossier.map_fst_foldlM_step hkey (field_update f) hrun
          (Entries.find?_insert_self d f (arrayOf members))]
        simp only [Entries.insert_insert]
    | remove a =>
      have hkeep : ((remove a).update f).change.effect f (d.find? f) = .ok .keep := by
        rw [hd]
        rfl
      have hadded : (remove a).added? = none := rfl
      have hmembers : members (remove a :: calls) = members calls := rfl
      rw [List.map_cons, List.foldlM_cons,
        Update.step_of_keep (u := (remove a).update f) hkey hkeep]
      simp only [List.exists_mem_cons_iff, hadded, Option.isSome_none, Bool.false_eq_true, false_or,
        hmembers]
      exact ih

end SetCall

/-! ## Edits of one field -/

namespace Query

variable {q : Query} {d : Document} {f : String} {calls : List SetCall}

/-- **Sets in arrays.** A query whose updates add and remove members of one field, which is not there
at first, succeeds and leaves an array of members, once there was one to add. No two of them are
equal, and the last call about a value decides whether it is among them. At any time, the members
that no later call removes stay in order, in front of those that later calls add. -/
theorem edit_set (hkey : IsKey f) (hd : d.find? f = none)
    (hq : q.updates = calls.map (SetCall.update f)) :
    let members := SetCall.members calls
    (∃ changed, q.edit d = .ok
      (if ∃ c ∈ calls, c.added?.isSome then d.insert f (SetCall.arrayOf members) else d,
        changed)) ∧
    members.Pairwise (¬ · ≈ ·) ∧
    (∀ a : Member, (∃ b ∈ members, b ≈ a) ↔
      ∃ e, (calls.filter fun c => c.operand ≈ a).getLast? = some (.add e)) ∧
    ∀ before after, calls = before ++ after → ∃ new, members =
        ((SetCall.members before).filter fun a => ∀ c ∈ after, ¬ c.Removes a) ++ new ∧
      new.Sublist (after.filterMap SetCall.added?) := by
  refine ⟨?_, SetCall.pairwise_members calls, SetCall.mem_members_iff calls, ?_⟩
  · have hrun := SetCall.map_fst_foldlM_step (q.scope d) false hkey hd calls
    rw [← hq] at hrun
    have hedit := map_fst_edit q d
    obtain ⟨⟨v, acted⟩, hfold, rfl⟩ := map_eq_ok.mp hrun
    rw [hfold] at hedit
    obtain ⟨⟨d', changed⟩, hedit, rfl⟩ := map_eq_ok.mp hedit
    exact ⟨changed, hedit⟩
  · rintro before after rfl
    exact SetCall.members_append before after

/-- A document of integers. -/
def ofIntegers (fields : List (String × Int32)) (h : (fields.map Prod.fst).Nodup) : Member where
  value := .document (fields.map fun field => (field.1, .int32 field.2))
  wellFormed := by
    refine Value.wellFormed_document.mpr ⟨?_, fun f hf => ?_⟩
    · simpa [Entries.Distinct, Entries.keys, Function.comp_def] using h
    · obtain ⟨field, -, rfl⟩ := List.mem_map.mp hf
      exact Value.wellFormed_of_isAtom rfl
  nanFree := by
    refine Value.everywhere_document.mpr ⟨trivial, fun f hf => ?_⟩
    obtain ⟨field, -, rfl⟩ := List.mem_map.mp hf
    exact trivial

/-- A box is removed through one with its keys in another order, which then takes the last place. -/
theorem edit_set_boxes :
    let flat := ofIntegers [("width", 3), ("height", 1)] (by decide)
    let turned := ofIntegers [("height", 1), ("width", 3)] (by decide)
    let cube := ofIntegers [("width", 2), ("height", 2)] (by decide)
    let calls : List SetCall :=
      [.remove flat, .add flat, .add cube, .add turned, .remove turned, .add turned]
    let d : Document := [("_id", .int32 1)]
    IsKey "boxes" ∧ d.find? "boxes" = none ∧
      (∃ changed, ({ updates := calls.map (SetCall.update "boxes") } : Query).edit d =
        .ok (d.insert "boxes" (.array [cube.value, turned.value]), changed)) ∧
      ∃ b ∈ SetCall.members calls, b ≈ flat := by
  intro flat turned cube calls d
  have hkey : IsKey "boxes" := rfl
  have hd : d.find? "boxes" = none := rfl
  obtain ⟨⟨changed, hedit⟩, -, hmem, -⟩ :=
    edit_set (q := { updates := calls.map (SetCall.update "boxes") }) hkey hd rfl
  exact ⟨hkey, hd, ⟨changed, hedit⟩, (hmem flat).mpr ⟨turned, rfl⟩⟩

end Query

end Dossier
