import Dossier.Proofs.Edit.Path

/-!
# Updates seen from the keys of a document

Along keys, an update of a document changes what is under the first key of its path and nothing
else. Updates of a document are therefore, for every key, updates of what is under that key.

* **`runActs`**: acts that can fail, one after the other;
* **`Pending.follow`**, `Pending.onChild`: an update with the rest of its path, on a value, and on
  what may be under a key; `Pending.follow_document` relates the two;
* `Pending.follow_of_not_document`: other values stay as they are, or the update fails;
* **`Pending.runActs_document`**: updates of a document succeed just when those under every key do,
  and give what those give.
-/

namespace Dossier

/-! ## Acts one after the other -/

/-- Acts one after the other, as long as none fails, and whether one of them made a difference. -/
def runActs {τ σ : Type} (act : τ → σ → Option (σ × Bool)) : List τ → σ → Option (σ × Bool)
  | [], s => some (s, false)
  | t :: rest, s =>
    (act t s).bind fun first =>
      (runActs act rest first.1).map fun last => (last.1, first.2 || last.2)

section RunActs

variable {τ σ : Type} {act : τ → σ → Option (σ × Bool)} {t : τ} {ts : List τ} {s s' : σ}
  {acted : Bool}

theorem runActs_cons_of_none (h : act t s = none) : runActs act (t :: ts) s = none := by
  rw [runActs, h, Option.bind_none]

theorem runActs_cons_of_some (h : act t s = some (s', acted)) :
    runActs act (t :: ts) s = (runActs act ts s').map fun last => (last.1, acted || last.2) := by
  rw [runActs, h, Option.bind_some]

theorem runActs_cons_of_keeps (h : act t s = some (s, false)) :
    runActs act (t :: ts) s = runActs act ts s := by
  rw [runActs_cons_of_some h]
  cases runActs act ts s <;> rfl

theorem runActs_of_idle (h : ∀ t ∈ ts, act t s = none ∨ act t s = some (s, false)) :
    runActs act ts s = if ts.all fun t => (act t s).isSome then some (s, false) else none := by
  induction ts with
  | nil => rfl
  | cons t ts ih =>
    rw [List.forall_mem_cons] at h
    obtain ht | ht := h.1
    · rw [runActs_cons_of_none ht, List.all_cons, ht]
      rfl
    · rw [runActs_cons_of_keeps ht, ih h.2, List.all_cons, ht]
      rfl

end RunActs

/-! ## Under a key -/

/-- The document with something under a key, or with nothing there. -/
def setChild (fields : Document) (k : String) : Option Value → Document
  | some v => fields.insert k v
  | none => fields.erase k

section SetChild

variable {fields : Document}

theorem setChild_find? (fields : Document) (k : String) :
    setChild fields k (fields.find? k) = fields := by
  cases h : fields.find? k with
  | some v => exact Entries.insert_of_find? h
  | none => exact Entries.erase_of_find?_eq_none h

theorem find?_setChild_self (h : fields.Distinct) (k : String) (child : Option Value) :
    (setChild fields k child).find? k = child := by
  cases child with
  | some v => exact Entries.find?_insert_self fields k v
  | none => exact Entries.find?_erase_self h k

theorem find?_setChild_of_ne {k l : String} (h : k ≠ l) (child : Option Value) :
    (setChild fields k child).find? l = fields.find? l := by
  cases child with
  | some v => exact Entries.find?_insert_of_ne fields h v
  | none => exact Entries.find?_erase_of_ne fields h

theorem distinct_setChild (h : fields.Distinct) (k : String) (child : Option Value) :
    (setChild fields k child).Distinct := by
  cases child with
  | some v => exact Entries.distinct_insert h k v
  | none => exact Entries.distinct_erase h k

end SetChild

/-- An effect on what may be under a key. -/
def Effect.onChild (child : Option Value) : Effect → Option Value × Bool
  | .keep => (child, false)
  | .clear => (none, child.isSome)
  | .fill new => if child.any (·.same new) then (child, false) else (some new, true)

theorem Value.perform_document (fields : Document) (k : String) (effect : Effect) :
    (document fields).perform (.key k) effect =
      .ok (document (setChild fields k (effect.onChild (fields.find? k)).1),
        (effect.onChild (fields.find? k)).2) := by
  cases effect with
  | keep => rw [perform, Effect.onChild, setChild_find?]
  | clear => rfl
  | fill new =>
    have hholds : (Slot.key k).holds (document fields) new =
      (fields.find? k).any (·.same new) := rfl
    rw [perform, Effect.onChild, hholds]
    split
    · rw [setChild_find?]
    · rfl

/-- What an update does to what may be under the last key of its path. -/
def Update.onLeaf (u : Update) (child : Option Value) : Option (Option Value × Bool) :=
  (u.change.effect u.field child).toOption.map (Effect.onChild child)

theorem Update.act_document (u : Update) (fields : Document) (k : String) :
    (u.act (.document fields) (.key k)).toOption =
      (u.onLeaf (fields.find? k)).map fun r => (.document (setChild fields k r.1), r.2) := by
  have hact : u.act (.document fields) (.key k) =
      u.change.effect u.field (fields.find? k) >>= (Value.document fields).perform (.key k) := rfl
  rw [hact, onLeaf]
  cases u.change.effect u.field (fields.find? k) with
  | error cause => rfl
  | ok effect => exact congrArg Except.toOption (Value.perform_document fields k effect)

/-- An update on its way: the keys that its path has left. -/
structure Pending where
  keys : Path
  update : Update

namespace Pending

/-- What an update on its way does to a value at `path`. -/
def follow (scope : Scope) (path : Path) (p : Pending) (v : Value) : Option (Value × Bool) :=
  (v.edit scope p.update.change.creates p.update.act (p.keys.map .key) path).toOption

/-- A result as that of what is under a key. -/
def present (r : Value × Bool) : Option Value × Bool := (some r.1, r.2)

/-- What an update on its way does to what may be under a key, at `path`. -/
def onChild (scope : Scope) (path : Path) (p : Pending) (child : Option Value) :
    Option (Option Value × Bool) :=
  if p.keys = [] then p.update.onLeaf child
  else match child with
    | some v => (p.follow scope path v).map present
    | none =>
      if p.update.change.creates then (p.follow scope path (.document [])).map present
      else some (none, false)

/-- The update after a key, if that is the next one. -/
def after? (k : String) (p : Pending) : Option Pending :=
  match p.keys with
  | [] => none
  | l :: rest => if l = k then some ⟨rest, p.update⟩ else none

variable (scope : Scope) (path : Path)

theorem onChild_last (u : Update) (child : Option Value) :
    onChild scope path ⟨[], u⟩ child = u.onLeaf child := rfl

theorem onChild_some {p : Pending} (hp : p.keys ≠ []) (v : Value) :
    p.onChild scope path (some v) = (p.follow scope path v).map present := by
  rw [onChild, if_neg hp]

theorem onChild_none_of_creates {p : Pending} (hp : p.keys ≠ [])
    (hcreates : p.update.change.creates = true) :
    p.onChild scope path none = (p.follow scope path (.document [])).map present := by
  rw [onChild, if_neg hp]
  exact if_pos hcreates

theorem onChild_none_of_not_creates {p : Pending} (hp : p.keys ≠ [])
    (hcreates : p.update.change.creates = false) :
    p.onChild scope path none = some (none, false) := by
  rw [onChild, if_neg hp]
  exact if_neg (by rw [hcreates]; exact Bool.false_ne_true)

theorem follow_document_of_enter? {k : String} {rest : Path} {u : Update} {fields : Document}
    {v : Value} (hrest : rest ≠ [])
    (henter : (Value.document fields).enter? u.change.creates (.key k) = .ok (some v)) :
    follow scope path ⟨k :: rest, u⟩ (.document fields) =
      ((follow scope (path ++ [k]) ⟨rest, u⟩ v).map present).map fun r =>
        (.document (setChild fields k r.1), r.2) := by
  have hkeys : rest.map Step.key ≠ [] := fun h => hrest (List.map_eq_nil_iff.mp h)
  unfold follow
  rw [List.map_cons, Value.edit_cons (Scope.slots_key_document _ _ _ _) hkeys, henter]
  simp only [bind, Except.bind, Slot.segment]
  cases v.edit scope u.change.creates u.act (rest.map .key) (path ++ [k]) <;> rfl

/-- **On a document**, an update is one of what is under its next key. -/
theorem follow_document (k : String) (rest : Path) (u : Update) (fields : Document) :
    follow scope path ⟨k :: rest, u⟩ (.document fields) =
      (onChild scope (path ++ [k]) ⟨rest, u⟩ (fields.find? k)).map fun r =>
        (.document (setChild fields k r.1), r.2) := by
  by_cases hrest : rest = []
  · subst hrest
    rw [onChild_last, ← Update.act_document, follow, List.map_cons, List.map_nil,
      Value.edit_last (Scope.slots_key_document _ _ _ _)]
  cases hchild : fields.find? k with
  | some v =>
    have henter : (Value.document fields).enter? u.change.creates (.key k) = .ok (some v) := by
      rw [Value.enter?, hchild]
    rw [follow_document_of_enter? scope path hrest henter, onChild_some scope _ hrest]
  | none =>
    cases hcreates : u.change.creates with
    | true =>
      have henter : (Value.document fields).enter? u.change.creates (.key k) =
          .ok (some (.document [])) := by
        rw [Value.enter?, hchild, hcreates]
        rfl
      rw [follow_document_of_enter? scope path hrest henter,
        onChild_none_of_creates scope _ hrest hcreates]
    | false =>
      have henter : (Value.document fields).enter? u.change.creates (.key k) = .ok none := by
        rw [Value.enter?, hchild, hcreates]
        rfl
      have hkeys : rest.map Step.key ≠ [] := fun h => hrest (List.map_eq_nil_iff.mp h)
      rw [onChild_none_of_not_creates scope _ hrest hcreates, follow, List.map_cons,
        Value.edit_cons (Scope.slots_key_document _ _ _ _) hkeys, henter, Option.map_some, setChild,
        Entries.erase_of_find?_eq_none hchild]
      rfl

omit scope path in
theorem eq_of_act_of_not_document {u : Update} {k : String} {v w : Value} {changed : Bool}
    (hv : v.fields? = none) (h : u.act v (.key k) = .ok (w, changed)) :
    w = v ∧ changed = false := by
  obtain ⟨effect, -, h⟩ := bind_eq_ok.mp h
  cases effect with
  | keep =>
    cases h
    exact ⟨rfl, rfl⟩
  | clear =>
    have hclear : v.clear (.key k) = (v, false) := by
      cases v <;> first | rfl | cases hv
    rw [Value.perform, hclear] at h
    cases h
    exact ⟨rfl, rfl⟩
  | fill new =>
    have hholds : (Slot.key k).holds v new = false := by
      cases v <;> first | rfl | cases hv
    have hput : v.put (.key k) new = .error (.unassignable v.kind) := by
      cases v <;> first | rfl | cases hv
    rw [Value.perform, hholds, hput] at h
    cases h

/-- **Other values** stay as they are, or the update fails. -/
theorem follow_of_not_document {p : Pending} (hp : p.keys ≠ [])
    (hindex : ∀ key ∈ p.keys, Numeral.index? key = none) {v : Value} (hv : v.fields? = none) :
    p.follow scope path v = none ∨ p.follow scope path v = some (v, false) := by
  obtain ⟨_ | ⟨k, rest⟩, u⟩ := p
  · exact absurd rfl hp
  unfold follow
  cases hedit : v.edit scope u.change.creates u.act ((k :: rest).map .key) path with
  | error cause => exact .inl rfl
  | ok r =>
    obtain ⟨w, changed⟩ := r
    rw [List.map_cons] at hedit
    obtain ⟨slot, rfl | ⟨items, i, rfl, rfl⟩, hcases⟩ := Value.edit_key_cases hedit
    · have henter : v.enter? u.change.creates (.key k) = .error (.impassable v.kind) := by
        cases v <;> first | rfl | cases hv
      rw [henter] at hcases
      obtain ⟨-, hact⟩ | ⟨-, h, -⟩ | ⟨child, child', -, h, -⟩ := hcases
      · obtain ⟨rfl, rfl⟩ := eq_of_act_of_not_document hv hact
        exact .inr rfl
      · cases h
      · cases h
    · -- A key that is no position names no slot of an array.
      rw [Value.edit, Scope.slots, hindex k List.mem_cons_self] at hedit
      cases hedit

/-- The updates after a key. -/
def after (k : String) (ps : List Pending) : List Pending := ps.filterMap (after? k)

theorem after_cons_self (k : String) (rest : Path) (u : Update) (ps : List Pending) :
    after k (⟨k :: rest, u⟩ :: ps) = ⟨rest, u⟩ :: after k ps := by
  simp [after, after?]

theorem after_cons_of_ne {k l : String} (h : l ≠ k) (rest : Path) (u : Update)
    (ps : List Pending) : after k (⟨l :: rest, u⟩ :: ps) = after k ps := by
  simp [after, after?, h]

/-- **Updates of a document are updates under every key.** They succeed just when those under every
key do; then every key has what those give, and something is different when it is under some key. -/
theorem runActs_document {ps : List Pending} (hps : ∀ p ∈ ps, p.keys ≠ []) {fields : Document}
    (hd : fields.Distinct) :
    (∃ (fields' : Document) (changed : Bool) (flags : String → Bool),
      runActs (follow scope path) ps (.document fields) = some (.document fields', changed) ∧
      fields'.Distinct ∧
      (∀ k, runActs (onChild scope (path ++ [k])) (after k ps) (fields.find? k) =
        some (fields'.find? k, flags k)) ∧
      (changed = true ↔ ∃ k, flags k = true)) ∨
    (runActs (follow scope path) ps (.document fields) = none ∧
      ∃ k, runActs (onChild scope (path ++ [k])) (after k ps) (fields.find? k) = none) := by
  induction ps generalizing fields with
  | nil => exact .inl ⟨fields, false, fun _ => false, rfl, hd, fun k => rfl, by simp⟩
  | cons p ps ih =>
    obtain ⟨_ | ⟨l, rest⟩, u⟩ := p
    · exact absurd rfl (hps _ List.mem_cons_self)
    have hfollow := follow_document scope path l rest u fields
    cases hchild : onChild scope (path ++ [l]) ⟨rest, u⟩ (fields.find? l) with
    | none =>
      rw [hchild] at hfollow
      refine .inr ⟨runActs_cons_of_none hfollow, l, ?_⟩
      rw [after_cons_self]
      exact runActs_cons_of_none hchild
    | some r =>
      obtain ⟨child, acted⟩ := r
      rw [hchild] at hfollow
      rw [runActs_cons_of_some hfollow]
      -- The first update shows under its own key and under no other.
      have hself : ∀ k, k = l → runActs (onChild scope (path ++ [k]))
          (after k (⟨l :: rest, u⟩ :: ps)) (fields.find? k) =
            (runActs (onChild scope (path ++ [k])) (after k ps)
              ((setChild fields l child).find? k)).map fun last => (last.1, acted || last.2) := by
        rintro k rfl
        rw [after_cons_self, runActs_cons_of_some hchild, find?_setChild_self hd]
      have hother : ∀ k, k ≠ l → runActs (onChild scope (path ++ [k]))
          (after k (⟨l :: rest, u⟩ :: ps)) (fields.find? k) =
            runActs (onChild scope (path ++ [k])) (after k ps)
              ((setChild fields l child).find? k) := by
        intro k hk
        rw [after_cons_of_ne hk.symm, find?_setChild_of_ne hk.symm]
      have hrest : ∀ p ∈ ps, p.keys ≠ [] := fun p hp => hps p (List.mem_cons_of_mem _ hp)
      obtain ⟨fields', changed, flags, hrun, hd', hkeys, hchanged⟩ | ⟨hrun, k, hk⟩ :=
        ih hrest (distinct_setChild hd l child)
      · rw [hrun]
        refine .inl ⟨fields', acted || changed, fun k => acted && k == l || flags k, rfl, hd', ?_, ?_⟩
        · intro k
          by_cases hkl : k = l
          · rw [hself k hkl, hkeys k]
            simp [hkl]
          · rw [hother k hkl, hkeys k]
            simp [hkl]
        · rw [Bool.or_eq_true, hchanged]
          constructor
          · rintro (hacted | ⟨k, hflag⟩)
            · exact ⟨l, by simp [hacted]⟩
            · exact ⟨k, by simp [hflag]⟩
          · rintro ⟨k, hflag⟩
            rw [Bool.or_eq_true, Bool.and_eq_true] at hflag
            exact hflag.imp And.left fun hk => ⟨k, hk⟩
      · rw [hrun]
        refine .inr ⟨rfl, k, ?_⟩
        by_cases hkl : k = l
        · rw [hself k hkl, hk]
          rfl
        · rw [hother k hkl, hk]

end Pending

end Dossier
