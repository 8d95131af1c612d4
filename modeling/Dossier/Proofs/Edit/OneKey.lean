import Mathlib
import Dossier.Proofs.Edit.Children
import Dossier.Proofs.Edit.OneByOne

/-!
# Updates of one key

Updates whose path is one plain key of the document act on the value under that key, one after the
other, and leave the rest of the document alone.

* `IsKey`: whether a path is one plain key;
* **`Update.Yields`**: what an update makes of the value under its key, and
  `Update.Yields.step`: what it makes of the document;
* **`Query.edit_of_find?`**, `Query.edit_of_first`: all updates of a query, as a fold over what is
  under the key.
-/

namespace Dossier

/-- Whether an update path is one plain key. -/
def IsKey (path : String) : Prop := Step.ofPath path = [.key path]

instance (path : String) : Decidable (IsKey path) := inferInstanceAs (Decidable (_ = _))

namespace Update

variable {u : Update} {child : Option Value} {result : Except UpdateError Value} {d : Document}

/-- Whether an update ends with a value under its key, or fails, when `child` is there before. -/
def Yields (u : Update) (child : Option Value) (result : Except UpdateError Value) : Prop :=
  (u.change.effect u.field child).map (fun effect => (effect.onChild child).1) = result.map some

theorem Yields.of_fill {v : Value} (heffect : u.change.effect u.field child = .ok (.fill v))
    (hsame : ∀ held, child = some held → held.same v = true → held = v) :
    u.Yields child (.ok v) := by
  rw [Yields, heffect]
  cases child with
  | none => rfl
  | some held =>
    simp only [Except.map, Effect.onChild, Option.any_some]
    split
    case isTrue h => rw [hsame held rfl h]
    case isFalse => rfl

theorem Yields.of_keep {held : Value} (heffect : u.change.effect u.field (some held) = .ok .keep) :
    u.Yields (some held) (.ok held) := by
  rw [Yields, heffect]
  rfl

theorem Yields.of_error {cause : UpdateError} (heffect : u.change.effect u.field child = .error cause) :
    u.Yields child (.error cause) := by
  rw [Yields, heffect]
  rfl

/-- **An update of a key** puts what it yields under the key, or fails with it. -/
theorem Yields.step (hkey : IsKey u.field) (h : u.Yields (d.find? u.field) result) (scope : Scope)
    (changed : Bool) :
    (Query.step scope (.document d, changed) u).map Prod.fst =
      result.map fun v => .document (d.insert u.field v) := by
  have hact : u.act (.document d) (.key u.field) =
      u.change.effect u.field (d.find? u.field) >>= (Value.document d).perform (.key u.field) := rfl
  rw [Query.step, apply_eq, hkey, Value.edit_last (Scope.slots_key_document _ _ _ _), hact]
  cases result with
  | error cause =>
    rw [map_eq_error.mp h]
    rfl
  | ok v =>
    obtain ⟨effect, heffect, hchild⟩ := map_eq_ok.mp h
    have hperform := Value.perform_document d u.field effect
    rw [hchild] at hperform
    rw [heffect]
    simp only [bind, Except.bind, hperform]
    rfl

theorem step_of_keep (hkey : IsKey u.field)
    (h : u.change.effect u.field (d.find? u.field) = .ok .keep) (scope : Scope) (changed : Bool) :
    Query.step scope (.document d, changed) u = .ok (.document d, changed) := by
  have hact : u.act (.document d) (.key u.field) = .ok (.document d, false) := by
    rw [Update.act, Value.inSlot?, h]
    rfl
  rw [Query.step, apply_eq, hkey, Value.edit_last (Scope.slots_key_document _ _ _ _), hact]
  exact congrArg (fun acted => Except.ok (Value.document d, acted)) (Bool.or_false changed)

end Update

/-! ## Updates one after the other -/

section Run

variable {α τ : Type} {f : String} {u : τ → Update} {enc : α → Value}
  {next : α → τ → Except UpdateError α} {ts : List τ} {t : τ} {a : α} {d : Document}
  {scope : Scope} {changed : Bool}

theorem map_fst_foldlM_step_cons (hkey : IsKey f) (hu : ∀ t, (u t).field = f)
    (hfirst : (u t).Yields (d.find? f) ((next a t).map enc))
    (hrest : ∀ b changed, ((ts.map u).foldlM (Query.step scope)
        (.document (d.insert f (enc b)), changed)).map Prod.fst =
      (ts.foldlM next b).map fun c => .document (d.insert f (enc c))) :
    (((t :: ts).map u).foldlM (Query.step scope) (.document d, changed)).map Prod.fst =
      ((t :: ts).foldlM next a).map fun c => .document (d.insert f (enc c)) := by
  have hstep := Update.Yields.step (d := d) (u := u t) (by rwa [hu]) (by rwa [hu]) scope changed
  rw [hu] at hstep
  rw [List.map_cons, List.foldlM_cons, List.foldlM_cons]
  cases hb : next a t with
  | error cause =>
    rw [hb] at hstep
    rw [map_eq_error.mp hstep]
    rfl
  | ok b =>
    rw [hb] at hstep
    obtain ⟨⟨v, acted⟩, hs, rfl⟩ := map_eq_ok.mp hstep
    rw [hs]
    exact hrest b acted

/-- **Updates of a key that holds `a`** run as `next` does from `a`, if each of them does. -/
theorem map_fst_foldlM_step (hkey : IsKey f) (hu : ∀ t, (u t).field = f)
    (hnext : ∀ a t, (u t).Yields (some (enc a)) ((next a t).map enc))
    (hd : d.find? f = some (enc a)) :
    ((ts.map u).foldlM (Query.step scope) (.document d, changed)).map Prod.fst =
      (ts.foldlM next a).map fun b => .document (d.insert f (enc b)) := by
  induction ts generalizing a d changed with
  | nil => exact congrArg (fun d => Except.ok (Value.document d)) (Entries.insert_of_find? hd).symm
  | cons t ts ih =>
    refine map_fst_foldlM_step_cons hkey hu (hd ▸ hnext a t) fun b changed => ?_
    rw [ih (Entries.find?_insert_self d f (enc b))]
    simp only [Entries.insert_insert]

namespace Query

variable {q : Query}

theorem map_fst_edit_of_foldlM {run : Except UpdateError α}
    (h : (q.updates.foldlM (step (q.scope d)) (.document d, false)).map Prod.fst =
      run.map fun b => .document (d.insert f (enc b))) :
    (q.edit d).map Prod.fst = run.map fun b => d.insert f (enc b) := by
  rw [map_fst_edit]
  cases run with
  | error cause =>
    rw [map_eq_error.mp h]
    rfl
  | ok b =>
    obtain ⟨⟨v, acted⟩, hrun, rfl⟩ := map_eq_ok.mp h
    rw [hrun]
    rfl

/-- **A query that updates one key**, which holds `a`, runs as `next` does from `a`. -/
theorem edit_of_find? (hkey : IsKey f) (hu : ∀ t, (u t).field = f) (hq : q.updates = ts.map u)
    (hnext : ∀ a t, (u t).Yields (some (enc a)) ((next a t).map enc))
    (hd : d.find? f = some (enc a)) :
    (q.edit d).map Prod.fst = (ts.foldlM next a).map fun b => d.insert f (enc b) :=
  map_fst_edit_of_foldlM (hq ▸ map_fst_foldlM_step hkey hu hnext hd)

/-- The same for a key that holds anything or nothing, if the first update acts as on `a`. -/
theorem edit_of_first (hkey : IsKey f) (hu : ∀ t, (u t).field = f)
    (hq : q.updates = (t :: ts).map u)
    (hnext : ∀ a t, (u t).Yields (some (enc a)) ((next a t).map enc))
    (hfirst : (u t).Yields (d.find? f) ((next a t).map enc)) :
    (q.edit d).map Prod.fst = ((t :: ts).foldlM next a).map fun b => d.insert f (enc b) := by
  refine map_fst_edit_of_foldlM (hq ▸ map_fst_foldlM_step_cons hkey hu hfirst fun b changed => ?_)
  rw [map_fst_foldlM_step hkey hu hnext (Entries.find?_insert_self d f (enc b))]
  simp only [Entries.insert_insert]

end Query

end Run

end Dossier
