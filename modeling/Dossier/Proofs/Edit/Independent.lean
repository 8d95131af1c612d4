import Mathlib
import Dossier.Proofs.Edit.Flag
import Dossier.Proofs.Edit.Reordered

/-!
# Flags of independent updates

Updates on paths apart do not undo one another, so that the flag of a query of such updates tells
whether the document differs in the end.

* `ChildTold`: a flag is true of a change of what may be under a key;
* **`Pending.told_runActs`**: updates apart tell the truth together, by induction on the length of
  their paths;
* **`Query.Independent`**, **`Query.Tells`**, `Query.tells_edit`: what the flag of a query tells.
-/

namespace Dossier

theorem runActs_singleton {τ σ : Type} (act : τ → σ → Option (σ × Bool)) (t : τ) (s : σ) :
    runActs act [t] s = act t s := by
  cases h : act t s with
  | none => exact runActs_cons_of_none h
  | some r =>
    rw [runActs_cons_of_some h, runActs, Option.map_some, Bool.or_false]

theorem runActs_kept {τ σ : Type} {act : τ → σ → Option (σ × Bool)} {ts : List τ} {s : σ}
    {r : σ × Bool} (hact : ∀ t s r, act t s = some r → r.2 = false → r.1 = s)
    (h : runActs act ts s = some r) (hr : r.2 = false) : r.1 = s := by
  induction ts generalizing s r with
  | nil =>
    cases h
    rfl
  | cons t ts ih =>
    obtain ⟨first, hfirst, h⟩ := Option.bind_eq_some_iff.mp h
    obtain ⟨last, hlast, rfl⟩ := Option.map_eq_some_iff.mp h
    obtain ⟨hf, hl⟩ := Bool.or_eq_false_iff.mp hr
    rw [ih hlast hl, hact t s first hfirst hf]

/-! ## Under a key -/

/-- Whether a flag is true of a change of what may be under a key. -/
structure ChildTold (child : Option Value) (r : Option Value × Bool) : Prop where
  kept : r.2 = false → r.1 = child
  differs : r.2 = true → ¬ Option.Rel (fun v w => v.same w = true) child r.1

theorem ChildTold.unchanged (child : Option Value) : ChildTold child (child, false) :=
  ⟨fun _ => rfl, nofun⟩

theorem ChildTold.of_told {v : Value} {r : Value × Bool} (h : v.Told r) :
    ChildTold (some v) (Pending.present r) where
  kept hr := congrArg some (h.kept hr)
  differs hr := by
    rintro ⟨hsame⟩
    rw [h.differs hr] at hsame
    cases hsame

theorem ChildTold.of_new {w : Value} : ChildTold none (some w, true) := ⟨nofun, fun _ => nofun⟩

theorem Effect.told_onChild (child : Option Value) (effect : Effect) :
    ChildTold child (effect.onChild child) := by
  cases effect with
  | keep => exact .unchanged child
  | clear =>
    cases child with
    | none => exact .unchanged none
    | some v => exact ⟨nofun, fun _ => nofun⟩
  | fill new =>
    rw [onChild]
    split
    · exact .unchanged child
    · rename_i hany
      cases child with
      | none => exact .of_new
      | some v =>
        refine ⟨fun hflag => (by cases hflag), fun _ => ?_⟩
        rintro ⟨hsame⟩
        exact hany hsame

namespace Pending

variable {ps : List Pending} {scope : Scope} {path : Path}

theorem told_follow {p : Pending} {v : Value} {r : Value × Bool}
    (h : p.follow scope path v = some r) : v.Told r := by
  unfold follow at h
  cases hedit : v.edit scope p.update.change.creates p.update.act (p.keys.map .key) path with
  | error cause => rw [hedit] at h; cases h
  | ok edited =>
    rw [hedit] at h
    cases h
    exact Value.told_edit p.update.honest_act Update.fills_act hedit

theorem flag_follow_empty {p : Pending} (hp : p.keys ≠ [])
    (hcreates : p.update.change.creates = true) {r : Value × Bool}
    (h : p.follow scope path (.document []) = some r) : r.2 = true := by
  unfold follow at h
  rw [hcreates] at h
  cases hedit : (Value.document []).edit scope true p.update.act (p.keys.map .key) path with
  | error cause => rw [hedit] at h; cases h
  | ok edited =>
    rw [hedit] at h
    cases h
    exact Value.edit_empty (Update.fills_act hcreates) (by simpa using hp) hedit

theorem flag_runActs_of_creates (hps : ∀ p ∈ ps, p.keys ≠ [])
    (hcreates : ∃ p ∈ ps, p.update.change.creates = true) {r : Value × Bool}
    (h : runActs (follow scope path) ps (.document []) = some r) : r.2 = true := by
  induction ps generalizing r with
  | nil =>
    obtain ⟨p, hp, -⟩ := hcreates
    exact absurd hp List.not_mem_nil
  | cons p ps ih =>
    rw [List.forall_mem_cons] at hps
    obtain ⟨⟨w, acted⟩, hfirst, h⟩ := Option.bind_eq_some_iff.mp h
    obtain ⟨last, hlast, rfl⟩ := Option.map_eq_some_iff.mp h
    cases acted with
    | true => rw [Bool.true_or]
    | false =>
      -- So far the document is empty, and the update that makes documents is still to come.
      obtain rfl : w = .document [] := (told_follow hfirst).kept rfl
      obtain ⟨q, hq, hqc⟩ := hcreates
      obtain rfl | hq := List.mem_cons.mp hq
      · have hflag := flag_follow_empty hps.1 hqc hfirst
        cases hflag
      · rw [Bool.false_or]
        exact ih hps.2 ⟨q, hq, hqc⟩ hlast

theorem told_runActs_onChild (h : Orderly ps)
    (hvalue : (∀ p ∈ ps, p.keys ≠ []) → ∀ (v : Value) (r : Value × Bool), v.WellFormed →
      runActs (follow scope path) ps v = some r → v.Told r)
    {child : Option Value} (hchild : ∀ v, child = some v → v.WellFormed) {r : Option Value × Bool}
    (hr : runActs (onChild scope path) ps child = some r) : ChildTold child r := by
  -- An update that ends here may do anything, but then it is the only one.
  by_cases hlast : ∃ p ∈ ps, p.keys = []
  · obtain ⟨p, hmem, hkeys⟩ := hlast
    rw [h.eq_singleton hmem hkeys, runActs_singleton] at hr
    obtain ⟨keys, u⟩ := p
    obtain rfl : keys = [] := hkeys
    rw [onChild_last, Update.onLeaf] at hr
    obtain ⟨effect, -, rfl⟩ := Option.map_eq_some_iff.mp hr
    exact effect.told_onChild child
  have hps : ∀ p ∈ ps, p.keys ≠ [] := fun p hmem hkeys => hlast ⟨p, hmem, hkeys⟩
  cases child with
  | some v =>
    rw [runActs_onChild_some hps] at hr
    obtain ⟨last, hlast, rfl⟩ := Option.map_eq_some_iff.mp hr
    exact .of_told (hvalue hps v last (hchild v rfl) hlast)
  | none =>
    by_cases hcreates : ∃ p ∈ ps, p.update.change.creates = true
    · rw [runActs_onChild_none_of_creates hps hcreates] at hr
      obtain ⟨last, hlast, rfl⟩ := Option.map_eq_some_iff.mp hr
      have hflag := flag_runActs_of_creates hps hcreates hlast
      rw [present, hflag]
      exact .of_new
    · have hnone : ∀ p ∈ ps, p.update.change.creates = false :=
        fun p hmem => Bool.eq_false_iff.mpr fun hp' => hcreates ⟨p, hmem, hp'⟩
      rw [runActs_onChild_none_of_not_creates hps hnone] at hr
      cases hr
      exact .unchanged none

/-! ## Values -/

/-- **Updates apart from one another tell the truth together.** -/
theorem told_runActs (n : Nat) (h : Orderly ps) (hps : ∀ p ∈ ps, p.keys ≠ [])
    (hn : ∀ p ∈ ps, p.keys.length ≤ n) {v : Value} (hv : v.WellFormed) {r : Value × Bool}
    (hr : runActs (follow scope path) ps v = some r) : v.Told r := by
  -- The induction is on the longest path: what is under a key sees paths shorter by that key.
  induction n generalizing ps path v r with
  | zero =>
    have hnil : ps = [] := by
      refine List.eq_nil_iff_forall_not_mem.mpr fun p hmem => hps p hmem ?_
      exact List.length_eq_zero_iff.mp (Nat.le_zero.mp (hn p hmem))
    subst hnil
    cases hr
    exact .unchanged v
  | succ n ih =>
    have hkept : r.2 = false → r.1 = v := runActs_kept (fun p s r hf => (told_follow hf).kept) hr
    cases hfields : v.fields? with
    | none =>
      have hidle : ∀ p ∈ ps, p.follow scope path v = none ∨ p.follow scope path v = some (v, false) :=
        fun p hmem => follow_of_not_document scope path (hps p hmem) (h.index p hmem) hfields
      rw [runActs_of_idle hidle] at hr
      split at hr
      · cases hr
        exact .unchanged v
      · cases hr
    | some fields =>
      obtain rfl : v = .document fields := by
        cases v <;> cases hfields
        rfl
      obtain ⟨hd, hchildren⟩ := Value.wellFormed_document.mp hv
      refine ⟨hkept, fun hflag => ?_⟩
      obtain ⟨fields', changed, flags, hrun, -, hkeys, hchanged⟩ | ⟨hrun, -⟩ :=
        runActs_document scope path hps hd
      case inr => rw [hrun] at hr; cases hr
      rw [hrun] at hr
      cases hr
      obtain ⟨k, hk⟩ := hchanged.mp hflag
      have hlength : ∀ p ∈ after k ps, p.keys.length ≤ n :=
        fun p hmem => Nat.le_of_succ_le_succ (hn _ (mem_after.mp hmem))
      have htold := told_runActs_onChild (h.after k)
        (fun hne w s hw hs => ih (h.after k) hne hlength hw hs)
        (fun w hw => hchildren _ (Entries.mem_of_find? hw)) (hkeys k)
      rw [Bool.eq_false_iff]
      exact fun hsame => htold.differs hk (Value.rel_find?_of_same hd hsame k)

end Pending

/-! ## Queries -/

namespace Query

/-- Whether no update of a query can undo another: there is at most one, or they are on paths apart,
of keys that are no positions. -/
def Independent (q : Query) : Prop :=
  q.updates.length ≤ 1 ∨
    (∀ u ∈ q.updates, Path.Plain (Dotted.segments u.field) ∧
      ∀ key ∈ Dotted.segments u.field, Numeral.index? key = none) ∧
    PathsApart (q.updates.map Update.field)

instance (q : Query) : Decidable q.Independent := inferInstanceAs (Decidable (_ ∨ _ ∧ _))

/-- What the flag of a query tells of an edit: it is set just when the document differed on the way,
and for independent updates just when it differs in the end. Without it the document is as it was. -/
structure Tells (q : Query) (d d' : Document) (changed : Bool) : Prop where
  departs : changed = true ↔ q.Departs d
  kept : changed = false → d' = d
  exact : q.Independent → (changed = true ↔ d.same d' = false)

variable {q : Query} {d d' : Document} {changed : Bool}

theorem told_of_length_le_one (hq : q.updates.length ≤ 1) (h : q.edit d = .ok (d', changed)) :
    (Value.document d).Told (.document d', changed) := by
  have hrun := edit_eq_ok.mp h
  cases hus : q.updates with
  | nil =>
    rw [hus] at hrun
    cases hrun
    exact .unchanged _
  | cons u rest =>
    obtain rfl : rest = [] := by
      rw [hus, List.length_cons] at hq
      exact List.length_eq_zero_iff.mp (Nat.le_zero.mp (Nat.le_of_succ_le_succ hq))
    rw [hus, List.foldlM_cons] at hrun
    obtain ⟨next, hnext, hrun⟩ := bind_eq_ok.mp hrun
    obtain ⟨applied, happly, hnext⟩ := bind_eq_ok.mp hnext
    cases hnext
    obtain ⟨w, acted⟩ := applied
    cases hrun
    rw [Bool.false_or]
    exact Update.told_apply happly

theorem told_of_apart (hplain : ∀ u ∈ q.updates, Path.Plain (Dotted.segments u.field))
    (hindex : ∀ u ∈ q.updates, ∀ key ∈ Dotted.segments u.field, Numeral.index? key = none)
    (hapart : PathsApart (q.updates.map Update.field)) (hd : d.WellFormed)
    (h : q.edit d = .ok (d', changed)) : (Value.document d).Told (.document d', changed) := by
  have hrun := toOption_foldlM_step hplain (q.scope d) (.document d) false
  rw [edit_eq_ok.mp h] at hrun
  obtain ⟨r, hr, hrun⟩ := Option.map_eq_some_iff.mp hrun.symm
  obtain ⟨n, hn⟩ := Pending.exists_length_le (q.updates.map Update.pending)
  have htold := Pending.told_runActs n (orderly_pending hindex hapart)
    Update.keys_pending_ne_nil hn hd hr
  simp only [Bool.false_or] at hrun
  rwa [← hrun]

/-- **What the flag of a query tells.** -/
theorem tells_edit (hw : d.WellFormed) (hn : (Value.document d).NaNFree)
    (h : q.edit d = .ok (d', changed)) : q.Tells d d' changed := by
  have hkept : changed = false → d' = d := by
    rintro rfl
    exact eq_of_edit_unchanged h
  refine ⟨edit_changed_iff hw hn h, hkept, fun hq => ⟨?_, fun hdiffers => ?_⟩⟩
  · obtain hq | ⟨hkeys, hapart⟩ := hq
    · exact (told_of_length_le_one hq h).differs
    · exact (told_of_apart (fun u hu => (hkeys u hu).1) (fun u hu => (hkeys u hu).2) hapart hw
        h).differs
  · by_contra hchanged
    rw [hkept (Bool.eq_false_iff.mpr hchanged), Document.same, Value.same_self hw hn] at hdiffers
    cases hdiffers

end Query

end Dossier
