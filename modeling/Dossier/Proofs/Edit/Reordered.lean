import Dossier.Proofs.Edit.Children
import Dossier.Proofs.Edit.Described
import Dossier.Proofs.Mongo.Update

/-!
# Updates in another order

Updates on paths apart do not meet, so that their order only shows in the order of the keys that
they make.

* **`Value.Reordered`**: values that are identical up to the order of keys;
* `Pending.Orderly`: updates on their way apart from one another;
* **`Pending.runActs_perm`**: they agree in every order, by induction on the length of the paths: on a
  document under every key, elsewhere because no update does anything;
* **`Query.edit_perm`**: the updates of a query agree in every order, that of an update document
  included.
-/

namespace Dossier

/-- Whether two values are identical up to the order of the keys of documents. -/
inductive Value.Reordered : Value → Value → Prop
  | refl (v : Value) : Reordered v v
  | document {fields fields' : Document} : fields.Distinct → fields'.Distinct →
      (∀ k, Option.Rel Reordered (fields.find? k) (fields'.find? k)) →
      Reordered (.document fields) (.document fields')

/-- Whether two documents are identical up to the order of keys. -/
def Document.Reordered (d d' : Document) : Prop := (Value.document d).Reordered (.document d')

/-- Whether two results agree: both failed, or both gave what is related, with the same flag. -/
abbrev Agree {σ : Type} (r : σ → σ → Prop) : Option (σ × Bool) → Option (σ × Bool) → Prop :=
  Option.Rel fun x y => r x.1 y.1 ∧ x.2 = y.2

namespace Agree

variable {σ τ : Type} {r : σ → σ → Prop}

theorem refl (h : ∀ s, r s s) (x : Option (σ × Bool)) : Agree r x x := by
  cases x with
  | none => exact .none
  | some x => exact .some ⟨h x.1, rfl⟩

theorem map {r' : τ → τ → Prop} {x y : Option (σ × Bool)} (h : Agree r x y) (f : σ → τ)
    (hf : ∀ s s', r s s' → r' (f s) (f s')) :
    Agree r' (x.map fun s => (f s.1, s.2)) (y.map fun s => (f s.1, s.2)) := by
  cases h with
  | none => exact .none
  | some h => exact .some ⟨hf _ _ h.1, h.2⟩

end Agree

/-- What may be under a key, up to the order of keys. -/
abbrev ChildReordered : Option Value → Option Value → Prop := Option.Rel Value.Reordered

theorem ChildReordered.refl (child : Option Value) : ChildReordered child child := by
  cases child with
  | none => exact .none
  | some v => exact .some (.refl v)

theorem runActs_perm_of_idle {τ σ : Type} {act : τ → σ → Option (σ × Bool)} {ts ts' : List τ} {s : σ}
    (hp : ts.Perm ts') (h : ∀ t ∈ ts, act t s = none ∨ act t s = some (s, false)) :
    runActs act ts s = runActs act ts' s := by
  have h' : ∀ t ∈ ts', act t s = none ∨ act t s = some (s, false) :=
    fun t ht => h t (hp.mem_iff.mpr ht)
  rw [runActs_of_idle h, runActs_of_idle h', hp.all_eq]

namespace Pending

/-! ## Updates apart -/

/-- Updates on their way apart from one another, by keys that are no positions. -/
structure Orderly (ps : List Pending) : Prop where
  index : ∀ p ∈ ps, ∀ key ∈ p.keys, Numeral.index? key = none
  apart : ps.Pairwise fun p q => Path.Apart p.keys q.keys

variable {ps ps' : List Pending} {scope : Scope} {path : Path}

theorem after?_eq_some {k : String} {p q : Pending} :
    after? k p = some q ↔ p = ⟨k :: q.keys, q.update⟩ := by
  obtain ⟨_ | ⟨l, rest⟩, u⟩ := p
  · simp [after?]
  · obtain ⟨keys, w⟩ := q
    simp [after?, and_assoc]

theorem mem_after {k : String} {q : Pending} :
    q ∈ after k ps ↔ ⟨k :: q.keys, q.update⟩ ∈ ps := by
  simp only [after, List.mem_filterMap, after?_eq_some]
  constructor
  · rintro ⟨p, hp, rfl⟩
    exact hp
  · exact fun h => ⟨_, h, rfl⟩

theorem Orderly.after (h : Orderly ps) (k : String) : Orderly (after k ps) where
  index p hmem key hkey := h.index _ (mem_after.mp hmem) key (List.mem_cons_of_mem k hkey)
  apart := by
    refine h.apart.filterMap _ ?_
    intro p q hpq p' hp' q' hq'
    rw [after?_eq_some.mp hp', after?_eq_some.mp hq'] at hpq
    exact Path.apart_cons_cons.mp hpq rfl

theorem Orderly.eq_singleton (h : Orderly ps) {p : Pending} (hmem : p ∈ ps) (hp : p.keys = []) :
    ps = [p] := by
  obtain ⟨before, after, rfl⟩ := List.append_of_mem hmem
  obtain ⟨-, hafter, hbefore⟩ := List.pairwise_append.mp h.apart
  have hnil : before = [] := by
    refine List.eq_nil_iff_forall_not_mem.mpr fun q hq => ?_
    have hapart := hbefore q hq p List.mem_cons_self
    rw [hp] at hapart
    exact Path.not_apart_nil_right hapart
  have hnil' : after = [] := by
    refine List.eq_nil_iff_forall_not_mem.mpr fun q hq => ?_
    have hapart := (List.pairwise_cons.mp hafter).1 q hq
    rw [hp] at hapart
    exact Path.not_apart_nil_left hapart
  rw [hnil, hnil', List.nil_append]

/-! ## What may be under a key -/

theorem runActs_cons_present {p : Pending} {child : Option Value} {v : Value}
    (hp : p.onChild scope path child = (p.follow scope path v).map present)
    (hps : ∀ w, runActs (onChild scope path) ps (some w) =
      (runActs (follow scope path) ps w).map present) :
    runActs (onChild scope path) (p :: ps) child =
      (runActs (follow scope path) (p :: ps) v).map present := by
  cases hfollow : p.follow scope path v with
  | none =>
    rw [hfollow] at hp
    rw [runActs_cons_of_none hp, runActs_cons_of_none hfollow]
    rfl
  | some r =>
    rw [hfollow] at hp
    rw [runActs_cons_of_some hp, runActs_cons_of_some hfollow, hps, Option.map_map, Option.map_map]
    rfl

theorem runActs_onChild_some (hps : ∀ p ∈ ps, p.keys ≠ []) (v : Value) :
    runActs (onChild scope path) ps (some v) = (runActs (follow scope path) ps v).map present := by
  induction ps generalizing v with
  | nil => rfl
  | cons p ps ih =>
    rw [List.forall_mem_cons] at hps
    exact runActs_cons_present (onChild_some scope path hps.1 v) (ih hps.2)

theorem follow_empty {p : Pending} (hp : p.keys ≠ []) (hcreates : p.update.change.creates = false) :
    p.follow scope path (.document []) = some (.document [], false) := by
  obtain ⟨_ | ⟨k, rest⟩, u⟩ := p
  · exact absurd rfl hp
  have hchild : onChild scope (path ++ [k]) ⟨rest, u⟩ none = some (none, false) := by
    by_cases hrest : rest = []
    · subst hrest
      obtain ⟨field, change⟩ := u
      cases change <;> first | rfl | cases hcreates
    · exact onChild_none_of_not_creates scope _ hrest hcreates
  rw [follow_document, Entries.find?_nil, hchild]
  rfl

theorem runActs_onChild_none_of_not_creates (hps : ∀ p ∈ ps, p.keys ≠ [])
    (hcreates : ∀ p ∈ ps, p.update.change.creates = false) :
    runActs (onChild scope path) ps none = some (none, false) := by
  induction ps with
  | nil => rfl
  | cons p ps ih =>
    rw [List.forall_mem_cons] at hps hcreates
    rw [runActs_cons_of_keeps (onChild_none_of_not_creates scope path hps.1 hcreates.1)]
    exact ih hps.2 hcreates.2

/-- As soon as one update makes documents, nothing under a key is as good as an empty document. -/
theorem runActs_onChild_none_of_creates (hps : ∀ p ∈ ps, p.keys ≠ [])
    (hcreates : ∃ p ∈ ps, p.update.change.creates = true) :
    runActs (onChild scope path) ps none =
      (runActs (follow scope path) ps (.document [])).map present := by
  induction ps with
  | nil =>
    obtain ⟨p, hp, -⟩ := hcreates
    exact absurd hp List.not_mem_nil
  | cons p ps ih =>
    rw [List.forall_mem_cons] at hps
    cases hp : p.update.change.creates with
    | true =>
      -- From here on there is something under the key.
      exact runActs_cons_present (onChild_none_of_creates scope path hps.1 hp)
        (runActs_onChild_some hps.2)
    | false =>
      have hrest : ∃ p ∈ ps, p.update.change.creates = true := by
        obtain ⟨q, hq, hcreates⟩ := hcreates
        obtain rfl | hq := List.mem_cons.mp hq
        · rw [hp] at hcreates
          cases hcreates
        · exact ⟨q, hq, hcreates⟩
      rw [runActs_cons_of_keeps (onChild_none_of_not_creates scope path hps.1 hp),
        runActs_cons_of_keeps (follow_empty hps.1 hp)]
      exact ih hps.2 hrest

theorem runActs_onChild_perm (h : Orderly ps) (hp : ps.Perm ps')
    (hvalue : (∀ p ∈ ps, p.keys ≠ []) → ∀ v : Value, v.WellFormed →
      Agree Value.Reordered (runActs (follow scope path) ps v) (runActs (follow scope path) ps' v))
    {child : Option Value} (hchild : ∀ v, child = some v → v.WellFormed) :
    Agree ChildReordered (runActs (onChild scope path) ps child)
      (runActs (onChild scope path) ps' child) := by
  -- An update that ends here may do anything, but then it is the only one.
  by_cases hlast : ∃ p ∈ ps, p.keys = []
  · obtain ⟨p, hmem, hkeys⟩ := hlast
    rw [h.eq_singleton hmem hkeys] at hp ⊢
    rw [List.singleton_perm.mp hp]
    exact .refl ChildReordered.refl _
  have hps : ∀ p ∈ ps, p.keys ≠ [] := fun p hmem hkeys => hlast ⟨p, hmem, hkeys⟩
  have hps' : ∀ p ∈ ps', p.keys ≠ [] := fun p hmem => hps p (hp.mem_iff.mpr hmem)
  cases child with
  | some v =>
    rw [runActs_onChild_some hps, runActs_onChild_some hps']
    exact (hvalue hps v (hchild v rfl)).map _ fun _ _ => .some
  | none =>
    by_cases hcreates : ∃ p ∈ ps, p.update.change.creates = true
    · have hcreates' : ∃ p ∈ ps', p.update.change.creates = true := by
        obtain ⟨p, hmem, hp'⟩ := hcreates
        exact ⟨p, hp.mem_iff.mp hmem, hp'⟩
      have hempty : (Value.document []).WellFormed := by simp [Entries.Distinct, Entries.keys]
      rw [runActs_onChild_none_of_creates hps hcreates,
        runActs_onChild_none_of_creates hps' hcreates']
      exact (hvalue hps _ hempty).map _ fun _ _ => .some
    · have hnone : ∀ p ∈ ps, p.update.change.creates = false :=
        fun p hmem => Bool.eq_false_iff.mpr fun hp' => hcreates ⟨p, hmem, hp'⟩
      have hnone' : ∀ p ∈ ps', p.update.change.creates = false :=
        fun p hmem => hnone p (hp.mem_iff.mpr hmem)
      rw [runActs_onChild_none_of_not_creates hps hnone,
        runActs_onChild_none_of_not_creates hps' hnone']
      exact .refl ChildReordered.refl _

theorem exists_length_le (ps : List Pending) : ∃ n, ∀ p ∈ ps, p.keys.length ≤ n :=
  ⟨(ps.map fun p => p.keys.length).sum,
    fun p hmem => List.le_sum_of_mem (List.mem_map.mpr ⟨p, hmem, rfl⟩)⟩

/-! ## Values -/

theorem agree_of_children {fields : Document} (hd : fields.Distinct) (hps : ∀ p ∈ ps, p.keys ≠ [])
    (hps' : ∀ p ∈ ps', p.keys ≠ [])
    (h : ∀ k, Agree ChildReordered
      (runActs (onChild scope (path ++ [k])) (after k ps) (fields.find? k))
      (runActs (onChild scope (path ++ [k])) (after k ps') (fields.find? k))) :
    Agree Value.Reordered (runActs (follow scope path) ps (.document fields))
      (runActs (follow scope path) ps' (.document fields)) := by
  obtain ⟨gs, changed, flags, hrun, hgs, hkeys, hchanged⟩ | ⟨hrun, k, hk⟩ :=
    runActs_document scope path hps hd
  · obtain ⟨gs', changed', flags', hrun', hgs', hkeys', hchanged'⟩ | ⟨hrun', k, hk⟩ :=
      runActs_document scope path hps' hd
    · have hboth : ∀ k, ChildReordered (gs.find? k) (gs'.find? k) ∧ flags k = flags' k := by
        intro k
        have hk := h k
        rw [hkeys k, hkeys' k] at hk
        cases hk with
        | some hk => exact hk
      have hflags : flags = flags' := funext fun k => (hboth k).2
      rw [hrun, hrun']
      refine .some ⟨.document hgs hgs' fun k => (hboth k).1, ?_⟩
      rw [Bool.eq_iff_iff, hchanged, hchanged', hflags]
    · have hk' := h k
      rw [hkeys k, hk] at hk'
      cases hk'
  · obtain ⟨gs', changed', flags', hrun', hgs', hkeys', hchanged'⟩ | ⟨hrun', -⟩ :=
      runActs_document scope path hps' hd
    · have hk' := h k
      rw [hkeys' k, hk] at hk'
      cases hk'
    · rw [hrun, hrun']
      exact .none

/-- **Updates apart from one another agree in every order.** -/
theorem runActs_perm (n : Nat) (h : Orderly ps) (hp : ps.Perm ps') (hps : ∀ p ∈ ps, p.keys ≠ [])
    (hn : ∀ p ∈ ps, p.keys.length ≤ n) {v : Value} (hv : v.WellFormed) :
    Agree Value.Reordered (runActs (follow scope path) ps v) (runActs (follow scope path) ps' v) := by
  -- The induction is on the longest path: what is under a key sees paths shorter by that key.
  induction n generalizing ps ps' path v with
  | zero =>
    have hnil : ps = [] := by
      refine List.eq_nil_iff_forall_not_mem.mpr fun p hmem => hps p hmem ?_
      exact List.length_eq_zero_iff.mp (Nat.le_zero.mp (hn p hmem))
    subst hnil
    rw [List.nil_perm.mp hp]
    exact .refl Value.Reordered.refl _
  | succ n ih =>
    have hps' : ∀ p ∈ ps', p.keys ≠ [] := fun p hmem => hps p (hp.mem_iff.mpr hmem)
    cases hfields : v.fields? with
    | none =>
      have hidle : ∀ p ∈ ps, p.follow scope path v = none ∨ p.follow scope path v = some (v, false) :=
        fun p hmem => follow_of_not_document scope path (hps p hmem) (h.index p hmem) hfields
      rw [runActs_perm_of_idle hp hidle]
      exact .refl Value.Reordered.refl _
    | some fields =>
      obtain rfl : v = .document fields := by
        cases v <;> cases hfields
        rfl
      obtain ⟨hd, hchildren⟩ := Value.wellFormed_document.mp hv
      refine agree_of_children hd hps hps' fun k => ?_
      have hperm : (after k ps).Perm (after k ps') := hp.filterMap _
      have hlength : ∀ p ∈ after k ps, p.keys.length ≤ n :=
        fun p hmem => Nat.le_of_succ_le_succ (hn _ (mem_after.mp hmem))
      refine runActs_onChild_perm (h.after k) hperm ?_ ?_
      · intro hkeys w hw
        exact ih (h.after k) hperm hkeys hlength hw
      · intro w hw
        exact hchildren _ (Entries.mem_of_find? hw)

end Pending

/-! ## Queries -/

/-- An update at the beginning of its way. -/
def Update.pending (u : Update) : Pending := ⟨Dotted.segments u.field, u⟩

theorem Update.keys_pending_ne_nil {us : List Update} :
    ∀ p ∈ us.map Update.pending, p.keys ≠ [] := by
  intro p hmem
  obtain ⟨u, -, rfl⟩ := List.mem_map.mp hmem
  exact Dotted.segments_ne_nil u.field

theorem Update.follow_pending {u : Update} (hu : Path.Plain (Dotted.segments u.field))
    (scope : Scope) (v : Value) : u.pending.follow scope [] v = (u.apply scope v).toOption := by
  rw [Pending.follow, Update.apply_eq, Step.ofPath, hu.map_ofSegment]
  rfl

namespace Query

theorem toOption_foldlM_step {us : List Update}
    (hus : ∀ u ∈ us, Path.Plain (Dotted.segments u.field)) (scope : Scope) (v : Value)
    (changed : Bool) :
    (us.foldlM (step scope) (v, changed)).toOption =
      (runActs (Pending.follow scope []) (us.map Update.pending) v).map fun r =>
        (r.1, changed || r.2) := by
  induction us generalizing v changed with
  | nil =>
    rw [List.map_nil, runActs, Option.map_some, Bool.or_false]
    rfl
  | cons u us ih =>
    rw [List.forall_mem_cons] at hus
    have hfollow := Update.follow_pending hus.1 scope v
    rw [List.foldlM_cons, step, List.map_cons]
    cases happly : u.apply scope v with
    | error cause =>
      rw [happly] at hfollow
      rw [runActs_cons_of_none hfollow]
      rfl
    | ok r =>
      rw [happly] at hfollow
      rw [runActs_cons_of_some hfollow, Option.map_map]
      have hrest := ih hus.2 r.1 (changed || r.2)
      simp only [Bool.or_assoc] at hrest
      exact hrest

theorem toOption_edit (q : Query)
    (hplain : ∀ u ∈ q.updates, Path.Plain (Dotted.segments u.field))
    (d : Document) :
    (q.edit d).toOption =
      (runActs (Pending.follow (q.scope d) []) (q.updates.map Update.pending) (.document d)).map
        fun r => (r.1.fields?.getD d, r.2) := by
  have hfold := toOption_foldlM_step hplain (q.scope d) (.document d) false
  simp only [Bool.false_or] at hfold
  rw [Option.map_id'] at hfold
  rw [edit_eq, ← hfold]
  cases q.updates.foldlM (step (q.scope d)) (.document d, false) <;> rfl

/-- Whether the edits of two queries agree: both fail, or both succeed with the same flag and with
documents that are identical up to the order of keys. -/
def EditsAgree (q q' : Query) (d : Document) : Prop :=
  Agree Document.Reordered (q.edit d).toOption (q'.edit d).toOption

theorem orderly_pending {us : List Update}
    (hindex : ∀ u ∈ us, ∀ key ∈ Dotted.segments u.field, Numeral.index? key = none)
    (hapart : PathsApart (us.map Update.field)) : Pending.Orderly (us.map Update.pending) where
  index := by
    intro p hp
    obtain ⟨u, hu, rfl⟩ := List.mem_map.mp hp
    exact hindex u hu
  apart := by
    have hfields := List.pairwise_map.mp hapart
    exact List.pairwise_map.mpr hfields

theorem editsAgree_of_perm {q : Query} {updates : List Update} (hp : updates.Perm q.updates)
    (hplain : ∀ u ∈ q.updates, Path.Plain (Dotted.segments u.field))
    (hindex : ∀ u ∈ q.updates, ∀ key ∈ Dotted.segments u.field, Numeral.index? key = none)
    (hapart : PathsApart (q.updates.map Update.field)) {d : Document} (hd : d.WellFormed) :
    q.EditsAgree { q with updates } d := by
  have hplain' : ∀ u ∈ updates, Path.Plain (Dotted.segments u.field) :=
    fun u hu => hplain u (hp.mem_iff.mp hu)
  obtain ⟨n, hn⟩ := Pending.exists_length_le (q.updates.map Update.pending)
  have hruns : Agree Value.Reordered
      (runActs (Pending.follow (q.scope d) []) (q.updates.map Update.pending) (.document d))
      (runActs (Pending.follow (q.scope d) []) (updates.map Update.pending) (.document d)) :=
    Pending.runActs_perm n (orderly_pending hindex hapart) (hp.symm.map Update.pending)
      Update.keys_pending_ne_nil hn hd
  have hfields : ∀ v w : Value, v.Reordered w →
      Document.Reordered (v.fields?.getD d) (w.fields?.getD d) := by
    intro v w h
    cases h with
    | refl v => exact Value.Reordered.refl _
    | document hv hw hkeys => exact Value.Reordered.document hv hw hkeys
  rw [EditsAgree, toOption_edit q hplain, toOption_edit { q with updates } hplain']
  exact hruns.map _ hfields

theorem nodup_of_pathsApart {us : List Update} (h : PathsApart (us.map Update.field)) :
    (us.map fun u => ((Mongo.change u.change).1, u.field)).Nodup := by
  refine List.pairwise_map.mpr ((List.pairwise_map.mp h).imp ?_)
  intro u w hapart hsame
  have hfield : u.field = w.field := congrArg Prod.snd hsame
  rw [hfield] at hapart
  exact hapart.1 List.prefix_rfl

/-- **The updates of a query agree in every order** if their paths are apart and made of keys that
are no positions. One such order is that of the update document. -/
theorem edit_perm {q : Query} (hplain : ∀ u ∈ q.updates, Path.Plain (Dotted.segments u.field))
    (hindex : ∀ u ∈ q.updates, ∀ key ∈ Dotted.segments u.field, Numeral.index? key = none)
    (hapart : PathsApart (q.updates.map Update.field)) {d : Document} (hd : d.WellFormed) :
    (∀ updates : List Update, updates.Perm q.updates → q.EditsAgree { q with updates } d) ∧
      ∃ grouped : List Update, grouped.Perm q.updates ∧
        Mongo.emitted (Mongo.update q.updates) = grouped.map Mongo.entry ∧
        q.EditsAgree { q with updates := grouped } d := by
  obtain ⟨grouped, hgrouped, hemitted⟩ :=
    Mongo.exists_emitted_update_eq (nodup_of_pathsApart hapart)
  exact ⟨fun updates hp => editsAgree_of_perm hp hplain hindex hapart hd,
    grouped, hgrouped, hemitted, editsAgree_of_perm hgrouped hplain hindex hapart hd⟩

/-- Updates under one missing key and of a number, in an order that grouping changes. -/
def mixed : Query where
  updates := [⟨"log.seen", .assign (.bool true)⟩, ⟨"n", .increment (.int32 1)⟩,
    ⟨"log.users", .addUnique (.string "a")⟩, ⟨"log.old", .remove⟩, ⟨"title", .assign (.string "b")⟩]

theorem edit_perm_mixed :
    (∀ updates : List Update, updates.Perm mixed.updates →
      mixed.EditsAgree { mixed with updates } [("n", .int32 1)]) ∧
      ∃ grouped : List Update, grouped.Perm mixed.updates ∧
        Mongo.emitted (Mongo.update mixed.updates) = grouped.map Mongo.entry ∧
        mixed.EditsAgree { mixed with updates := grouped } [("n", .int32 1)] := by
  have hplain : ∀ u ∈ mixed.updates, Path.Plain (Dotted.segments u.field) := by decide
  have hindex : ∀ u ∈ mixed.updates, ∀ key ∈ Dotted.segments u.field,
      Numeral.index? key = none := by decide
  have hapart : PathsApart (mixed.updates.map Update.field) := by decide
  have hd : Document.WellFormed [("n", .int32 1)] := by
    have hfield : (Value.int32 1).WellFormed := Value.wellFormed_of_isAtom rfl
    simp [Document.WellFormed, Entries.Distinct, Entries.keys, hfield]
  exact edit_perm hplain hindex hapart hd

/-- The edit succeeds, and the order of the updates shows in the order of the keys. -/
example :
    mixed.edit [("n", .int32 1)] = .ok ([("n", .int32 2),
      ("log", .document [("seen", .bool true), ("users", .array [.string "a"])]),
      ("title", .string "b")], true) := rfl

end Query

end Dossier
