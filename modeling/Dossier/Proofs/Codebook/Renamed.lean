import Mathlib
import Dossier.Proofs.Codebook.Along
import Dossier.Proofs.Keys.Passage

/-!
# Paths through renamed documents

The keys of a stored document are renamed. A path whose keys are stored as they are, and are not
what another key is stored as, leads to the renamed value that it led to before.

* `Keys.Unreserved`, `Keys.TokenFree`: keys without reserved characters, and without tokens;
  **`Keys.escape_eq_iff`**, `Keys.exists_escape_eq`: of the keys without reserved characters, the
  ones without tokens are not the stored form of another key;
* `Value.DistinctAlong`: the documents on a path have every key once;
* **`Value.within?_renameKeys`**: what a path leads to after a renaming.
-/

namespace Dossier

/-! ## Keys that no other key is stored as -/

namespace Keys

/-- No reserved character is in the key. -/
def Unreserved (key : String) : Prop := ∀ c ∈ restoreOrder, c ∉ key.toList

/-- No token is in the key. -/
def TokenFree (key : String) : Prop := ∀ c ∈ restoreOrder, ¬ token c <:+: key.toList

instance (key : String) : Decidable (Unreserved key) := List.decidableBAll _ _

instance (key : String) : Decidable (TokenFree key) := List.decidableBAll _ _

variable {key other : String}

theorem toList_escape (key : String) : (escape key).toList = written restoreOrder key.toList := by
  rw [escape, String.toList_ofList, escapeChars_eq_written]

theorem escape_of_unreserved (h : Unreserved key) : escape key = key := by
  rw [← String.toList_inj, toList_escape, written_eq_self fun x hx hr => h x hr hx]

theorem token_infix_written {c : Char} (hc : c ∈ restoreOrder) {chars : List Char}
    (h : c ∈ chars) : token c <:+: written restoreOrder chars := by
  obtain ⟨front, back, rfl⟩ := List.append_of_mem h
  rw [written_append, written_cons_of_mem hc]
  exact ⟨written restoreOrder front, written restoreOrder back, List.append_assoc ..⟩

/-- **A key without reserved characters and tokens is the stored form of no other key.** -/
theorem escape_eq_iff (hr : Unreserved key) (ht : TokenFree key) :
    escape other = key ↔ other = key := by
  constructor
  · intro h
    have hother : Unreserved other := by
      intro c hc hmem
      refine ht c hc ?_
      rw [← h, toList_escape]
      exact token_infix_written hc hmem
    rw [← h, escape_of_unreserved hother]
  · rintro rfl
    exact escape_of_unreserved hr

theorem exists_escape_eq (hr : Unreserved key) (ht : ¬ TokenFree key) :
    ∃ other, other ≠ key ∧ escape other = key := by
  simp only [TokenFree, not_forall, not_not] at ht
  obtain ⟨c, hc, front, back, hkey⟩ := ht
  have hkeep (chars : List Char) (h : chars ⊆ key.toList) : written restoreOrder chars = chars :=
    written_eq_self fun x hx hmem => hr x hmem (h hx)
  have hfront : front ⊆ key.toList := by simp [← hkey]
  have hback : back ⊆ key.toList := by simp [← hkey]
  refine ⟨String.ofList (front ++ c :: back), ?_, ?_⟩
  · rintro rfl
    exact hr c hc (by simp)
  · rw [← String.toList_inj, toList_escape, String.toList_ofList, written_append,
      written_cons_of_mem hc, hkeep front hfront, hkeep back hback, ← hkey, List.append_assoc]

end Keys

/-! ## Renamed entries -/

theorem Entries.find?_ofList_map {α : Type} {fields : Entries α} (hd : fields.Distinct)
    {rename : String → String} (g : α → α) {key : String}
    (hkey : ∀ other, rename other = key ↔ other = key) :
    (ofList (fields.map (Prod.map rename g))).find? key = (fields.find? key).map g := by
  have hfold (start : Entries α) :
      ((fields.map (Prod.map rename g)).foldl (fun entries f => insert entries f.1 f.2) start).find?
        key = ((fields.find? key).map g).or (start.find? key) := by
    induction fields generalizing start with
    | nil => rfl
    | cons f rest ih =>
      obtain ⟨k, v⟩ := f
      have hd' : k ∉ keys rest ∧ Distinct rest := List.nodup_cons.mp hd
      rw [List.map_cons, List.foldl_cons, ih hd'.2, find?_cons]
      by_cases hk : k = key
      · subst hk
        have hrest : find? rest k = none := find?_eq_none_iff.mpr hd'.1
        have hrename : rename k = k := (hkey k).mpr rfl
        simp [hrest, hrename]
      · have hrename : rename k ≠ key := fun h => hk ((hkey k).mp h)
        simp [hk, find?_insert_of_ne _ hrename]
  rw [ofList, hfold]
  simp

namespace Value

/-! ## Paths with distinct keys -/

/-- Whether the documents on a path have every key once. -/
def DistinctAlong : Value → Path → Prop
  | _, [] => True
  | document fields, key :: rest =>
    Entries.Distinct fields ∧
      ∀ child, Entries.find? fields key = some child → DistinctAlong child rest
  | _, _ :: _ => True

variable {v w : Value} {p : Path} {rename : String → String}

@[simp] theorem distinctAlong_nil (v : Value) : v.DistinctAlong [] := by cases v <;> trivial

theorem WellFormed.distinctAlong (h : v.WellFormed) (p : Path) : v.DistinctAlong p := by
  induction p generalizing v with
  | nil => exact distinctAlong_nil v
  | cons k p ih =>
    cases v
    case document fields =>
      obtain ⟨hd, hf⟩ := wellFormed_document.mp h
      exact ⟨hd, fun child hchild => ih (hf _ (Entries.mem_of_find? hchild))⟩
    all_goals trivial

theorem DistinctAlong.mapAt {f : Value → Except StoreError Value} {q : Path}
    (hv : v.DistinctAlong p) (hqp : q <+: p → q = p) (h : v.mapAt f q = .ok w) :
    w.DistinctAlong p := by
  induction p generalizing q v w with
  | nil => exact distinctAlong_nil w
  | cons k p ih =>
    cases q with
    | nil => cases hqp List.nil_prefix
    | cons l q =>
      obtain ⟨fields, rfl, ⟨-, rfl⟩ | ⟨child, child', hl, hc, rfl⟩⟩ := mapAt_cons_eq_ok.mp h
      · exact hv
      refine ⟨Entries.distinct_insert hv.1 l child', fun found hfound => ?_⟩
      by_cases hlk : l = k
      · subst hlk
        rw [Entries.find?_insert_self, Option.some.injEq] at hfound
        subst hfound
        refine ih (hv.2 child hl) (fun hp => ?_) hc
        exact (List.cons.inj (hqp (List.cons_prefix_cons.mpr ⟨rfl, hp⟩))).2
      · rw [Entries.find?_insert_of_ne _ hlk] at hfound
        exact hv.2 found hfound

/-- **After a renaming, a path leads to the renamed value**, if it does not change the keys of the
path and makes no other keys equal to them. -/
theorem within?_renameKeys (hp : ∀ key ∈ p, ∀ other, rename other = key ↔ other = key)
    (hv : v.DistinctAlong p) (h : v.within? p = some w) :
    (v.renameKeys rename).within? p = some (w.renameKeys rename) := by
  induction p generalizing v with
  | nil =>
    rw [within?_nil, Option.some.injEq] at h
    rw [h, within?_nil]
  | cons k p ih =>
    obtain ⟨fields, child, rfl, hchild, hw⟩ := exists_fields_of_within? h
    rw [List.forall_mem_cons] at hp
    rw [renameKeys, renameFields_eq_map, within?, Entries.find?_ofList_map hv.1 _ hp.1, hchild,
      Option.map_some, Option.bind_some, ih hp.2 (hv.2 child hchild) hw]

end Value

end Dossier
