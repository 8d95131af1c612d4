/-!
# Insertion-ordered entries

`Entries α` keeps values under text keys in the order in which the keys were first set. Documents,
codec tables and collections are all entries.

* `find?`, `contains`, `keys`: reading;
* **`insert`**: an existing key keeps its place, a new key goes to the end;
* `erase`: the remaining keys keep their order;
* `ofList`: a repeated key keeps its first place and takes its last value; it changes nothing exactly
  when the keys are `Distinct` (`ofList_of_distinct`, `distinct_of_length_ofList`).
-/

namespace Dossier

/-- Values under text keys, in insertion order. -/
abbrev Entries (α : Type) : Type := List (String × α)

namespace Entries

variable {α : Type}

/-- The value under `key`. -/
def find? : Entries α → String → Option α
  | [], _ => none
  | (k, v) :: rest, key => if k = key then some v else find? rest key

/-- Whether there is a value under `key`. -/
def contains (entries : Entries α) (key : String) : Bool := (entries.find? key).isSome

/-- The keys in order. -/
def keys (entries : Entries α) : List String := entries.map Prod.fst

/-- Sets `key` to `value` in place, or at the end when the key is new. -/
def insert : Entries α → String → α → Entries α
  | [], key, value => [(key, value)]
  | (k, v) :: rest, key, value =>
    if k = key then (k, value) :: rest else (k, v) :: insert rest key value

/-- Removes `key`. -/
def erase : Entries α → String → Entries α
  | [], _ => []
  | (k, v) :: rest, key => if k = key then rest else (k, v) :: erase rest key

/-- Inserts the pairs one after the other. -/
def ofList (pairs : List (String × α)) : Entries α :=
  pairs.foldl (fun entries pair => insert entries pair.1 pair.2) []

/-- Every key occurs once. -/
def Distinct (entries : Entries α) : Prop := entries.keys.Nodup

@[simp] theorem find?_nil (key : String) : find? ([] : Entries α) key = none := rfl

theorem find?_cons (k : String) (v : α) (rest : Entries α) (key : String) :
    find? ((k, v) :: rest) key = if k = key then some v else find? rest key := rfl

@[simp] theorem find?_insert_self (entries : Entries α) (key : String) (value : α) :
    (insert entries key value).find? key = some value := by
  induction entries with
  | nil => simp [insert, find?_cons]
  | cons entry rest ih =>
    obtain ⟨k, v⟩ := entry
    by_cases h : k = key <;> simp [insert, find?_cons, h, ih]

theorem find?_insert_of_ne (entries : Entries α) {key other : String} (h : key ≠ other) (value : α) :
    (insert entries key value).find? other = entries.find? other := by
  induction entries with
  | nil => simp [insert, find?_cons, h]
  | cons entry rest ih =>
    obtain ⟨k, v⟩ := entry
    by_cases hk : k = key
    · subst hk; simp [insert, find?_cons, h]
    · simp [insert, find?_cons, hk, ih]

theorem find?_erase_of_ne (entries : Entries α) {key other : String} (h : key ≠ other) :
    (erase entries key).find? other = entries.find? other := by
  induction entries with
  | nil => rfl
  | cons entry rest ih =>
    obtain ⟨k, v⟩ := entry
    by_cases hk : k = key
    · subst hk; simp [erase, find?_cons, h]
    · simp [erase, find?_cons, hk, ih]

/-- Setting a present key keeps the keys, setting a new one appends it. -/
theorem keys_insert (entries : Entries α) (key : String) (value : α) :
    (insert entries key value).keys =
      if key ∈ entries.keys then entries.keys else entries.keys ++ [key] := by
  induction entries with
  | nil => simp [insert, keys]
  | cons entry rest ih =>
    obtain ⟨k, v⟩ := entry
    by_cases hk : k = key
    · simp [insert, keys, hk]
    · have hk' : ¬ key = k := fun e => hk e.symm
      have ih' : List.map Prod.fst (insert rest key value) =
          if key ∈ rest.map Prod.fst then rest.map Prod.fst else rest.map Prod.fst ++ [key] := ih
      simp only [insert, keys, if_neg hk, List.map_cons, ih', List.mem_cons, hk', false_or]
      split <;> simp

theorem mem_of_find? {entries : Entries α} {key : String} {v : α}
    (h : entries.find? key = some v) : (key, v) ∈ entries := by
  induction entries with
  | nil => cases h
  | cons entry rest ih =>
    obtain ⟨k, w⟩ := entry
    rw [find?_cons] at h
    split at h
    · rename_i hk; cases h; simp [hk]
    · exact List.mem_cons_of_mem _ (ih h)

theorem contains_of_find? {entries : Entries α} {key : String} {v : α}
    (h : entries.find? key = some v) : entries.contains key = true := by
  rw [contains, h, Option.isSome_some]

theorem find?_eq_none_iff {entries : Entries α} {key : String} :
    entries.find? key = none ↔ key ∉ entries.keys := by
  induction entries with
  | nil => simp [keys]
  | cons entry rest ih =>
    rw [find?_cons]
    split <;> simp_all [keys, eq_comm]

/-- A value is found under its key when every key occurs once. -/
theorem find?_of_mem {entries : Entries α} (hd : entries.Distinct) {key : String} {v : α}
    (h : (key, v) ∈ entries) : entries.find? key = some v := by
  induction entries with
  | nil => cases h
  | cons entry rest ih =>
    obtain ⟨k, w⟩ := entry
    have hd' : k ∉ rest.map Prod.fst ∧ (rest.map Prod.fst).Nodup := List.nodup_cons.mp hd
    rw [find?_cons]
    rcases List.mem_cons.mp h with e | h
    · cases e; simp
    · have hk : k ≠ key := fun e => hd'.1 (List.mem_map.mpr ⟨_, h, e.symm⟩)
      rw [if_neg hk]
      exact ih hd'.2 h

theorem mem_insert {entries : Entries α} {key : String} {v : α} {entry : String × α}
    (h : entry ∈ insert entries key v) : entry = (key, v) ∨ entry ∈ entries := by
  induction entries with
  | nil => exact .inl (List.mem_singleton.mp h)
  | cons first rest ih =>
    obtain ⟨k, w⟩ := first
    rw [insert] at h
    split at h
    · rename_i hk
      subst hk
      rcases List.mem_cons.mp h with h | h
      · exact .inl h
      · exact .inr (List.mem_cons_of_mem _ h)
    · rcases List.mem_cons.mp h with h | h
      · exact .inr (by simp [h])
      · exact (ih h).imp_right (List.mem_cons_of_mem _)

theorem distinct_insert {entries : Entries α} (h : entries.Distinct) (key : String) (v : α) :
    (insert entries key v).Distinct := by
  rw [Distinct, keys_insert]
  split
  · exact h
  · rename_i hk
    refine List.nodup_append.mpr ⟨h, by simp, fun a ha b hb => ?_⟩
    rw [List.mem_singleton] at hb
    exact fun e => hk (hb ▸ e ▸ ha)

theorem erase_of_find?_eq_none {entries : Entries α} {key : String} (h : entries.find? key = none) :
    erase entries key = entries := by
  induction entries with
  | nil => rfl
  | cons entry rest ih =>
    obtain ⟨k, w⟩ := entry
    rw [find?_cons] at h
    rw [erase]
    split at h
    · cases h
    · rename_i hk; rw [if_neg hk, ih h]

theorem keys_erase_sublist (entries : Entries α) (key : String) :
    (erase entries key).keys.Sublist entries.keys := by
  induction entries with
  | nil => exact List.Sublist.refl _
  | cons entry rest ih =>
    obtain ⟨k, w⟩ := entry
    rw [erase]
    split
    · exact List.sublist_cons_self _ _
    · exact ih.cons_cons k

theorem distinct_erase {entries : Entries α} (h : entries.Distinct) (key : String) :
    (erase entries key).Distinct := h.sublist (keys_erase_sublist entries key)

theorem find?_erase_self {entries : Entries α} (h : entries.Distinct) (key : String) :
    (erase entries key).find? key = none := by
  induction entries with
  | nil => rfl
  | cons entry rest ih =>
    obtain ⟨k, w⟩ := entry
    have hd : k ∉ rest.map Prod.fst ∧ (rest.map Prod.fst).Nodup := List.nodup_cons.mp h
    rw [erase]
    split
    case isTrue hk =>
      subst hk
      cases hfind : find? rest k with
      | none => rfl
      | some v => exact absurd (List.mem_map_of_mem (mem_of_find? hfind)) hd.1
    case isFalse hk => rw [find?_cons, if_neg hk, ih hd.2]

theorem insert_insert (entries : Entries α) (key : String) (v w : α) :
    insert (insert entries key v) key w = insert entries key w := by
  induction entries with
  | nil => simp [insert]
  | cons entry rest ih =>
    obtain ⟨k, u⟩ := entry
    by_cases hk : k = key <;> simp [insert, hk, ih]

theorem insert_ne_nil (entries : Entries α) (key : String) (v : α) : insert entries key v ≠ [] := by
  intro h
  have hfind := find?_insert_self entries key v
  rw [h] at hfind
  cases hfind

/-- Setting a key to what it holds changes nothing. -/
theorem insert_of_find? {entries : Entries α} {key : String} {v : α}
    (h : entries.find? key = some v) : insert entries key v = entries := by
  induction entries with
  | nil => cases h
  | cons entry rest ih =>
    obtain ⟨k, w⟩ := entry
    rw [find?_cons] at h
    rw [insert]
    split at h
    · rename_i hk; cases h; rw [if_pos hk, hk]
    · rename_i hk; rw [if_neg hk, ih h]

theorem insert_of_not_mem {entries : Entries α} {key : String} (h : key ∉ entries.keys) (v : α) :
    insert entries key v = entries ++ [(key, v)] := by
  induction entries with
  | nil => rfl
  | cons entry rest ih =>
    obtain ⟨k, w⟩ := entry
    have hk : ¬ (key = k ∨ key ∈ rest.map Prod.fst) := fun e => h (List.mem_cons.mpr e)
    rw [not_or] at hk
    rw [insert, if_neg fun e => hk.1 e.symm, ih hk.2, List.cons_append]

theorem length_insert (entries : Entries α) (key : String) (v : α) :
    (insert entries key v).length = entries.length + if key ∈ entries.keys then 0 else 1 := by
  have h := congrArg List.length (keys_insert entries key v)
  rw [keys, List.length_map] at h
  rw [h]
  split <;> simp [keys]

/-! ## Lists of pairs with distinct keys -/

theorem foldl_insert_of_nodup (entries pairs : Entries α) (h : (entries.keys ++ pairs.keys).Nodup) :
    pairs.foldl (fun entries pair => insert entries pair.1 pair.2) entries = entries ++ pairs := by
  induction pairs generalizing entries with
  | nil => simp
  | cons pair rest ih =>
    obtain ⟨k, v⟩ := pair
    have hk : k ∉ entries.keys := fun hm =>
      (List.nodup_append.mp h).2.2 k hm k (by simp [keys]) rfl
    rw [List.foldl_cons, insert_of_not_mem hk, ih]
    · simp
    · simpa [keys] using h

theorem length_foldl_insert_le (entries pairs : Entries α) :
    (pairs.foldl (fun entries pair => insert entries pair.1 pair.2) entries).length ≤
      entries.length + pairs.length := by
  induction pairs generalizing entries with
  | nil => simp
  | cons pair rest ih =>
    have h := ih (insert entries pair.1 pair.2)
    rw [length_insert] at h
    rw [List.foldl_cons, List.length_cons]
    split at h <;> omega

theorem nodup_of_length_foldl_insert (entries pairs : Entries α) (hd : entries.Distinct)
    (h : (pairs.foldl (fun entries pair => insert entries pair.1 pair.2) entries).length =
      entries.length + pairs.length) : (entries.keys ++ pairs.keys).Nodup := by
  induction pairs generalizing entries with
  | nil => simpa [Distinct, keys] using hd
  | cons pair rest ih =>
    obtain ⟨k, v⟩ := pair
    rw [List.foldl_cons, List.length_cons] at h
    have hle := length_foldl_insert_le (insert entries k v) rest
    have hlen := length_insert entries k v
    by_cases hk : k ∈ entries.keys
    · rw [if_pos hk] at hlen
      simp only at h hle
      omega
    · rw [insert_of_not_mem hk] at h
      have := ih (entries ++ [(k, v)]) (insert_of_not_mem hk v ▸ distinct_insert hd k v)
        (by rw [h]; simp; omega)
      simpa [keys] using this

/-- Pairs with distinct keys stay as they are. -/
theorem ofList_of_distinct {pairs : Entries α} (h : pairs.Distinct) : ofList pairs = pairs := by
  rw [ofList, foldl_insert_of_nodup]
  · simp
  · simpa [Distinct, keys] using h

theorem distinct_ofList (pairs : Entries α) : (ofList pairs).Distinct :=
  List.foldlRecOn pairs _ List.nodup_nil fun _ h pair _ => distinct_insert h pair.1 pair.2

theorem mem_ofList {pairs : Entries α} {entry : String × α} (h : entry ∈ ofList pairs) :
    entry ∈ pairs := by
  have hall : ∀ entry ∈ ofList pairs, entry ∈ pairs := by
    refine List.foldlRecOn (motive := fun entries => ∀ entry ∈ entries, entry ∈ pairs) pairs _
      (fun entry h => absurd h List.not_mem_nil) fun entries ih pair hpair entry h => ?_
    rcases mem_insert h with rfl | h
    · exact hpair
    · exact ih entry h
  exact hall entry h

theorem length_ofList_le (pairs : Entries α) : (ofList pairs).length ≤ pairs.length := by
  simpa [ofList] using length_foldl_insert_le [] pairs

/-- Only pairs with distinct keys keep their number. -/
theorem distinct_of_length_ofList {pairs : Entries α} (h : (ofList pairs).length = pairs.length) :
    pairs.Distinct := by
  have := nodup_of_length_foldl_insert [] pairs (by simp [Distinct, keys]) (by simpa [ofList] using h)
  simpa [Distinct, keys] using this

end Entries

end Dossier
