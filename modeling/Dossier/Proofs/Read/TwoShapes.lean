import Mathlib
import Dossier.Collection

/-!
# Plans read at any moment

A plan keeps two shapes, and one of them gets its sort keys only when it is read. Whatever calls were
made before, and wherever lazy reads stand among them, both ways of reading give the same shape.

* `Entries.keys_ofList`, `Entries.find?_ofList`: entries from pairs, by the first place and the last
  value of every key;
* **`ReadPlan.Call`**, `ReadPlan.after`: the calls on a plan, and the plan after some of them;
* `ReadPlan.Synced`: the invariant of the two shapes, kept by every call (`Synced.perform`);
* `ReadPlan.wanted`: the shape that calls describe, from those after the last reset, with the sort
  keys written out (`sortDocument_eq_wantedSort`);
* `Collection.run_getAll`, `Collection.perform_getAllBlocking`: the two reads of a collection as one
  search;
* **`ReadPlan.readLazily_after`**: the two shapes agree after all calls, and with them the two reads
  of every collection.
-/

namespace Dossier

/-! ## Entries from pairs -/

namespace Entries

variable {α β : Type}

theorem ofList_append_singleton (pairs : Entries α) (pair : String × α) :
    ofList (pairs ++ [pair]) = insert (ofList pairs) pair.1 pair.2 := by
  rw [ofList, List.foldl_append]
  rfl

theorem keys_append_singleton (pairs : Entries α) (pair : String × α) :
    keys (pairs ++ [pair]) = keys pairs ++ [pair.1] := List.map_append

theorem keys_ofList (pairs : Entries α) : keys (ofList pairs) = (keys pairs).eraseDups := by
  induction pairs using List.reverseRecOn with
  | nil => rfl
  | append_singleton pairs pair ih =>
    rw [ofList_append_singleton, keys_insert, keys_append_singleton, List.eraseDups_append, ih]
    simp only [List.mem_eraseDups]
    split
    case isTrue hmem => simp [List.removeAll, hmem]
    case isFalse hmem => simp [List.removeAll, hmem, List.eraseDups_cons]

theorem find?_ofList (pairs : Entries α) (key : String) :
    find? (ofList pairs) key = find? pairs.reverse key := by
  induction pairs using List.reverseRecOn with
  | nil => rfl
  | append_singleton pairs pair ih =>
    rw [ofList_append_singleton, List.reverse_append, List.reverse_singleton,
      List.singleton_append, find?_cons]
    split
    case isTrue h => rw [h, find?_insert_self]
    case isFalse h => rw [find?_insert_of_ne _ h, ih]

theorem insert_map (f : α → β) (entries : Entries α) (key : String) (v : α) :
    insert (entries.map (Prod.map id f)) key (f v) = (insert entries key v).map (Prod.map id f) := by
  induction entries with
  | nil => rfl
  | cons entry rest ih =>
    obtain ⟨k, w⟩ := entry
    by_cases hk : k = key <;> simp_all [insert]

theorem ofList_map (f : α → β) (pairs : Entries α) :
    ofList (pairs.map (Prod.map id f)) = (ofList pairs).map (Prod.map id f) := by
  induction pairs using List.reverseRecOn with
  | nil => rfl
  | append_singleton pairs pair ih =>
    rw [List.map_append, List.map_singleton, ofList_append_singleton, ih, ofList_append_singleton]
    exact insert_map f _ _ _

end Entries

namespace ReadPlan

/-! ## Calls -/

/-- A call on a plan. -/
inductive Call where
  | sort (field : String) (direction : Direction)
  | skip (count : UInt64)
  | limit (count : Int64)
  | select (field : String)
  | reset
  | read
  | readLazily

/-- The plan after a call. -/
def perform (plan : ReadPlan) : Call → ReadPlan
  | .sort field direction => plan.sort field direction
  | .skip count => plan.skip count
  | .limit count => plan.limit count
  | .select field => plan.select field
  | .reset => plan.reset
  | .read => plan
  | .readLazily => plan.readLazily.2

/-- The plan after calls, from the first to the last. -/
def after (calls : List Call) : ReadPlan := calls.foldl perform empty

theorem after_append_singleton (calls : List Call) (call : Call) :
    after (calls ++ [call]) = (after calls).perform call := by
  rw [after, List.foldl_append]
  rfl

/-! ## The invariant -/

/-- The lazy shape is the other one, but for sort keys that are out of date; those are made from the
recorded sort keys. -/
structure Synced (plan : ReadPlan) : Prop where
  skip : plan.lazyShape.skip = plan.shape.skip
  limit : plan.lazyShape.limit = plan.shape.limit
  projection : plan.lazyShape.projection = plan.shape.projection
  upToDate : plan.stale = false → plan.lazyShape.sort = plan.shape.sort
  outOfDate : plan.stale = true → plan.shape.sort = some (sortDocument plan.sorters)

theorem synced_empty : Synced empty := ⟨rfl, rfl, rfl, fun _ => rfl, nofun⟩

variable {plan : ReadPlan}

/-- **A lazy read gives the other shape.** -/
theorem Synced.readLazily_fst (h : plan.Synced) : plan.readLazily.1 = plan.shape := by
  obtain ⟨hskip, hlimit, hprojection, hfresh, hstale⟩ := h
  have hshape : ∀ shape : ReadShape, shape.sort = plan.shape.sort → shape.skip = plan.shape.skip →
      shape.limit = plan.shape.limit → shape.projection = plan.shape.projection →
      shape = plan.shape := by
    rintro ⟨_, _, _, _⟩ rfl rfl rfl rfl
    rfl
  rw [readLazily]
  split
  · rename_i hs
    exact hshape _ (hstale hs).symm hskip hlimit hprojection
  · rename_i hs
    exact hshape _ (hfresh (by simpa using hs)) hskip hlimit hprojection

theorem Synced.readLazily_snd (h : plan.Synced) : plan.readLazily.2.Synced := by
  rw [readLazily]
  split
  · rename_i hs
    exact ⟨h.skip, h.limit, h.projection, fun _ => (h.outOfDate hs).symm, nofun⟩
  · exact h

/-- **Every call keeps the invariant.** -/
theorem Synced.perform (h : plan.Synced) (call : Call) : (plan.perform call).Synced := by
  cases call with
  | sort field direction => exact ⟨h.skip, h.limit, h.projection, nofun, fun _ => rfl⟩
  | skip count => exact ⟨rfl, h.limit, h.projection, h.upToDate, h.outOfDate⟩
  | limit count => exact ⟨h.skip, rfl, h.projection, h.upToDate, h.outOfDate⟩
  | select field => exact ⟨h.skip, h.limit, rfl, h.upToDate, h.outOfDate⟩
  | reset => exact synced_empty
  | read => exact h
  | readLazily => exact h.readLazily_snd

theorem synced_after (calls : List Call) : (after calls).Synced :=
  List.foldlRecOn (motive := Synced) calls perform synced_empty fun _ h call _ => h.perform call

/-! ## What calls describe -/

/-- The calls after the last reset. -/
def sinceReset (calls : List Call) : List Call :=
  calls.foldl (fun kept call => match call with
    | .reset => []
    | call => kept ++ [call]) []

/-- The sort key that a call adds. -/
def Call.sorter? : Call → Option (String × Direction)
  | .sort field direction => some (field, direction)
  | _ => none

/-- The number of documents that a call leaves out. -/
def Call.skip? : Call → Option UInt64
  | .skip count => some count
  | _ => none

/-- The limit that a call sets. -/
def Call.limit? : Call → Option Int64
  | .limit count => some count
  | _ => none

/-- The projection that a call makes: its field, without the identity. -/
def Call.projection? : Call → Option Document
  | .select field => some (Entries.ofList [(field, .int32 1), ("_id", .int32 0)])
  | _ => none

/-- What calls set since the last reset, from the first to the last. -/
def recorded {α : Type} (part : Call → Option α) (calls : List Call) : List α :=
  (sinceReset calls).filterMap part

/-- The direction that a field is sorted in last. -/
def lastDirection? (sorters : List (String × Direction)) (field : String) : Option Direction :=
  Entries.find? sorters.reverse field

/-- A field in a sort document: 1 upwards and -1 downwards, by the last of the sort keys on it. -/
def wantedKey (sorters : List (String × Direction)) (field : String) : String × Value :=
  (field, .int32 (if lastDirection? sorters field = some .descending then -1 else 1))

/-- The sort document that sort keys describe: every field once, where the first key on it stands. -/
def wantedSort (sorters : List (String × Direction)) : Document :=
  (sorters.map Prod.fst).eraseDups.map (wantedKey sorters)

/-- The shape that calls describe: since the last reset, all sort keys, and the last page and
projection. -/
def wanted (calls : List Call) : ReadShape where
  sort :=
    let sorters := recorded Call.sorter? calls
    if sorters = [] then none else some (wantedSort sorters)
  skip := (recorded Call.skip? calls).getLast?
  limit := (recorded Call.limit? calls).getLast?
  projection := (recorded Call.projection? calls).getLast?

/-- A direction in a sort document. -/
def signed (direction : Direction) : Value := .int32 direction.sign

/-- **The compiled sort keys** are those that the recorded ones describe. -/
theorem sortDocument_eq_wantedSort (sorters : List (String × Direction)) :
    sortDocument sorters = wantedSort sorters := by
  have hentry : ∀ entry ∈ Entries.ofList sorters,
      Prod.map id signed entry = wantedKey sorters entry.1 := by
    rintro ⟨field, direction⟩ hentry
    have hlast : lastDirection? sorters field = some direction := by
      rw [lastDirection?, ← Entries.find?_ofList]
      exact Entries.find?_of_mem (Entries.distinct_ofList sorters) hentry
    rw [wantedKey, hlast]
    cases direction <;> rfl
  calc sortDocument sorters = (Entries.ofList sorters).map (Prod.map id signed) :=
        Entries.ofList_map signed sorters
    _ = (Entries.ofList sorters).map fun entry => wantedKey sorters entry.1 :=
        List.map_congr_left hentry
    _ = (Entries.ofList sorters).keys.map (wantedKey sorters) := by
      rw [Entries.keys, List.map_map]
      rfl
    _ = wantedSort sorters := by
      rw [Entries.keys_ofList]
      rfl

theorem recorded_append_reset {α : Type} (part : Call → Option α) (calls : List Call) :
    recorded part (calls ++ [.reset]) = [] := by
  rw [recorded, sinceReset, List.foldl_append]
  rfl

theorem recorded_append_singleton {α : Type} (part : Call → Option α) (calls : List Call)
    {call : Call} (h : call ≠ .reset) :
    recorded part (calls ++ [call]) = recorded part calls ++ (part call).toList := by
  have hsince : sinceReset (calls ++ [call]) = sinceReset calls ++ [call] := by
    rw [sinceReset, List.foldl_append]
    cases call <;> first | rfl | exact absurd rfl h
  rw [recorded, hsince, List.filterMap_append, recorded]
  cases hpart : part call <;> simp [hpart]

theorem readLazily_snd (plan : ReadPlan) :
    plan.readLazily.2.sorters = plan.sorters ∧ plan.readLazily.2.shape = plan.shape := by
  rw [readLazily]
  split <;> exact ⟨rfl, rfl⟩

/-- **The shape is the one that the calls describe.** -/
theorem shape_after (calls : List Call) :
    (after calls).sorters = recorded Call.sorter? calls ∧ (after calls).shape = wanted calls := by
  induction calls using List.reverseRecOn with
  | nil => exact ⟨rfl, rfl⟩
  | append_singleton calls call ih =>
    obtain ⟨hsorters, hshape⟩ := ih
    rw [after_append_singleton]
    by_cases hreset : call = .reset
    · subst hreset
      simp [perform, reset, wanted, recorded_append_reset]
    · have hsnoc {α : Type} (part : Call → Option α) :=
        recorded_append_singleton part calls hreset
      rw [wanted, hsnoc, hsnoc, hsnoc, hsnoc]
      cases call with
      | reset => exact absurd rfl hreset
      | readLazily =>
        obtain ⟨hsorters', hshape'⟩ := readLazily_snd (after calls)
        rw [perform, hsorters', hshape', hsorters, hshape, wanted]
        simp [Call.sorter?, Call.skip?, Call.limit?, Call.projection?]
      | _ =>
        simp [perform, sort, skip, limit, select, hsorters, hshape, wanted, Call.sorter?,
          Call.skip?, Call.limit?, Call.projection?, sortDocument_eq_wantedSort]

end ReadPlan

/-! ## The two reads of a collection -/

namespace Collection

variable {σ δ : Type} [FromValue δ] (c : Collection σ δ) (q : Query) (plan : ReadPlan) (state : σ)

/-- The read that keeps failures to itself is a search with the lazy shape. -/
theorem run_getAll : (c.getAll q plan).run state =
    ((((c.findAll q plan.readLazily.1).perform state).1.toOption).getD [],
      ((c.findAll q plan.readLazily.1).perform state).2) := by
  rw [getAll, StateT.run_bind, Action.perform]
  rcases (c.findAll q plan.readLazily.1).run.run state with ⟨_ | _, _⟩ <;> rfl

/-- The blocking read is a search with the other shape, if the thread may wait. -/
theorem perform_getAllBlocking : (c.getAllBlocking q plan).perform state =
    if c.backend.canBlock then (c.findAll q plan.shape).perform state
    else (.error (.backend (.cannotBlock c.name)), state) := by
  rw [getAllBlocking, blocking]
  split <;> rfl

end Collection

namespace ReadPlan

/-- **The two shapes of a plan never differ when they are read**, whatever calls came before, and
both are what the calls describe. So the two reads of a collection are one search: they leave the
backend in one state, they agree when the blocking read succeeds, and where that fails after its
search, the other gives nothing. -/
theorem readLazily_after (calls : List Call) :
    (after calls).readLazily.1 = (after calls).shape ∧ (after calls).shape = wanted calls ∧
    ∀ {σ δ : Type} [FromValue δ] (c : Collection σ δ) (q : Query) (state : σ),
      (c.backend.canBlock = true → (c.getAll q (after calls)).run state =
        ((((c.getAllBlocking q (after calls)).perform state).1.toOption).getD [],
          ((c.getAllBlocking q (after calls)).perform state).2)) ∧
      ∀ found state', (c.getAllBlocking q (after calls)).perform state = (.ok found, state') →
        (c.getAll q (after calls)).run state = (found, state') := by
  have hread : (after calls).readLazily.1 = (after calls).shape := (synced_after calls).readLazily_fst
  refine ⟨hread, (shape_after calls).2, fun c q state => ?_⟩
  have hsame : c.backend.canBlock = true → (c.getAll q (after calls)).run state =
      ((((c.getAllBlocking q (after calls)).perform state).1.toOption).getD [],
        ((c.getAllBlocking q (after calls)).perform state).2) := by
    intro hblock
    rw [Collection.run_getAll, Collection.perform_getAllBlocking, if_pos hblock, hread]
  refine ⟨hsame, fun found state' hfound => ?_⟩
  have hblock : c.backend.canBlock = true := by
    by_contra hrefused
    rw [Collection.perform_getAllBlocking, if_neg hrefused] at hfound
    cases hfound
  rw [hsame hblock, hfound]
  rfl

/-- A lazy read between two sort calls, and a plan begun anew. -/
example :
    (after [.sort "age" .descending, .readLazily, .sort "name" .ascending, .limit 5]).readLazily.1 =
      { sort := some [("age", .int32 (-1)), ("name", .int32 1)], limit := some 5 } := rfl

end ReadPlan

end Dossier
