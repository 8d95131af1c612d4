import Mathlib
import Dossier.Proofs.Codebook.Registered

/-!
# Registrations

A codebook takes packs under names and codecs for paths. Both are registrations under a key, and what
is under a key stays.

* `Registration`, `Codebook.register?`, `Codebook.registered?`: the two registrations as one, and what
  is registered;
* **`Codebook.Tidy`**, **`Codebook.Extends`**: what registrations keep, and what they leave in place;
* `Codebook.registerAll`: of many registrations under one key the first counts
  (`Codebook.registered?_registerAll`);
* **`Codebook.registered?_merge`**: what a merge adds; `Codebook.commit_eq_some`: when it is made.
-/

namespace Dossier

namespace Entries

variable {α : Type} {entries more : Entries α}

theorem find?_append (entries more : Entries α) (key : String) :
    Entries.find? (entries ++ more) key = (entries.find? key).or (more.find? key) := by
  induction entries with
  | nil => rfl
  | cons entry rest ih =>
    rw [List.cons_append, find?_cons, find?_cons, ih]
    split <;> rfl

theorem find?_perm (hp : entries.Perm more) (hd : more.Distinct) (key : String) :
    entries.find? key = more.find? key := by
  have hkeys : entries.keys.Perm more.keys := hp.map Prod.fst
  cases hfind : more.find? key with
  | some v => exact find?_of_mem (hkeys.nodup_iff.mpr hd) (hp.mem_iff.mpr (mem_of_find? hfind))
  | none =>
    rw [find?_eq_none_iff] at hfind ⊢
    exact fun hmem => hfind (hkeys.mem_iff.mp hmem)

end Entries

/-! ## Registrations -/

/-- What a registration takes: the name of a pack, or the path of a field. -/
inductive Registration.Key where
  | pack (name : String)
  | field (path : String)
  deriving DecidableEq

/-- A registration. -/
inductive Registration where
  | policies (name : String) (policies : List Policy)
  | codec (field : String) (codec : Codec)

namespace Registration

/-- The name or path that a registration takes. -/
def key : Registration → Key
  | .policies name _ => .pack name
  | .codec field _ => .field field

/-- Whether a registration lacks a name, policies or a path. -/
def isEmpty : Registration → Bool
  | .policies name pack => name.isEmpty || pack.isEmpty
  | .codec field _ => field.isEmpty

end Registration

namespace Codebook

/-- Registers, if the registration is not refused. -/
def register? (book : Codebook) : Registration → Option Codebook
  | .policies name policies => book.registerPolicies name policies
  | .codec field codec => book.registerCodec field codec

/-- What is registered under a name or for a path. -/
def registered? (book : Codebook) : Registration.Key → Option Registration
  | .pack name => (Entries.find? book.packs name).map (.policies name)
  | .field path => (book.codecs.find? path).map (.codec path)

/-- The codebook with one registration more. -/
def adding (book : Codebook) : Registration → Codebook
  | .policies name policies => { book with packs := book.packs ++ [(name, policies)] }
  | .codec field codec => { book with codecs := book.codecs ++ [(field, codec)] }

/-- Whether a registration is not refused. -/
def Accepts (book : Codebook) (r : Registration) : Prop :=
  r.isEmpty = false ∧ book.registered? r.key = none

variable {book next staged : Codebook} {r : Registration}

theorem register?_eq_some : book.register? r = some next ↔ book.Accepts r ∧ next = book.adding r := by
  cases r with
  | codec field codec =>
    rw [register?, registerCodec_eq_some, ← Entries.find?_eq_none_iff]
    simp [Accepts, Registration.isEmpty, registered?, Registration.key, adding, and_assoc]
  | policies name policies =>
    have hmem : name ∈ book.packs.map Prod.fst ↔ ¬ Entries.find? book.packs name = none := by
      rw [Entries.find?_eq_none_iff, not_not, Entries.keys]
    simp only [register?, registerPolicies, Accepts, Registration.isEmpty, registered?,
      Registration.key, adding, hmem, Option.map_eq_none_iff, Bool.eq_false_iff, ne_eq,
      Bool.or_eq_true]
    split
    case isTrue h => simp only [reduceCtorEq, false_iff]; tauto
    case isFalse h => rw [Option.some.injEq, eq_comm (b := next)]; tauto

theorem register?_eq_none : book.register? r = none ↔ ¬ book.Accepts r := by
  constructor
  · intro h ha
    rw [register?_eq_some.mpr ⟨ha, rfl⟩] at h
    cases h
  · intro h
    cases hr : book.register? r with
    | none => rfl
    | some next => exact absurd (register?_eq_some.mp hr).1 h

theorem adding_ne : book.adding r ≠ book := by
  intro h
  cases r with
  | policies name policies =>
    have hpacks : book.packs ++ [(name, policies)] = book.packs := congrArg packs h
    simp at hpacks
  | codec field codec =>
    have hcodecs : book.codecs ++ [(field, codec)] = book.codecs := congrArg codecs h
    simp at hcodecs

theorem registered?_adding (book : Codebook) (r : Registration) (k : Registration.Key) :
    (book.adding r).registered? k =
      (book.registered? k).or (if r.key = k then some r else none) := by
  cases r <;> cases k <;>
    simp only [adding, registered?, Registration.key, Entries.find?_append, Option.map_or,
      Entries.find?_cons, Entries.find?_nil, Registration.Key.pack.injEq,
      Registration.Key.field.injEq, reduceCtorEq, if_false, Option.or_none]
  all_goals split <;> simp_all

/-- What registrations keep: names and paths that are distinct and not empty, and packs with
policies. -/
structure Tidy (book : Codebook) : Prop where
  packs : Entries.Distinct book.packs
  codecs : book.codecs.Distinct
  notEmpty : ∀ k r, book.registered? k = some r → r.isEmpty = false

theorem tidy_empty : Tidy empty :=
  ⟨List.nodup_nil, List.nodup_nil, fun k r h => by cases k <;> cases h⟩

theorem Tidy.adding (h : book.Tidy) (hr : book.Accepts r) : (book.adding r).Tidy := by
  obtain ⟨hempty, hnone⟩ := hr
  have hnotEmpty : ∀ k s, (book.adding r).registered? k = some s → s.isEmpty = false := by
    intro k s hs
    rw [registered?_adding, Option.or_eq_some_iff] at hs
    obtain hs | ⟨-, hs⟩ := hs
    · exact h.notEmpty k s hs
    · split at hs
      · cases hs
        exact hempty
      · cases hs
  cases r with
  | policies name policies =>
    have hmem := Entries.find?_eq_none_iff.mp (Option.map_eq_none_iff.mp hnone)
    exact ⟨Entries.distinct_append_singleton.mpr ⟨h.packs, hmem⟩, h.codecs, hnotEmpty⟩
  | codec field codec =>
    have hmem := Entries.find?_eq_none_iff.mp (Option.map_eq_none_iff.mp hnone)
    exact ⟨h.packs, Entries.distinct_append_singleton.mpr ⟨h.codecs, hmem⟩, hnotEmpty⟩

/-- Whether another codebook has all that is registered, and is ready if this one is. -/
structure Extends (book next : Codebook) : Prop where
  ready : book.ready = true → next.ready = true
  registered : ∀ k r, book.registered? k = some r → next.registered? k = some r

theorem Extends.refl (book : Codebook) : Extends book book := ⟨id, fun _ _ => id⟩

theorem Extends.trans {last : Codebook} (h : book.Extends next) (h' : next.Extends last) :
    book.Extends last :=
  ⟨fun hr => h'.ready (h.ready hr), fun k r hk => h'.registered k r (h.registered k r hk)⟩

theorem extends_adding (book : Codebook) (r : Registration) : book.Extends (book.adding r) where
  ready := by cases r <;> exact id
  registered k s hk := by rw [registered?_adding, hk, Option.some_or]

/-! ## Many registrations -/

/-- Registers one after the other; what is refused is left out. -/
def registerAll (book : Codebook) (rs : List Registration) : Codebook :=
  rs.foldl (fun book r => (book.register? r).getD book) book

/-- The registrations that a codebook holds. -/
def registrations (staged : Codebook) : List Registration :=
  staged.packs.map (fun pack => .policies pack.1 pack.2) ++
    staged.codecs.map fun entry => .codec entry.1 entry.2

theorem merge_eq (book staged : Codebook) :
    book.merge staged = book.registerAll staged.registrations := by
  rw [registerAll, registrations, List.foldl_append, List.foldl_map, List.foldl_map]
  rfl

theorem registerAll_cons (book : Codebook) (r : Registration) (rs : List Registration) :
    (book.Accepts r ∧ book.registerAll (r :: rs) = (book.adding r).registerAll rs) ∨
      (¬ book.Accepts r ∧ book.registerAll (r :: rs) = book.registerAll rs) := by
  rw [registerAll, List.foldl_cons]
  by_cases hr : book.Accepts r
  · rw [register?_eq_some.mpr ⟨hr, rfl⟩]
    exact .inl ⟨hr, rfl⟩
  · rw [register?_eq_none.mpr hr]
    exact .inr ⟨hr, rfl⟩

theorem Tidy.registerAll (h : book.Tidy) (rs : List Registration) : (book.registerAll rs).Tidy := by
  induction rs generalizing book with
  | nil => exact h
  | cons r rs ih =>
    obtain ⟨hr, heq⟩ | ⟨-, heq⟩ := registerAll_cons book r rs
    · rw [heq]
      exact ih (h.adding hr)
    · rw [heq]
      exact ih h

/-- Of several registrations under one key the first counts, and none if the key is taken. -/
theorem registered?_registerAll (book : Codebook) {rs : List Registration}
    (hrs : ∀ r ∈ rs, r.isEmpty = false) (k : Registration.Key) :
    (book.registerAll rs).registered? k =
      (book.registered? k).or (rs.find? fun r => r.key = k) := by
  induction rs generalizing book with
  | nil => exact (Option.or_none).symm
  | cons r rs ih =>
    rw [List.forall_mem_cons] at hrs
    obtain ⟨hr, heq⟩ | ⟨hr, heq⟩ := registerAll_cons book r rs
    · rw [heq, ih _ hrs.2, registered?_adding, List.find?_cons, Option.or_assoc]
      by_cases hk : r.key = k <;> simp [hk]
    · rw [heq, ih _ hrs.2, List.find?_cons]
      by_cases hk : r.key = k
      · -- A refused registration that is not empty finds its key taken.
        subst hk
        obtain ⟨s, hs⟩ := Option.ne_none_iff_exists'.mp fun hnone => hr ⟨hrs.1, hnone⟩
        rw [hs, Option.some_or, Option.some_or]
      · simp [hk]

theorem extends_registerAll (book : Codebook) (rs : List Registration) :
    book.Extends (book.registerAll rs) := by
  induction rs generalizing book with
  | nil => exact .refl book
  | cons r rs ih =>
    obtain ⟨-, heq⟩ | ⟨-, heq⟩ := registerAll_cons book r rs
    · rw [heq]
      exact (extends_adding book r).trans (ih _)
    · rw [heq]
      exact ih book

theorem find?_registrations (staged : Codebook) (k : Registration.Key) :
    (staged.registrations.find? fun r => r.key = k) = staged.registered? k := by
  have hfind {α : Type} (entries : Entries α) (make : String → α → Registration)
      (name : String) (hk : ∀ n a, (make n a).key = k ↔ n = name) :
      (entries.map fun entry => make entry.1 entry.2).find? (fun r => r.key = k) =
        (entries.find? name).map (make name) := by
    induction entries with
    | nil => rfl
    | cons entry rest ih =>
      rw [List.map_cons, List.find?_cons, ih, Entries.find?_cons]
      by_cases hn : entry.1 = name
      · simp [hk, hn]
      · simp [hk, hn]
  have hother {α : Type} (entries : Entries α) (make : String → α → Registration)
      (hk : ∀ n a, (make n a).key ≠ k) :
      (entries.map fun entry => make entry.1 entry.2).find? (fun r => r.key = k) = none := by
    simp [List.find?_eq_none, hk]
  rw [registrations, List.find?_append]
  cases k with
  | pack name =>
    rw [hfind staged.packs .policies name (by simp [Registration.key]),
      hother staged.codecs .codec (by simp [Registration.key]), Option.or_none, registered?]
  | field path =>
    rw [hother staged.packs .policies (by simp [Registration.key]),
      hfind staged.codecs .codec path (by simp [Registration.key]), Option.none_or, registered?]

theorem isEmpty_of_mem_registrations (h : staged.Tidy) :
    ∀ r ∈ staged.registrations, r.isEmpty = false := by
  have hmem {α : Type} {entries : Entries α} (hd : entries.Distinct) (entry : String × α)
      (he : entry ∈ entries) : entries.find? entry.1 = some entry.2 := Entries.find?_of_mem hd he
  intro r hr
  rcases List.mem_append.mp hr with hr | hr
  · obtain ⟨pack, hpack, rfl⟩ := List.mem_map.mp hr
    exact h.notEmpty (.pack pack.1) _ (by rw [registered?, hmem h.packs pack hpack]; rfl)
  · obtain ⟨entry, hentry, rfl⟩ := List.mem_map.mp hr
    exact h.notEmpty (.field entry.1) _ (by rw [registered?, hmem h.codecs entry hentry]; rfl)

/-- **A merge** adds what is registered in the staged codebook under keys that are not taken. -/
theorem registered?_merge (book : Codebook) (h : staged.Tidy) (k : Registration.Key) :
    (book.merge staged).registered? k = (book.registered? k).or (staged.registered? k) := by
  rw [merge_eq, registered?_registerAll book (isEmpty_of_mem_registrations h),
    find?_registrations]

theorem Tidy.merge (h : book.Tidy) (staged : Codebook) : (book.merge staged).Tidy := by
  rw [merge_eq]
  exact h.registerAll _

theorem extends_merge (book staged : Codebook) : book.Extends (book.merge staged) := by
  rw [merge_eq]
  exact extends_registerAll book _

theorem commit_eq_some : book.commit staged = some next ↔
    book.ready = false ∧ next = { book.merge staged with ready := true } := by
  rw [commit]
  cases book.ready <;> simp [eq_comm]

theorem commit_eq_none : book.commit staged = none ↔ book.ready = true := by
  rw [commit]
  cases book.ready <;> simp

theorem registered?_of_perm {codecs : Entries Codec} (hp : codecs.Perm staged.codecs)
    (h : staged.Tidy) (k : Registration.Key) :
    ({ staged with codecs } : Codebook).registered? k = staged.registered? k := by
  cases k with
  | pack name => rfl
  | field path => rw [registered?, registered?, Entries.find?_perm hp h.codecs]

theorem Tidy.of_perm {codecs : Entries Codec} (hp : codecs.Perm staged.codecs) (h : staged.Tidy) :
    ({ staged with codecs } : Codebook).Tidy where
  packs := h.packs
  codecs := (hp.map Prod.fst).nodup_iff.mpr h.codecs
  notEmpty k r hr := h.notEmpty k r (registered?_of_perm hp h k ▸ hr)

end Codebook

end Dossier
