import Mathlib
import Dossier.Proofs.Codebook.Registrations

/-!
# Setting up a shared codebook

One codebook is shared by all threads. A call that sets it up looks whether it is ready, lets its hook
register into a staged codebook of its own, and commits that, each of it at another moment. Between
two such moments anything can happen: direct registrations, by the hook too, and other calls.

* **`SetUp.Step`**, `SetUp.Run`: the moments of concurrent calls, in every order;
* `SetUp.State.Sound`: the invariant, kept by every step (`SetUp.Step.sound`);
* **`SetUp.Run.commits_once`**: one call commits, and nothing registered is ever lost;
* `SetUp.Run.exists_setUp`: a call that nothing comes between is `Codebook.setUp`.
-/

namespace Dossier

namespace SetUp

/-! ## Concurrent calls -/

/-- Where a call that sets up the codebook stands. -/
inductive Call where
  /-- Its hook is running; this is what it has staged so far. -/
  | staging (staged : Codebook)
  /-- It has returned, and this is its answer. -/
  | returned (committed : Bool)

/-- Whether a call has committed what it staged. -/
def Call.committed : Call → Bool
  | staging _ => false
  | returned committed => committed

/-- The codebook that the threads share, and all calls that set it up so far, by number. -/
structure State where
  book : Codebook := .empty
  calls : List Call := []

/-- One moment in which a thread looks at the shared codebook, or changes it, or stages something. -/
inductive Event where
  /-- A direct registration and its answer; a hook may make it as well. -/
  | register (r : Registration) (answer : Bool)
  /-- A new call looks whether the codebook is ready. -/
  | begin
  /-- The hook of a call registers into its staged codebook. -/
  | stage (call : Nat) (r : Registration) (answer : Bool)
  /-- A call commits, or finds the codebook ready. -/
  | commit (call : Nat) (answer : Bool)

/-- What can happen at one moment. A commit takes the staged codecs in any order. -/
inductive Step : State → Event → State → Prop where
  | registered {s : State} {r : Registration} {book : Codebook} :
      s.book.register? r = some book → Step s (.register r true) { s with book }
  | refused {s : State} {r : Registration} :
      s.book.register? r = none → Step s (.register r false) s
  | begun {s : State} :
      s.book.ready = false → Step s .begin { s with calls := s.calls ++ [.staging .empty] }
  | late {s : State} :
      s.book.ready = true → Step s .begin { s with calls := s.calls ++ [.returned false] }
  | staged {s : State} {i : Nat} {staged next : Codebook} {r : Registration} :
      s.calls[i]? = some (.staging staged) → staged.register? r = some next →
      Step s (.stage i r true) { s with calls := s.calls.set i (.staging next) }
  | notStaged {s : State} {i : Nat} {staged : Codebook} {r : Registration} :
      s.calls[i]? = some (.staging staged) → staged.register? r = none →
      Step s (.stage i r false) s
  | committed {s : State} {i : Nat} {staged book : Codebook} {codecs : Entries Codec} :
      s.calls[i]? = some (.staging staged) → codecs.Perm staged.codecs →
      s.book.commit { staged with codecs } = some book →
      Step s (.commit i true) { book, calls := s.calls.set i (.returned true) }
  | dropped {s : State} {i : Nat} {staged : Codebook} :
      s.calls[i]? = some (.staging staged) → s.book.commit staged = none →
      Step s (.commit i false) { s with calls := s.calls.set i (.returned false) }

/-- Moments one after the other. -/
inductive Run : State → List Event → State → Prop where
  | nil (s : State) : Run s [] s
  | cons {s t u : State} {e : Event} {events : List Event} :
      Step s e t → Run t events u → Run s (e :: events) u

/-! ## The invariant -/

/-- What holds at every moment: all codebooks are tidy, the shared one is ready just when one call has
committed, and no call returns before that. -/
structure State.Sound (s : State) : Prop where
  tidy : s.book.Tidy
  staging : ∀ staged, .staging staged ∈ s.calls → staged.Tidy
  oneCommit : s.calls.countP Call.committed = s.book.ready.toNat
  returned : ∀ answer, .returned answer ∈ s.calls → s.book.ready = true

theorem State.sound_empty : State.Sound {} := ⟨Codebook.tidy_empty, nofun, rfl, nofun⟩

variable {s t : State} {e : Event} {events : List Event} {i : Nat} {staged : Codebook}

theorem State.Sound.of_call (hs : s.Sound) {book : Codebook} {calls : List Call} {c : Call}
    (hbook : book.Tidy) (hready : s.book.ready = true → book.ready = true)
    (hcalls : ∀ d ∈ calls, d ∈ s.calls ∨ d = c) (hstaging : ∀ staged, c = .staging staged → staged.Tidy)
    (hreturned : ∀ answer, c = .returned answer → book.ready = true)
    (hcommits : calls.countP Call.committed = book.ready.toNat) : State.Sound ⟨book, calls⟩ := by
  refine ⟨hbook, fun staged hmem => ?_, hcommits, fun answer hmem => ?_⟩
  · rcases hcalls _ hmem with hmem | rfl
    · exact hs.staging staged hmem
    · exact hstaging staged rfl
  · rcases hcalls _ hmem with hmem | rfl
    · exact hready (hs.returned answer hmem)
    · exact hreturned answer rfl

theorem mem_append_call {calls : List Call} {c : Call} :
    ∀ d ∈ calls ++ [c], d ∈ calls ∨ d = c := by simp

theorem mem_set_call {calls : List Call} {c : Call} : ∀ d ∈ calls.set i c, d ∈ calls ∨ d = c :=
  fun _ => List.mem_or_eq_of_mem_set

theorem countP_set_call {calls : List Call} (h : calls[i]? = some (.staging staged)) (c : Call) :
    (calls.set i c).countP Call.committed = calls.countP Call.committed + c.committed.toNat := by
  obtain ⟨hi, hcall⟩ := List.getElem?_eq_some_iff.mp h
  rw [List.countP_set hi, hcall]
  cases hc : c.committed <;> simp [Call.committed]

/-- **Every step keeps the invariant.** -/
theorem Step.sound (h : Step s e t) (hs : s.Sound) : t.Sound := by
  cases h with
  | @registered r _ hr =>
    obtain ⟨haccepts, rfl⟩ := Codebook.register?_eq_some.mp hr
    have hready : (s.book.adding r).ready = s.book.ready := by cases r <;> rfl
    exact ⟨hs.tidy.adding haccepts, hs.staging, hready ▸ hs.oneCommit, hready ▸ hs.returned⟩
  | refused => exact hs
  | begun hready =>
    refine hs.of_call hs.tidy id mem_append_call ?_ nofun ?_
    · rintro _ ⟨⟩
      exact Codebook.tidy_empty
    · rw [List.countP_append, hs.oneCommit]
      rfl
  | late hready =>
    refine hs.of_call hs.tidy id mem_append_call nofun (fun _ _ => hready) ?_
    rw [List.countP_append, hs.oneCommit]
    rfl
  | staged hcall hr =>
    obtain ⟨haccepts, rfl⟩ := Codebook.register?_eq_some.mp hr
    have htidy := hs.staging _ (List.mem_of_getElem? hcall)
    refine hs.of_call hs.tidy id mem_set_call ?_ nofun ?_
    · rintro _ ⟨⟩
      exact htidy.adding haccepts
    · rw [countP_set_call hcall, hs.oneCommit]
      rfl
  | notStaged => exact hs
  | @committed _ staged _ codecs hcall _ hcommit =>
    obtain ⟨hready, rfl⟩ := Codebook.commit_eq_some.mp hcommit
    have htidy := hs.tidy.merge { staged with codecs }
    refine hs.of_call ⟨htidy.packs, htidy.codecs, htidy.notEmpty⟩ (fun _ => rfl) mem_set_call nofun
      (fun _ _ => rfl) ?_
    rw [countP_set_call hcall, hs.oneCommit, hready]
    rfl
  | dropped hcall hcommit =>
    refine hs.of_call hs.tidy id mem_set_call nofun
      (fun _ _ => Codebook.commit_eq_none.mp hcommit) ?_
    rw [countP_set_call hcall, hs.oneCommit]
    rfl

/-- **Every step leaves in place what is registered.** -/
theorem Step.book_extends (h : Step s e t) : s.book.Extends t.book := by
  cases h with
  | @registered r _ hr =>
    obtain ⟨-, rfl⟩ := Codebook.register?_eq_some.mp hr
    exact Codebook.extends_adding s.book r
  | committed hcall hperm hcommit =>
    obtain ⟨hready, rfl⟩ := Codebook.commit_eq_some.mp hcommit
    exact ⟨fun _ => rfl, (Codebook.extends_merge s.book _).registered⟩
  | _ => exact .refl s.book

/-- Whether an event is the commit of a call. -/
def Event.commits : Event → Bool
  | commit _ answer => answer
  | _ => false

theorem Step.countP_committed (h : Step s e t) :
    t.calls.countP Call.committed = s.calls.countP Call.committed + e.commits.toNat := by
  cases h with
  | begun | late =>
    rw [List.countP_append]
    rfl
  | staged hcall | committed hcall | dropped hcall => exact countP_set_call hcall _
  | _ => rfl

theorem Step.register_iff {r : Registration} {answer : Bool} (h : Step s (.register r answer) t) :
    (answer = true ↔ t.book = s.book.adding r) ∧ (answer = false ↔ t.book = s.book) := by
  cases h with
  | registered hr =>
    obtain ⟨-, rfl⟩ := Codebook.register?_eq_some.mp hr
    simp [Codebook.adding_ne]
  | refused hr => simp [Codebook.adding_ne.symm]

/-- **A commit** adds what the call has staged under keys that are not taken. -/
theorem Step.registered?_commit (h : Step s (.commit i true) t) (hs : s.Sound) :
    ∃ staged, s.calls[i]? = some (.staging staged) ∧ t.calls[i]? = some (.returned true) ∧
      ∀ k, t.book.registered? k = (s.book.registered? k).or (staged.registered? k) := by
  cases h with
  | @committed _ staged _ _ hcall hperm hcommit =>
    obtain ⟨hready, rfl⟩ := Codebook.commit_eq_some.mp hcommit
    obtain ⟨hi, -⟩ := List.getElem?_eq_some_iff.mp hcall
    have htidy := hs.staging _ (List.mem_of_getElem? hcall)
    refine ⟨staged, hcall, by simp [hi], fun k => ?_⟩
    rw [← Codebook.registered?_of_perm hperm htidy k,
      ← Codebook.registered?_merge s.book (htidy.of_perm hperm) k]
    cases k <;> rfl

/-! ## Runs -/

namespace Run

theorem sound (h : Run s events t) (hs : s.Sound) : t.Sound := by
  induction h with
  | nil => exact hs
  | cons hstep _ ih => exact ih (hstep.sound hs)

theorem book_extends (h : Run s events t) : s.book.Extends t.book := by
  induction h with
  | nil => exact .refl _
  | cons hstep _ ih => exact hstep.book_extends.trans ih

theorem countP_committed (h : Run s events t) :
    t.calls.countP Call.committed = s.calls.countP Call.committed + events.countP Event.commits := by
  induction h with
  | nil => rfl
  | @cons _ _ _ e _ hstep _ ih =>
    rw [ih, hstep.countP_committed, List.countP_cons]
    cases e.commits <;> simp +arith

/-- **The codebook is set up once.** Whatever concurrent calls, their hooks and direct registrations
do, and in whatever order, at most one call commits and returns `true`, and one has as soon as any
call has returned; just then the codebook is ready. Names of packs are distinct. What is registered
stays as it is, and the codebook ready, whatever happens later. A direct registration is answered by
whether it was added, and a commit adds what its call has staged under keys that are not taken. -/
theorem commits_once (h : Run {} events s) :
    s.calls.countP Call.committed ≤ 1 ∧
    events.countP Event.commits = s.calls.countP Call.committed ∧
    ((∃ answer, .returned answer ∈ s.calls) → s.calls.countP Call.committed = 1) ∧
    (s.book.ready = true ↔ s.calls.countP Call.committed = 1) ∧
    (s.book.packs.map Prod.fst).Nodup ∧
    (∀ later t, Run s later t → s.book.Extends t.book) ∧
    (∀ r answer t, Step s (.register r answer) t →
      (answer = true ↔ t.book = s.book.adding r) ∧ (answer = false ↔ t.book = s.book)) ∧
    ∀ i t, Step s (.commit i true) t → ∃ staged, s.calls[i]? = some (.staging staged) ∧
      t.calls[i]? = some (.returned true) ∧
      ∀ k, t.book.registered? k = (s.book.registered? k).or (staged.registered? k) := by
  have hs : s.Sound := h.sound State.sound_empty
  have hcount := h.countP_committed
  have hcommits := hs.oneCommit
  refine ⟨?_, ?_, ?_, ?_, hs.tidy.packs, fun _ _ hlater => hlater.book_extends,
    fun _ _ _ hstep => hstep.register_iff, fun _ _ hstep => hstep.registered?_commit hs⟩
  · rw [hcommits]
    exact Bool.toNat_le _
  · simpa using hcount.symm
  · rintro ⟨answer, hmem⟩
    rw [hcommits, hs.returned answer hmem]
    rfl
  · rw [hcommits]
    cases s.book.ready <;> simp

/-- Two calls stage different codecs for one field while it is registered directly: the direct one
stays, the call that commits first adds what does not collide, and the other returns `false`. -/
theorem commits_once_race :
    ∃ events s, Run {} events s ∧ s.calls.countP Call.committed ≤ 1 ∧
      s.calls[0]? = some (.returned false) ∧ s.calls[1]? = some (.returned true) ∧
      s.book.codecs.map Prod.fst = ["born", "town"] := by
  let direct : Registration := .codec "born" ⟨.ok, .ok⟩
  let other : Registration := .codec "town" ⟨.ok, .ok⟩
  let hidden : Registration := .codec "born" ⟨fun _ => .ok .null, .ok⟩
  have hrun : Run {}
      [.begin, .begin, .stage 0 hidden true, .stage 1 hidden true, .stage 1 other true,
        .register direct true, .commit 1 true, .commit 0 false, .begin]
      ⟨{ Codebook.empty with
          ready := true, codecs := [("born", ⟨.ok, .ok⟩), ("town", ⟨.ok, .ok⟩)] },
        [.returned false, .returned true, .returned false]⟩ :=
    .cons (.begun rfl) <| .cons (.begun rfl) <| .cons (.staged rfl rfl) <|
      .cons (.staged rfl rfl) <| .cons (.staged rfl rfl) <| .cons (.registered rfl) <|
      .cons (.committed rfl (.refl _) rfl) <| .cons (.dropped rfl rfl) <| .cons (.late rfl) (.nil _)
  exact ⟨_, _, hrun, (commits_once hrun).1, rfl, rfl, rfl⟩

variable {u : State} {more : List Event}

theorem trans (h : Run s events t) (h' : Run t more u) : Run s (events ++ more) u := by
  induction h with
  | nil => exact h'
  | cons hstep _ ih => exact .cons hstep (ih h')

theorem exists_stage (book : Codebook) (calls : List Call) (staged : Codebook)
    (rs : List Registration) :
    ∃ events, Run ⟨book, calls ++ [.staging staged]⟩ events
      ⟨book, calls ++ [.staging (staged.registerAll rs)]⟩ := by
  induction rs generalizing staged with
  | nil => exact ⟨[], .nil _⟩
  | cons r rs ih =>
    have hcall : (calls ++ [Call.staging staged])[calls.length]? = some (.staging staged) := by simp
    obtain ⟨hr, heq⟩ | ⟨hr, heq⟩ := Codebook.registerAll_cons staged r rs
    · obtain ⟨events, hrun⟩ := ih (staged.adding r)
      have hstep := Step.staged (s := ⟨book, _⟩) hcall (Codebook.register?_eq_some.mpr ⟨hr, rfl⟩)
      rw [List.set_append_right _ _ le_rfl, Nat.sub_self, List.set_cons_zero] at hstep
      rw [heq]
      exact ⟨_, .cons hstep hrun⟩
    · obtain ⟨events, hrun⟩ := ih staged
      have hstep := Step.notStaged (s := ⟨book, _⟩) hcall (Codebook.register?_eq_none.mpr hr)
      rw [heq]
      exact ⟨_, .cons hstep hrun⟩

/-- **A call that nothing comes between** is `Codebook.setUp`. -/
theorem exists_setUp (s : State) (rs : List Registration) :
    ∃ events, Run s events
      ⟨(s.book.setUp (·.registerAll rs)).getD s.book,
        s.calls ++ [.returned (s.book.setUp (·.registerAll rs)).isSome]⟩ := by
  cases hready : s.book.ready with
  | true => exact ⟨[.begin], by simpa [Codebook.setUp, hready] using .cons (.late hready) (.nil _)⟩
  | false =>
    obtain ⟨events, hstage⟩ := exists_stage s.book s.calls .empty rs
    have hcall : (s.calls ++ [Call.staging (Codebook.empty.registerAll rs)])[s.calls.length]? =
      some (.staging (Codebook.empty.registerAll rs)) := by simp
    have hcommit := Step.committed (s := ⟨s.book, _⟩) hcall (.refl _)
      (Codebook.commit_eq_some.mpr ⟨hready, rfl⟩)
    rw [List.set_append_right _ _ le_rfl, Nat.sub_self, List.set_cons_zero] at hcommit
    have hsetUp : s.book.setUp (·.registerAll rs) =
        some { s.book.merge (Codebook.empty.registerAll rs) with ready := true } := by
      simp [Codebook.setUp, Codebook.commit, hready]
    rw [hsetUp]
    exact ⟨_, .cons (.begun hready) (hstage.trans (.cons hcommit (.nil _)))⟩

end Run

end SetUp

end Dossier
