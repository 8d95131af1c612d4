import Mathlib
import Dossier.Collection
import Dossier.Proofs.Memory.Writes

/-!
# The only match

A collection looks for its only match in a read of at most two documents. That is enough to tell no
match, one match and more of them apart.

* `OnlyMatch`, `SeveralMatches`: beside `NoMatch`, what a query can accept of some documents
  (`filter_accepts_eq_singleton`, `exists_filter_accepts_eq_cons_cons`);
* `Collection.settle`, `Collection.settle_take_two`: the answer that matches give, and that the first
  two of them give already;
* `Memory.find_twoAtMost`, `Collection.perform_get`: what is read, and what is answered;
* **`Collection.get_exact`**: the answer tells the three cases apart, and nothing is changed.
-/

namespace Dossier

/-! ## One match, and several -/

/-- Whether a query accepts `found`, and none of the documents before and after it. -/
def OnlyMatch (q : Query) (documents : List Document) (found : Document) : Prop :=
  ∃ before after, FirstMatch q documents before found after ∧ NoMatch q after

/-- Whether a query accepts two or more of the documents, wherever they are. -/
def SeveralMatches (q : Query) (documents : List Document) : Prop :=
  ∃ before found between other after, documents = before ++ found :: (between ++ other :: after) ∧
    q.accepts found = true ∧ q.accepts other = true

section Matches

variable {q : Query} {documents : List Document} {found : Document}

theorem Query.accepts_iff {d : Document} :
    q.accepts d = true ↔ ∀ c ∈ q.conditions, c.holds d = true := Condition.allHold_iff

theorem filter_accepts_eq_nil : documents.filter q.accepts = [] ↔ NoMatch q documents := by
  simp [NoMatch, List.filter_eq_nil_iff]

theorem filter_accepts_eq_cons {rest : List Document} :
    documents.filter q.accepts = found :: rest ↔
      ∃ before after, FirstMatch q documents before found after ∧ after.filter q.accepts = rest := by
  rw [List.filter_eq_cons_iff]
  refine exists_congr fun before => exists_congr fun after => ?_
  constructor
  · rintro ⟨hsplit, hbefore, hfound, hrest⟩
    exact ⟨⟨hsplit, hfound, fun d hd => Bool.eq_false_iff.mpr (hbefore d hd)⟩, hrest⟩
  · rintro ⟨hfirst, hrest⟩
    exact ⟨hfirst.split, fun d hd => Bool.eq_false_iff.mp (hfirst.first d hd), hfirst.accepts, hrest⟩

theorem filter_accepts_eq_singleton :
    documents.filter q.accepts = [found] ↔ OnlyMatch q documents found := by
  rw [filter_accepts_eq_cons]
  simp only [filter_accepts_eq_nil, OnlyMatch]

theorem exists_filter_accepts_eq_cons_cons :
    (∃ found other rest, documents.filter q.accepts = found :: other :: rest) ↔
      SeveralMatches q documents := by
  constructor
  · rintro ⟨found, other, rest, h⟩
    obtain ⟨before, after, hfirst, hafter⟩ := filter_accepts_eq_cons.mp h
    obtain ⟨between, back, hsecond, -⟩ := filter_accepts_eq_cons.mp hafter
    refine ⟨before, found, between, other, back, ?_, hfirst.accepts, hsecond.accepts⟩
    rw [hfirst.split, hsecond.split]
  · rintro ⟨before, found, between, other, after, rfl, hfound, hother⟩
    have hmany : 2 ≤ ((before ++ found :: (between ++ other :: after)).filter q.accepts).length := by
      simp only [List.filter_append, List.filter_cons_of_pos, hfound, hother, List.length_append,
        List.length_cons]
      omega
    match h : (before ++ found :: (between ++ other :: after)).filter q.accepts with
    | found :: other :: rest => exact ⟨found, other, rest, rfl⟩
    | [_] | [] => simp [h] at hmany

end Matches

/-! ## The answer -/

theorem Action.perform_bind {σ α β : Type} (action : Action σ α) (f : α → Action σ β) (state : σ) :
    (action >>= f).perform state = match action.perform state with
      | (.ok a, next) => (f a).perform next
      | (.error cause, next) => (.error cause, next) := by
  rw [perform, ExceptT.run_bind, StateT.run_bind, perform]
  rcases action.run.run state with ⟨_ | _, _⟩ <;> rfl

theorem Memory.find_twoAtMost (memory : Memory) (q : Query) (name : String) :
    memory.find q Collection.twoAtMost name =
      ((memory.documents name).filter q.accepts).take 2 := by
  have hcut : Collection.twoAtMost.cut = id := rfl
  rw [find, ReadShape.read, hcut, List.map_id]
  rfl

namespace Collection

variable {σ δ : Type} [FromValue δ]

/-- The answer that all matches give: nothing, the only one, or a failure. -/
def settle (c : Collection σ δ) : List Document → Except StoreError (Option δ)
  | [] => .ok none
  | [d] => (c.book.fromStored d).map some
  | _ => .error (.multipleResults c.name)

/-- **Two matches are enough** to tell one match from more. -/
theorem settle_take_two (c : Collection σ δ) (found : List Document) :
    c.settle (found.take 2) = c.settle found := by
  match found with
  | [] | [_] | _ :: _ :: _ => rfl

section Settle

variable {c : Collection σ δ} {found : List Document}

theorem settle_eq_none : c.settle found = .ok none ↔ found = [] := by
  match found with
  | [] | _ :: _ :: _ => simp [settle]
  | [d] =>
    rw [settle]
    cases (c.book.fromStored d : Except StoreError δ) <;> simp [Except.map]

theorem settle_eq_some {a : δ} :
    c.settle found = .ok (some a) ↔ ∃ d, found = [d] ∧ c.book.fromStored d = .ok a := by
  match found with
  | [] | _ :: _ :: _ => simp [settle]
  | [d] =>
    rw [settle]
    cases h : (c.book.fromStored d : Except StoreError δ) <;> simp [Except.map, h]

theorem settle_eq_error {cause : StoreError} :
    c.settle found = .error cause ↔
      ((∃ d e rest, found = d :: e :: rest) ∧ cause = .multipleResults c.name) ∨
        ∃ d, found = [d] ∧ (c.book.fromStored d : Except StoreError δ) = .error cause := by
  match found with
  | [] => simp [settle]
  | _ :: _ :: _ => simp [settle, eq_comm]
  | [d] =>
    rw [settle]
    cases h : (c.book.fromStored d : Except StoreError δ) <;> simp [Except.map, h]

end Settle

theorem perform_restore (c : Collection σ δ) (d : Document) (state : σ) :
    (c.restore d : Action σ δ).perform state = (c.book.fromStored d, state) := rfl

theorem perform_get (c : Collection σ δ) {q : Query} {state next : σ} {found : List Document}
    (h : (c.backend.find q twoAtMost c.name).perform state = (.ok found, next)) :
    (c.get q).perform state = (c.settle found, next) := by
  rw [get, Action.perform_bind, h]
  match found with
  | [] | _ :: _ :: _ => rfl
  | [d] =>
    dsimp only
    rw [Action.perform_bind, perform_restore, settle]
    cases (c.book.fromStored d : Except StoreError δ) <;> rfl

/-- **A collection in memory tells its only match apart.** A query accepts the documents that satisfy
all its conditions. The answer is nothing iff it accepts none of those stored, the document that the
stored one holds iff it accepts just that one, and a failure that names the collection iff it accepts
two or more, wherever they are, or a failure to decode the only one. The state stays as it is. -/
theorem get_exact (book : Codebook) (name : String) (q : Query) (memory : Memory) :
    let c : Collection Memory δ := .named book Memory.backend name
    let stored := memory.documents (LowerCase.lower name)
    let done := (c.get q).perform memory
    (∀ d, q.accepts d = true ↔ ∀ condition ∈ q.conditions, condition.holds d = true) ∧
    (done.1 = .ok none ↔ NoMatch q stored) ∧
    (∀ a, done.1 = .ok (some a) ↔ ∃ d, OnlyMatch q stored d ∧ book.fromStored d = .ok a) ∧
    (∀ cause, done.1 = .error cause ↔
      (SeveralMatches q stored ∧ cause = .multipleResults (LowerCase.lower name)) ∨
        ∃ d, OnlyMatch q stored d ∧ (book.fromStored d : Except StoreError δ) = .error cause) ∧
    ((∀ d ∈ stored, q.accepts d = true → ∃ a : δ, book.fromStored d = .ok a) →
      (done.1 = .error (.multipleResults (LowerCase.lower name)) ↔ SeveralMatches q stored)) ∧
    done.2 = memory ∧ (c.blocking (c.get q)).perform memory = done := by
  intro c stored done
  have hread : (c.backend.find q twoAtMost c.name).perform memory =
      (.ok ((stored.filter q.accepts).take 2), memory) := by
    rw [← Memory.find_twoAtMost]
    rfl
  have hdone : done = (c.settle (stored.filter q.accepts), memory) := by
    rw [← settle_take_two]
    exact c.perform_get hread
  have herror (cause : StoreError) : done.1 = .error cause ↔
      (SeveralMatches q stored ∧ cause = .multipleResults (LowerCase.lower name)) ∨
        ∃ d, OnlyMatch q stored d ∧ (book.fromStored d : Except StoreError δ) = .error cause := by
    rw [hdone, settle_eq_error, exists_filter_accepts_eq_cons_cons]
    simp only [filter_accepts_eq_singleton]
    rfl
  refine ⟨fun d => Query.accepts_iff, ?_, fun a => ?_, herror, fun hdecodes => ?_, ?_, rfl⟩
  · rw [hdone, settle_eq_none, filter_accepts_eq_nil]
  · rw [hdone, settle_eq_some]
    simp only [filter_accepts_eq_singleton]
    rfl
  · rw [herror]
    constructor
    · rintro (⟨hseveral, -⟩ | ⟨d, ⟨before, after, hfirst, -⟩, hfailed⟩)
      · exact hseveral
      · -- the only match decodes
        obtain ⟨a, ha⟩ := hdecodes d (by simp [hfirst.split]) hfirst.accepts
        rw [ha] at hfailed
        cases hfailed
    · exact fun hseveral => .inl ⟨hseveral, rfl⟩
  · rw [hdone]

/-- The second match is the last document of all. -/
example :
    let notes : List Document := [[("mark", .int32 1)], [("mark", .int32 2)], [("mark", .int64 1)]]
    let c : Collection Memory Document := .named {} Memory.backend "Notes"
    let marked (n : Int32) : Query := { conditions := [.compare "mark" .equals (.int32 n)] }
    let answer (q : Query) := ((c.get q).perform { collections := [("notes", notes)] }).1
    answer (marked 1) = .error (.multipleResults "notes") ∧
      answer (marked 2) = .ok (some [("mark", .int32 2)]) ∧ answer (marked 3) = .ok none :=
  ⟨rfl, rfl, rfl⟩

end Collection

end Dossier
