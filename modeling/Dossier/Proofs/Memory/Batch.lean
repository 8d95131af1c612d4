import Dossier.Collection
import Dossier.Proofs.Memory.Writes

/-!
# Batches in memory

A batch is prepared as a whole and then performed write by write.

* `Write.Refused`, `Write.Stored`: the two outcomes of preparing a write, and
  **`Collection.mapM_prepare_cases`** for a batch;
* **`Write.Does`**, `Write.Fails`: what a write does to documents, with its count, and when it fails;
* **`Write.Runs`**: writes one after the other;
* `Memory.writeOne_cases`, **`Memory.writeAll_cases`**: a batch is such a run, up to its first failure;
* **`Collection.writeBatch_oneByOne`**: the whole story of a batch.
-/

namespace Dossier

/-! ## Preparing -/

namespace Write

variable {δ : Type} [ToValue δ]

/-- A write that a batch is refused for: an update without updates, or a document without a stored
form. -/
inductive Refused (book : Codebook) : Write δ → StoreError → Prop
  | update {q : Query} : q.updates = [] → Refused book (.update q) (.invalidAccessor .withoutUpdates)
  | replace {q : Query} {a : δ} {cause : StoreError} :
      book.toStored a = .error cause → Refused book (.replace q a) cause
  | create {a : δ} {cause : StoreError} :
      book.toStored a = .error cause → Refused book (.create a) cause

/-- A write and the same write with the stored form of its document. -/
inductive Stored (book : Codebook) : Write δ → Write Document → Prop
  | delete {q : Query} : Stored book (.delete q) (.delete q)
  | replace {q : Query} {a : δ} {d : Document} :
      book.toStored a = .ok d → Stored book (.replace q a) (.replace q d)
  | update {q : Query} : q.updates ≠ [] → Stored book (.update q) (.update q)
  | create {a : δ} {d : Document} : book.toStored a = .ok d → Stored book (.create a) (.create d)

theorem Stored.not_refused {book : Codebook} {w : Write δ} {w' : Write Document}
    (h : w.Stored book w') (cause : StoreError) : ¬ w.Refused book cause := by
  intro hr
  cases h with
  | delete => cases hr
  | replace hd =>
    cases hr with
    | replace he => rw [hd] at he; cases he
  | update hq =>
    cases hr with
    | update hnil => exact hq hnil
  | create hd =>
    cases hr with
    | create he => rw [hd] at he; cases he

theorem Stored.rightUnique (book : Codebook) :
    Relator.RightUnique (fun (w : Write δ) w' => w.Stored book w') := by
  intro w w' w'' h h'
  cases h with
  | delete =>
    cases h'
    rfl
  | replace hd =>
    cases h' with
    | replace hd' =>
      rw [hd] at hd'
      cases hd'
      rfl
  | update =>
    cases h'
    rfl
  | create hd =>
    cases h' with
    | create hd' =>
      rw [hd] at hd'
      cases hd'
      rfl

end Write

namespace Collection

variable {δ : Type} [ToValue δ]

theorem prepare_cases (book : Codebook) (w : Write δ) :
    (∃ w', w.Stored book w' ∧ prepare book w = .ok w') ∨
      (∃ cause, w.Refused book cause ∧ prepare book w = .error cause) := by
  cases w with
  | delete q => exact .inl ⟨_, .delete, rfl⟩
  | replace q a =>
    have hprepare : prepare book (.replace q a) = (book.toStored a).map (Write.replace q) := rfl
    rw [hprepare]
    cases hd : book.toStored a with
    | ok d => exact .inl ⟨_, .replace hd, rfl⟩
    | error cause => exact .inr ⟨cause, .replace hd, rfl⟩
  | update q =>
    have hprepare : prepare book (.update q : Write δ) =
        (requireUpdates q >>= fun _ => .ok (.update q)) := rfl
    rw [hprepare, requireUpdates]
    split
    case isTrue hempty => exact .inr ⟨_, .update (List.isEmpty_iff.mp hempty), rfl⟩
    case isFalse hempty => exact .inl ⟨_, .update fun h => hempty (List.isEmpty_iff.mpr h), rfl⟩
  | create a =>
    have hprepare : prepare book (.create a) = (book.toStored a).map Write.create := rfl
    rw [hprepare]
    cases hd : book.toStored a with
    | ok d => exact .inl ⟨_, .create hd, rfl⟩
    | error cause => exact .inr ⟨cause, .create hd, rfl⟩

/-- **A batch is prepared** write by write, or refused for the first write that is. -/
theorem mapM_prepare_cases (book : Codebook) (batch : Batch δ) :
    (∃ stored, List.Forall₂ (Write.Stored book) batch stored ∧
      List.mapM (prepare book) batch = .ok stored) ∨
    (∃ before w after cause, batch = before ++ w :: after ∧
      (∀ v ∈ before, ∃ v', v.Stored book v') ∧ w.Refused book cause ∧
      List.mapM (prepare book) batch = .error cause) := by
  induction batch with
  | nil => exact .inl ⟨[], .nil, rfl⟩
  | cons w rest ih =>
    rw [List.mapM_cons]
    obtain ⟨w', hw, hprepare⟩ | ⟨cause, hw, hprepare⟩ := prepare_cases book w
    · rw [hprepare]
      obtain ⟨stored, hrest, hall⟩ | ⟨before, v, after, cause, rfl, hbefore, hv, hall⟩ := ih
      · rw [hall]
        exact .inl ⟨w' :: stored, .cons hw hrest, rfl⟩
      · rw [hall]
        refine .inr ⟨w :: before, v, after, cause, rfl, ?_, hv, rfl⟩
        exact List.forall_mem_cons.mpr ⟨⟨w', hw⟩, hbefore⟩
    · rw [hprepare]
      exact .inr ⟨[], w, rest, cause, rfl, fun v hv => absurd hv List.not_mem_nil, hw, rfl⟩

theorem not_refused_of_forall₂ {book : Codebook} {batch : Batch δ} {stored : List (Write Document)}
    (h : List.Forall₂ (Write.Stored book) batch stored) :
    ∀ w ∈ batch, ∀ cause, ¬ w.Refused book cause := by
  have hboth : List.Forall₂ (fun w w' => (∀ cause, ¬ w.Refused book cause) ∧ w.Stored book w')
      batch stored := h.imp fun _ _ hw => ⟨hw.not_refused, hw⟩
  exact ((List.forall₂_and_left batch stored).mp hboth).1

end Collection

/-! ## One write -/

namespace Write

/-- The query of a write that looks for a document. -/
def filter? {δ : Type} : Write δ → Option Query
  | .delete q | .replace q _ | .update q => some q
  | .create _ => none

/-- What takes the place of `old` when it is replaced by `given`: this, with the identity of `old`. -/
inductive Replacement (given old : Document) : Document → Prop
  | identified {id : Value} :
      old.find? "_id" = some id → Replacement given old (given.insert "_id" id)
  | anonymous : old.find? "_id" = none → Replacement given old given

/-- **What a write does to documents**, with the number of those that it modifies or deletes. It acts
on the first match; without a match it does nothing. -/
inductive Does : Write Document → List Document → Nat → List Document → Prop
  | created (d : Document) (documents : List Document) :
      Does (.create d) documents 0 (documents ++ [d])
  | deleted {q : Query} {documents before after : List Document} {old : Document} :
      FirstMatch q documents before old after → Does (.delete q) documents 1 (before ++ after)
  | replaced {q : Query} {documents before after : List Document} {given old new : Document} :
      FirstMatch q documents before old after → Replacement given old new →
      Does (.replace q given) documents (!old.same new).toNat (before ++ new :: after)
  | updated {q : Query} {documents before after : List Document} {old new : Document}
      {changed : Bool} :
      FirstMatch q documents before old after → q.edit old = .ok (new, changed) →
      Does (.update q) documents changed.toNat (before ++ new :: after)
  | unmatched {w : Write Document} {q : Query} {documents : List Document} :
      w.filter? = some q → NoMatch q documents → Does w documents 0 documents

/-- Whether a write fails: an update does when it cannot edit the first match, and nothing else. -/
inductive Fails : Write Document → List Document → UpdateError → Prop
  | update {q : Query} {documents before after : List Document} {old : Document}
      {cause : UpdateError} :
      FirstMatch q documents before old after → q.edit old = .error cause →
      Fails (.update q) documents cause

/-- Writes one after the other, each with its count. -/
inductive Runs : List (Write Document) → List Document → List Nat → List Document → Prop
  | nil (documents : List Document) : Runs [] documents [] documents
  | cons {w : Write Document} {rest : List (Write Document)}
      {documents documents' documents'' : List Document} {count : Nat} {counts : List Nat} :
      w.Does documents count documents' → Runs rest documents' counts documents'' →
      Runs (w :: rest) documents (count :: counts) documents''

end Write

namespace Memory

theorem replacement_successor (given old : Document) :
    Write.Replacement given old (successor old given) := by
  rw [successor]
  cases hid : old.find? "_id" with
  | none => exact .anonymous hid
  | some id => exact .identified hid

/-- **A write of a batch** does what it should, or fails. -/
theorem writeOne_cases (documents : List Document) (w : Write Document) :
    (∃ count documents', writeOne documents w = .ok (count, documents') ∧
      w.Does documents count documents') ∨
    (∃ cause, writeOne documents w = .error cause ∧ w.Fails documents cause) := by
  cases w with
  | create d => exact .inl ⟨_, _, rfl, .created d documents⟩
  | delete q =>
    rw [writeOne, deleteFirst]
    cases hs : splitFirst q.accepts documents with
    | none => exact .inl ⟨_, _, rfl, .unmatched rfl (splitFirst_eq_none.mp hs)⟩
    | some split => exact .inl ⟨_, _, rfl, .deleted (.of_splitFirst hs)⟩
  | replace q given =>
    rw [writeOne, replaceFirst]
    cases hs : splitFirst q.accepts documents with
    | none => exact .inl ⟨_, _, rfl, .unmatched rfl (splitFirst_eq_none.mp hs)⟩
    | some split =>
      obtain ⟨before, old, after⟩ := split
      have hdoes := Write.Does.replaced (.of_splitFirst hs) (replacement_successor given old)
      refine .inl ⟨_, _, rfl, ?_⟩
      cases hsame : old.same (successor old given) <;> simpa [hsame, Outcome.ofCount] using hdoes
  | update q =>
    rw [writeOne, updateFirst?]
    cases hs : splitFirst q.accepts documents with
    | none => exact .inl ⟨_, _, rfl, .unmatched rfl (splitFirst_eq_none.mp hs)⟩
    | some split =>
      obtain ⟨before, old, after⟩ := split
      cases hedit : q.edit old with
      | error cause =>
        refine .inr ⟨cause, ?_, .update (.of_splitFirst hs) hedit⟩
        simp only [hedit]
        rfl
      | ok result =>
        refine .inl ⟨_, _, ?_, .updated (.of_splitFirst hs) hedit⟩
        simp only [hedit]
        rfl

/-! ## A batch -/

/-- **The writes of a batch** do what they should one after the other, up to the first that fails. -/
theorem writeAll_cases (affected : Nat) (documents : List Document) (batch : List (Write Document)) :
    (∃ counts documents', Write.Runs batch documents counts documents' ∧
      writeAll affected documents batch = (.ok (affected + counts.sum), documents')) ∨
    (∃ before w after counts documents' cause, batch = before ++ w :: after ∧
      Write.Runs before documents counts documents' ∧ w.Fails documents' cause ∧
      writeAll affected documents batch = (.error cause, documents')) := by
  induction batch generalizing affected documents with
  | nil => exact .inl ⟨[], documents, .nil documents, rfl⟩
  | cons w rest ih =>
    rw [writeAll]
    obtain ⟨count, next, hone, hdoes⟩ | ⟨cause, hone, hfails⟩ := writeOne_cases documents w
    · simp only [hone]
      obtain ⟨counts, final, hruns, hresult⟩ |
        ⟨before, v, after, counts, final, cause, rfl, hruns, hfails, hresult⟩ :=
        ih (affected + count) next
      · refine .inl ⟨count :: counts, final, .cons hdoes hruns, ?_⟩
        rw [hresult, List.sum_cons, Nat.add_assoc]
      · exact .inr ⟨w :: before, v, after, count :: counts, final, cause, rfl,
          .cons hdoes hruns, hfails, hresult⟩
    · simp only [hone]
      exact .inr ⟨[], w, rest, [], documents, cause, rfl, .nil documents, hfails, rfl⟩

/-- Whether `memory'` is `memory` with `documents` in one collection. -/
structure Rewritten (memory : Memory) (name : String) (documents : List Document)
    (memory' : Memory) : Prop where
  documents : memory'.documents name = documents
  others : ∀ other, other ≠ name → memory'.documents other = memory.documents other
  supply : memory'.supply = memory.supply

theorem rewritten_setDocuments (memory : Memory) (name : String) (documents : List Document) :
    memory.Rewritten name documents (memory.setDocuments name documents) where
  documents := documents_setDocuments_self memory name documents
  others _ hne := documents_setDocuments_of_ne memory hne.symm documents
  supply := rfl

theorem write_cases (memory : Memory) (batch : List (Write Document)) (name : String) :
    ∃ documents', memory.Rewritten name documents' (memory.write batch name).2 ∧
      ((∃ counts, Write.Runs batch (memory.documents name) counts documents' ∧
        (memory.write batch name).1 = .ok (.ofCount counts.sum)) ∨
      (∃ before w after counts cause, batch = before ++ w :: after ∧
        Write.Runs before (memory.documents name) counts documents' ∧ w.Fails documents' cause ∧
        (memory.write batch name).1 = .error cause)) := by
  refine ⟨_, rewritten_setDocuments memory name _, ?_⟩
  obtain ⟨counts, documents', hruns, hall⟩ |
    ⟨before, w, after, counts, documents', cause, hsplit, hruns, hfails, hall⟩ :=
    writeAll_cases 0 (memory.documents name) batch
  · refine .inl ⟨counts, ?_, ?_⟩
    · rwa [hall]
    · rw [write, hall, Nat.zero_add]
      rfl
  · refine .inr ⟨before, w, after, counts, cause, hsplit, ?_, ?_, ?_⟩
    · rwa [hall]
    · rwa [hall]
    · rw [write, hall]
      rfl

end Memory

namespace Collection

variable {δ : Type} [ToValue δ]

theorem perform_writeBatch_of_error {name : String} {book : Codebook} {batch : Batch δ}
    {cause : StoreError} (hbatch : batch ≠ []) (h : List.mapM (prepare book) batch = .error cause)
    (memory : Memory) :
    (writeBatch ⟨name, book, Memory.backend⟩ batch).perform memory = (.error cause, memory) := by
  rw [writeBatch, if_neg (by simpa using hbatch), h]
  rfl

theorem perform_writeBatch_of_ok {name : String} {book : Codebook} {batch : Batch δ}
    {stored : List (Write Document)} (hbatch : batch ≠ [])
    (h : List.mapM (prepare book) batch = .ok stored) (memory : Memory) :
    (writeBatch ⟨name, book, Memory.backend⟩ batch).perform memory =
      (Memory.raise (memory.write stored name).1, (memory.write stored name).2) := by
  rw [writeBatch, if_neg (by simpa using hbatch), h]
  rfl

/-- **A batch does what its writes do one by one.** An empty batch changes nothing. A batch with a
write that cannot be prepared fails for the first such write and changes nothing. Any other batch
performs its writes in order, in its own collection alone: all of them, and it vouches for the sum of
their counts, or those before the first that fails, with its failure. -/
theorem writeBatch_oneByOne (name : String) (book : Codebook) (batch : Batch δ) (memory : Memory) :
    let result := (writeBatch ⟨name, book, Memory.backend⟩ batch).perform memory
    (batch = [] → result = (.ok ⟨true, 0⟩, memory)) ∧
    ((∃ w ∈ batch, ∃ cause, w.Refused book cause) →
      ∃ before w after cause, batch = before ++ w :: after ∧
        (∀ v ∈ before, ∀ cause, ¬ v.Refused book cause) ∧ w.Refused book cause ∧
        result = (.error cause, memory)) ∧
    (batch ≠ [] → (∀ w ∈ batch, ∀ cause, ¬ w.Refused book cause) →
      ∃ stored documents, List.Forall₂ (Write.Stored book) batch stored ∧
        memory.Rewritten name documents result.2 ∧
        ((∃ counts, Write.Runs stored (memory.documents name) counts documents ∧
          result.1 = .ok ⟨true, counts.sum⟩) ∨
        (∃ before w after counts cause, stored = before ++ w :: after ∧
          Write.Runs before (memory.documents name) counts documents ∧ w.Fails documents cause ∧
          result.1 = .error (.backend (.update cause))))) := by
  intro result
  refine ⟨?_, ?_, ?_⟩
  · rintro rfl
    rfl
  · rintro ⟨w, hw, cause, hrefused⟩
    have hbatch : batch ≠ [] := List.ne_nil_of_mem hw
    obtain ⟨stored, hstored, -⟩ | ⟨before, v, after, cause', hsplit, hbefore, hv, hall⟩ :=
      mapM_prepare_cases book batch
    · exact absurd hrefused (not_refused_of_forall₂ hstored w hw cause)
    · refine ⟨before, v, after, cause', hsplit, ?_, hv, perform_writeBatch_of_error hbatch hall memory⟩
      intro u hu
      obtain ⟨u', hu'⟩ := hbefore u hu
      exact hu'.not_refused
  · intro hbatch hprepared
    obtain ⟨stored, hstored, hall⟩ | ⟨before, v, after, cause', rfl, -, hv, -⟩ :=
      mapM_prepare_cases book batch
    · have hperform : result = _ := perform_writeBatch_of_ok hbatch hall memory
      obtain ⟨documents, hrewritten, hwrite⟩ := Memory.write_cases memory stored name
      refine ⟨stored, documents, hstored, by rwa [hperform], ?_⟩
      obtain ⟨counts, hruns, hresult⟩ |
        ⟨before, w, after, counts, cause, hsplit, hruns, hfails, hresult⟩ := hwrite
      · refine .inl ⟨counts, hruns, ?_⟩
        rw [hperform, hresult]
        rfl
      · refine .inr ⟨before, w, after, counts, cause, hsplit, hruns, hfails, ?_⟩
        rw [hperform, hresult]
        rfl
    · exact absurd hv (hprepared v (by simp) cause')

/-- A batch stopped in the middle: its second write appends to a number. The deletion before it stays
done, and nothing is created after it. -/
theorem writeBatch_stopped :
    let append : Query := { updates := [⟨"n", .append .null⟩] }
    let batch : Batch Document := [.delete .empty, .update append, .create [("n", .int32 3)]]
    let memory : Memory :=
      { collections := [("numbers", [[("n", .int32 1)], [("n", .int32 2)]])] }
    let result := (writeBatch ⟨"numbers", {}, Memory.backend⟩ batch).perform memory
    batch ≠ [] ∧ (∀ w ∈ batch, ∀ cause, ¬ w.Refused {} cause) ∧
      ∃ counts, Write.Runs [.delete .empty] (memory.documents "numbers") counts [[("n", .int32 2)]] ∧
        Write.Fails (.update append) [[("n", .int32 2)]] (.notAnArray .addToArray "n") ∧
        result.1 = .error (.backend (.update (.notAnArray .addToArray "n"))) ∧
        result.2.documents "numbers" = [[("n", .int32 2)]] := by
  intro append batch memory result
  have hbatch : batch ≠ [] := List.cons_ne_nil _ _
  have hupdates : append.updates ≠ [] := List.cons_ne_nil _ _
  have hstored : List.Forall₂ (Write.Stored {}) batch
      [.delete .empty, .update append, .create [("n", .int32 3)]] :=
    .cons .delete (.cons (.update hupdates) (.cons (.create rfl) .nil))
  have hprepared := not_refused_of_forall₂ hstored
  have herror : result.1 = .error (.backend (.update (.notAnArray .addToArray "n"))) := rfl
  have hdocuments : result.2.documents "numbers" = [[("n", .int32 2)]] := rfl
  refine ⟨hbatch, hprepared, ?_⟩
  obtain ⟨stored, documents, hstored', hrewritten, ⟨counts, -, hresult⟩ |
    ⟨before, w, after, counts, cause, hsplit, hruns, hfails, hresult⟩⟩ :=
    (writeBatch_oneByOne "numbers" {} batch memory).2.2 hbatch hprepared
  · rw [herror] at hresult
    cases hresult
  · rw [herror] at hresult
    cases hresult
    rw [hrewritten.documents] at hdocuments
    subst hdocuments
    rw [(Write.Stored.rightUnique {}).forall₂ hstored' hstored] at hsplit
    cases hfails with
    | update hfirst hedit =>
      -- the update is the second of the three writes
      rcases before with _ | ⟨v, _ | ⟨v', _ | ⟨v'', before⟩⟩⟩ <;> simp at hsplit
      obtain ⟨rfl, rfl, -⟩ := hsplit
      exact ⟨counts, hruns, .update hfirst hedit, herror, hrewritten.documents⟩

end Collection

end Dossier
