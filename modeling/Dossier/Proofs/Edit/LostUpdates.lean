import Mathlib
import Dossier.Proofs.Edit.Elements
import Dossier.Proofs.Value.Reflexive

/-!
# Lost updates of array elements

Several calls in one query lose their updates unless all of them are for one element.

* `ElementCall.within?_oneByOne`, **`ElementCall.oneByOne_ne`**: one by one, calls change the element
  of the first of them;
* `Value.marked`: an element that no call writes;
* **`ElementCall.Separate`**: calls on arrays none of which lies inside another one, and
  `ElementCall.Separate.exists_document`, a document with one element in each of them;
* **`ElementCall.edit_batch_eq_oneByOne_iff`**: a query of calls does on every document what the
  calls do one by one iff their identities are confused with each other.
-/

namespace Dossier

namespace ElementCall

/-! ## Lone elements -/

theorem exists_edit_lone {call : ElementCall} (hplain : Path.Plain call.path) {d : Document}
    {w : Value} (h : (Value.document d).within? call.path = some (.array [w])) :
    ∃ d', ((batch [call]).edit d).map Prod.fst = .ok d' ∧
      (Value.document d').within? call.path = some (.array [call.overwritten w]) := by
  have hbindings : ((batch [call]).scope d).bindingsOf "elem" = [call.binding] := by
    rw [bindingsOf_batch, if_pos rfl]
    rfl
  obtain ⟨d', hd'⟩ : ∃ d', (Value.document d).putWithin call.path (.array [call.overwritten w]) =
      .document d' :=
    Value.putWithin_document d (Dotted.segments_ne_nil call.element.array) _
  have hedit := Query.map_fst_edit (batch [call]) d
  have hupdates : (batch [call]).updates = [call.update] := rfl
  rw [hupdates, List.foldlM_cons, Query.step, edit_update hplain h, edit_items hbindings] at hedit
  refine ⟨d', ?_, ?_⟩
  · rw [hedit]
    simp [Except.map, bind, Except.bind, pure, Except.pure, hd', Value.fields?]
  · rw [← hd']
    exact Value.within?_putWithin (Value.clear_of_within? h) _

/-- Calls one by one, each on the array at `p` or apart from it, leave there one element: the one
that was there, or the value of a call. -/
theorem within?_oneByOne {calls : List ElementCall} {p : Path} {d d' : Document} {w : Value}
    (hplain : ∀ call ∈ calls, Path.Plain call.path)
    (hp : ∀ call ∈ calls, call.path = p ∨ Path.Apart call.path p)
    (h : (Value.document d).within? p = some (.array [w]))
    (hd : Query.oneByOne (calls.map fun call => batch [call]) d = .ok d') :
    ∃ w', (Value.document d').within? p = some (.array [w']) ∧
      (w' = w ∨ ∃ call ∈ calls, w' = call.value) := by
  refine foldlM_keeps (P := fun d => ∃ w', (Value.document d).within? p = some (.array [w']) ∧
    (w' = w ∨ ∃ call ∈ calls, w' = call.value)) ?_ ⟨w, h, .inl rfl⟩ hd
  rintro e single next hm ⟨w', hw', hor⟩ hedit
  obtain ⟨call, hc, rfl⟩ := List.mem_map.mp hm
  obtain rfl | hapart := hp call hc
  · obtain ⟨e', he', hwithin⟩ := exists_edit_lone (hplain call hc) hw'
    rw [he'] at hedit
    cases hedit
    refine ⟨_, hwithin, ?_⟩
    rw [overwritten]
    split
    · exact .inr ⟨call, hc, rfl⟩
    · exact hor
  · obtain ⟨⟨next', changed⟩, hchanged, rfl⟩ := map_eq_ok.mp hedit
    have havoids : ∀ u ∈ (batch [call]).updates, u.Avoids p := by
      intro u hu
      obtain rfl := List.mem_singleton.mp hu
      exact ⟨_, _, by rw [ofPath_update, (hplain call hc).map_ofSegment], hapart⟩
    exact ⟨w', by rw [Query.within?_edit_of_avoids havoids hchanged, hw'], hor⟩

theorem oneByOne_ne {first : ElementCall} {rest : List ElementCall} {d : Document} {w : Value}
    (hplain : ∀ call ∈ first :: rest, Path.Plain call.path)
    (hp : ∀ call ∈ rest, call.path = first.path ∨ Path.Apart call.path first.path)
    (h : (Value.document d).within? first.path = some (.array [w]))
    (haccept : Binding.allAccept [first.binding] w = true) (hsame : w.same first.value = false)
    (hne : ∀ call ∈ first :: rest, w ≠ call.value) :
    Query.oneByOne ((first :: rest).map fun call => batch [call]) d ≠ .ok d := by
  intro hd
  rw [List.forall_mem_cons] at hplain hne
  obtain ⟨next, hnext, hwithin⟩ := exists_edit_lone hplain.1 h
  have hover : first.overwritten w = first.value := by
    rw [overwritten, haccept, hsame]
    rfl
  rw [hover] at hwithin
  rw [Query.oneByOne, List.map_cons, List.foldlM_cons, hnext] at hd
  obtain ⟨w', hw', hor⟩ := within?_oneByOne hplain.2 hp hwithin hd
  rw [h] at hw'
  cases hw'
  obtain rfl | ⟨call, hc, rfl⟩ := hor
  · exact hne.1 rfl
  · exact hne.2 call hc rfl

end ElementCall

/-! ## Documents to tell queries apart -/

namespace Value

/-- An element of a given identity with a mark of a given length. -/
def marked (a : Identity) (n : ℕ) : Value :=
  document [("_id", a.toValue), ("mark", string (String.ofList (List.replicate n 'x')))]

/-- The length of the mark of an element. -/
def markLength : Value → ℕ
  | document fields =>
    match Entries.find? fields "mark" with
    | some (string text) => text.length
    | _ => 0
  | _ => 0

theorem markLength_marked (a : Identity) (n : ℕ) : (marked a n).markLength = n := by
  have hfind : Entries.find? [("_id", a.toValue),
      ("mark", string (String.ofList (List.replicate n 'x')))] "mark" =
      some (string (String.ofList (List.replicate n 'x'))) := rfl
  rw [marked, markLength, hfind]
  simp

theorem markLength_of_same {a : Identity} {n : ℕ} {v : Value} (h : (marked a n).same v = true) :
    v.markLength = n := by
  cases v
  case document gs =>
    rw [marked, same, Bool.and_eq_true, sameFields_iff] at h
    obtain ⟨w, hw, hsame⟩ := h.2 ("mark", string (String.ofList (List.replicate n 'x'))) (by simp)
    cases w
    case string text =>
      rw [same, beq_iff_eq] at hsame
      rw [markLength, hw, ← hsame]
      simp
    all_goals cases hsame
  all_goals cases h

theorem wellFormed_marked (a : Identity) (n : ℕ) : (marked a n).WellFormed := by
  have hid : a.toValue.WellFormed := wellFormed_of_isAtom (by cases a <;> rfl)
  have hmark : (string (String.ofList (List.replicate n 'x'))).WellFormed :=
    wellFormed_of_isAtom rfl
  simp [marked, Entries.Distinct, Entries.keys, hid, hmark]

theorem exists_marked (a : Identity) (values : List Value) :
    ∃ n, ∀ v ∈ values, (marked a n).same v = false ∧ marked a n ≠ v := by
  refine ⟨(values.map markLength).sum + 1, fun v hv => ?_⟩
  have hle : v.markLength ≤ (values.map markLength).sum :=
    List.single_le_sum (fun _ _ => Nat.zero_le _) _ (List.mem_map_of_mem hv)
  constructor
  · rw [Bool.eq_false_iff]
    intro h
    have := markLength_of_same h
    omega
  · rintro rfl
    rw [markLength_marked] at hle
    omega

end Value

namespace ElementCall

variable {calls : List ElementCall}

theorem allAccept_marked (call : ElementCall) (n : ℕ) :
    Binding.allAccept [call.binding] (.marked call.element.id n) = true := by
  rw [Value.marked, allAccept_singleton, accepts_binding_iff]
  exact ⟨_, rfl, (Identity.alike_toValue_iff _ _).mpr (.refl _)⟩

/-- Calls on plain array paths, none of which properly begins another. -/
structure Separate (calls : List ElementCall) : Prop where
  plain : ∀ call ∈ calls, Path.Plain call.path
  eq_of_begins : ∀ call ∈ calls, ∀ other ∈ calls, call.path <+: other.path →
    call.element.array = other.element.array

namespace Separate

theorem eq_or_apart (h : Separate calls) {call other : ElementCall} (hc : call ∈ calls)
    (ho : other ∈ calls) :
    call.element.array = other.element.array ∨ Path.Apart call.path other.path := by
  by_cases heq : call.element.array = other.element.array
  · exact .inl heq
  · refine .inr ⟨fun hp => heq (h.eq_of_begins call hc other ho hp), fun hp => heq ?_⟩
    exact (h.eq_of_begins other ho call hc hp).symm

theorem exists_document (h : Separate calls) {w : Value} (hw : w.WellFormed) :
    ∃ d : Document, d.WellFormed ∧
      ∀ call ∈ calls, (Value.document d).within? call.path = some (.array [w]) := by
  obtain ⟨arrays, harrays⟩ : ∃ arrays, arrays = (calls.map (·.element.array)).dedup := ⟨_, rfl⟩
  have hmem {array : String} : array ∈ arrays ↔ ∃ call ∈ calls, call.element.array = array := by
    rw [harrays, List.mem_dedup, List.mem_map]
  obtain ⟨es, hes⟩ : ∃ es, es = arrays.map fun array => (array, Value.array [w]) := ⟨_, rfl⟩
  have hfst : es.map Prod.fst = arrays := by simp [hes, Function.comp_def]
  have hplain : ∀ e ∈ es, Path.Plain (Dotted.segments e.1) := by
    rw [hes, List.forall_mem_map]
    intro array ha
    obtain ⟨call, hc, rfl⟩ := hmem.mp ha
    exact h.plain call hc
  have hapart : PathsApart (es.map Prod.fst) := by
    rw [hfst]
    have hnodup : arrays.Nodup := harrays ▸ List.nodup_dedup _
    refine hnodup.pairwise_of_forall_ne fun a ha b hb hne => ?_
    obtain ⟨call, hc, rfl⟩ := hmem.mp ha
    obtain ⟨other, ho, rfl⟩ := hmem.mp hb
    exact (h.eq_or_apart hc ho).resolve_left hne
  obtain ⟨d, -, hwithin, hwell⟩ :=
    @Query.exists_described { conditions := es.map .equality } es rfl hplain hapart
  refine ⟨d, hwell ?_, fun call hc => ?_⟩
  · rw [hes, List.forall_mem_map]
    exact fun _ _ => Value.wellFormed_array.mpr (by simpa using hw)
  · exact hwithin (call.element.array, .array [w])
      (hes ▸ List.mem_map_of_mem (hmem.mpr ⟨call, hc, rfl⟩))

end Separate

/-- **A query of calls does what the calls do one by one**, on every document that has the arrays,
iff all their identities are confused with each other; and just then every binding of the query
accepts what the binding of one call accepts. -/
theorem edit_batch_eq_oneByOne_iff (hcalls : Separate calls) :
    ∃ q singles, recordAll? calls = some q ∧
      calls.mapM (fun call => recordAll? [call]) = some singles ∧
      ((∀ d : Document, d.WellFormed →
          (∀ call ∈ calls, ∃ items, d.at? call.path = some (.array items)) →
          (q.edit d).map Prod.fst = Query.oneByOne singles d) ↔
        ∀ call ∈ calls, ∀ other ∈ calls, call.element.id.Confused other.element.id) ∧
      ((∀ call ∈ calls, Binding.allAccept q.bindings = Binding.allAccept [call.binding]) ↔
        ∀ call ∈ calls, ∀ other ∈ calls, call.element.id.Confused other.element.id) := by
  refine ⟨_, _, recordAll?_eq calls, mapM_recordAll? calls, ⟨fun h => ?_, fun h => ?_⟩,
    allAccept_eq_iff calls⟩
  · by_contra hnot
    obtain ⟨first, rest, rfl⟩ : ∃ first rest, calls = first :: rest := by
      cases calls with
      | nil => exact absurd nofun hnot
      | cons first rest => exact ⟨first, rest, rfl⟩
    -- on a document with an element of the first call, which no call writes, only the calls one by
    -- one make a change
    obtain ⟨n, hn⟩ := Value.exists_marked first.element.id ((first :: rest).map value)
    rw [List.forall_mem_map] at hn
    obtain ⟨d, hd, hwithin⟩ :=
      hcalls.exists_document (Value.wellFormed_marked first.element.id n)
    have hone := h d hd fun call hc =>
      ⟨_, Document.at?_of_within? (Dotted.segments_ne_nil _) (hwithin call hc)⟩
    have hbatch := edit_batch_of_not_confused hcalls.plain hnot fun call hc => ⟨_, hwithin call hc⟩
    rw [hbatch] at hone
    have hapart : ∀ call ∈ rest, call.path = first.path ∨ Path.Apart call.path first.path :=
      fun call hc => (hcalls.eq_or_apart (List.mem_cons_of_mem _ hc) List.mem_cons_self).imp_left
        (congrArg Dotted.segments)
    exact oneByOne_ne hcalls.plain hapart (hwithin first List.mem_cons_self)
      (allAccept_marked first n) (hn first List.mem_cons_self).1 (fun call hc => (hn call hc).2)
      hone.symm
  · intro d _ _
    exact edit_batch_of_confused h d

/-- Two calls for two lines of an order. -/
def twoLines : List ElementCall :=
  [⟨⟨"lines", .integer 1⟩, .int32 10⟩, ⟨⟨"lines", .integer 2⟩, .int32 20⟩]

/-- Some document tells the query of two calls from the calls one by one. -/
theorem edit_two_lines_ne :
    ∃ q singles, recordAll? twoLines = some q ∧
      twoLines.mapM (fun call => recordAll? [call]) = some singles ∧
      ∃ d : Document, d.WellFormed ∧ (q.edit d).map Prod.fst ≠ Query.oneByOne singles d := by
  obtain ⟨q, singles, hq, hsingles, hiff, -⟩ :=
    @edit_batch_eq_oneByOne_iff twoLines ⟨by decide, by decide⟩
  refine ⟨q, singles, hq, hsingles, ?_⟩
  by_contra hnone
  have hconfused := hiff.mp fun d hd _ => by
    by_contra hne
    exact hnone ⟨d, hd, hne⟩
  have : (Identity.integer 1).Confused (.integer 2) :=
    hconfused _ List.mem_cons_self _ (List.mem_cons_of_mem _ List.mem_cons_self)
  revert this
  simp only [Identity.Confused]
  decide

/-- An order with two lines. -/
def twoLineOrder : Document :=
  [("_id", .int32 1),
    ("lines", .array [.document [("_id", .int64 1)], .document [("_id", .int64 2)]])]

/-- One query of both calls leaves the order as it is; the calls one by one change both lines. -/
theorem edit_two_lines_lost :
    (recordAll? twoLines).map (fun q => (q.edit twoLineOrder).map Prod.fst) =
        some (.ok twoLineOrder) ∧
      (twoLines.mapM fun call => recordAll? [call]).map (Query.oneByOne · twoLineOrder) =
        some (.ok [("_id", .int32 1), ("lines", .array [.int32 10, .int32 20])]) :=
  ⟨rfl, rfl⟩

end ElementCall

end Dossier
