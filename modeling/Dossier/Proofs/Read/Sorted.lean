import Mathlib
import Dossier.Proofs.Read.Transitive
import Dossier.Proofs.Value.Exact

/-!
# Sorted reads

A sorted read is a stable sort of the matching documents by their sort keys in turn. Numbers are
compared by their nearest doubles, so that it is not one by exact numbers when keys share a double.

* **`StableSort`**: the same elements in order, equal ones as before; `stableSort_mergeSort`;
* `Document.OneKind`: sort keys that are blank or of one ordered kind, which are in order
  (`OneKind.not_mixes`);
* `ReadPlan.lexicographicExactly`: the order by sort keys in turn, numbers compared as they are;
* **`ReadShape.sorts_lexicographic`**: on keys of one kind, sorted reads are stable sorts by the nearest
  doubles. They are stable sorts by the exact numbers iff no two keys of a field are confused.
-/

namespace Dossier

/-! ## Stable sorts -/

/-- A list with the elements of another one in the order of `cmp`, where those that are equal to an
element stand as in the other one. -/
structure StableSort {α : Type} (cmp : α → α → Ordering) (before sorted : List α) : Prop where
  perm : sorted.Perm before
  pairwise : sorted.Pairwise fun a b => (cmp a b).isLE = true
  stable : ∀ a ∈ before, (sorted.filter fun b => cmp a b == .eq) = before.filter fun b => cmp a b == .eq

section StableSort

variable {α β : Type} {cmp cmp' : α → α → Ordering} {before sorted : List α}

/-- **Merge sort is stable**: elements that are equal to one are in order already. -/
theorem stableSort_mergeSort [Std.TransCmp cmp] (before : List α) :
    StableSort cmp before (before.mergeSort fun a b => (cmp a b).isLE) := by
  have htrans (a b c : α) : (cmp a b).isLE = true → (cmp b c).isLE = true → (cmp a c).isLE = true :=
    Std.TransCmp.isLE_trans
  have htotal (a b : α) : ((cmp a b).isLE || (cmp b a).isLE) = true := by
    have hswap : cmp b a = (cmp a b).swap := Std.OrientedCmp.eq_swap
    rw [hswap]
    cases cmp a b <;> rfl
  have hperm := List.mergeSort_perm before fun a b => (cmp a b).isLE
  refine ⟨hperm, List.pairwise_mergeSort htrans htotal before, fun a _ => ?_⟩
  have hequal : (before.filter fun b => cmp a b == .eq).Pairwise fun b c => (cmp b c).isLE = true := by
    refine List.pairwise_of_forall_mem_list fun b hb c hc => ?_
    have hab : cmp a b = .eq := by simpa using (List.mem_filter.mp hb).2
    have hac : cmp a c = .eq := by simpa using (List.mem_filter.mp hc).2
    rw [Std.TransCmp.eq_trans (Std.OrientedCmp.eq_symm hab) hac]
    rfl
  have hsublist := (List.sublist_mergeSort htrans htotal hequal List.filter_sublist).filter
    fun b => cmp a b == .eq
  simp only [List.filter_filter, Bool.and_self] at hsublist
  exact (hsublist.eq_of_length (hperm.filter _).length_eq.symm).symm

theorem StableSort.map {f : β → α} {before sorted : List β}
    (h : StableSort (fun a b => cmp (f a) (f b)) before sorted) :
    StableSort cmp (before.map f) (sorted.map f) where
  perm := h.perm.map f
  pairwise := List.pairwise_map.mpr h.pairwise
  stable a ha := by
    obtain ⟨b, hb, rfl⟩ := List.mem_map.mp ha
    rw [List.filter_map, List.filter_map]
    exact congrArg (List.map f) (h.stable b hb)

theorem StableSort.congr (hcmp : ∀ a ∈ before, ∀ b ∈ before, cmp a b = cmp' a b)
    (h : StableSort cmp before sorted) : StableSort cmp' before sorted where
  perm := h.perm
  pairwise := h.pairwise.imp_of_mem fun ha hb hle => by
    rwa [← hcmp _ (h.perm.mem_iff.mp ha) _ (h.perm.mem_iff.mp hb)]
  stable a ha := by
    have hclass {b : α} (hb : b ∈ before) : (cmp' a b == .eq) = (cmp a b == .eq) := by
      rw [hcmp a ha b hb]
    rw [List.filter_congr fun b hb => hclass hb,
      List.filter_congr fun b hb => hclass (h.perm.mem_iff.mp hb)]
    exact h.stable a ha

end StableSort

/-! ## Sort keys -/

namespace Document

variable {S : Set Document} {field : String} {order : Document}

/-- Whether the sort keys of documents in a field are missing, null or all of one ordered kind. -/
def OneKind (S : Set Document) (field : String) : Prop :=
  ∃ kind, ∀ d ∈ S, ∀ v, d.sortKey field = some v → v = .null ∨ v.orderedKind? = some kind

theorem OneKind.not_mixes (h : OneKind S field) : ¬ Mixes S field := by
  rintro ⟨a, ha, b, hb, c, hc, x, y, z, hx, hy, hz, hxy, hnull, hnone⟩
  obtain ⟨kind, hkind⟩ := h
  have hxnull : x ≠ .null := by
    rintro rfl
    cases hxy
  obtain ⟨ordering, hordering⟩ := Value.exists_compare? ((hkind a ha x hx).resolve_left hxnull)
    ((hkind c hc z hz).resolve_left hnull)
  rw [hnone] at hordering
  cases hordering

theorem stableSort_sortDocuments (h : ∀ entry ∈ order, ¬ Mixes S entry.1)
    {documents : List Document} (hmem : ∀ d ∈ documents, d ∈ S) :
    StableSort order.compareBy documents (sortDocuments order documents) := by
  lift documents to List S using hmem
  have htrans := transCmp_compareWithin h
  have hmap : (documents.mergeSort fun d e => (compareWithin S order d e).isLE).map Subtype.val =
      sortDocuments order (documents.map Subtype.val) := List.map_mergeSort fun _ _ _ _ => rfl
  rw [← hmap]
  exact StableSort.map (f := Subtype.val) (@stableSort_mergeSort _ _ htrans documents)

end Document

/-- The order of two sort keys, numbers compared as they are. Missing and null come first. -/
def compareKeysExactly (left right : Option Value) : Ordering :=
  match isBlankKey left, isBlankKey right with
  | true, true => .eq
  | true, false => .lt
  | false, true => .gt
  | false, false => (left.bind fun v => right.bind v.compareExactly?).getD .eq

theorem compareKeysExactly_eq {left right : Option Value}
    (h : ∀ v w, left = some v → right = some w → ¬ v.Confused w) :
    compareKeysExactly left right = compareKeys left right := by
  unfold compareKeysExactly compareKeys
  cases isBlankKey left <;> cases isBlankKey right <;> try rfl
  cases left with
  | none => rfl
  | some v =>
    cases right with
    | none => rfl
    | some w => exact congrArg (Option.getD · .eq) (Value.compareExactly?_eq (h v w rfl rfl))

theorem compareKeysExactly_of_number? {v w : Value} {m n : ℤ} (hv : v.number? = some m)
    (hw : w.number? = some n) : compareKeysExactly (some v) (some w) = compare m n := by
  rw [compareKeysExactly, isBlankKey_some (Value.ne_null_of_number? hv),
    isBlankKey_some (Value.ne_null_of_number? hw)]
  exact congrArg (Option.getD · .eq) (Value.compareExactly?_of_number? hv hw)

namespace ReadPlan

/-- The order of two documents by sort keys in turn, numbers compared as they are. -/
def lexicographicExactly : Entries Direction → Document → Document → Ordering
  | [], _, _ => .eq
  | (field, direction) :: rest, d, e =>
    (direction.orient (compareKeysExactly (d.sortKey field) (e.sortKey field))).then
      (lexicographicExactly rest d e)

end ReadPlan

namespace ReadShape

open ReadPlan

/-- The shape of a read of everything, sorted. -/
def sortedBy (sorters : Entries Direction) : ReadShape :=
  { sort := some (sorters.map (Prod.map id signed)) }

theorem read_sortedBy (sorters : Entries Direction) (q : Query) (documents : List Document) :
    (sortedBy sorters).read q documents =
      sortDocuments (sorters.map (Prod.map id signed)) (documents.filter q.accepts) :=
  List.map_id _

/-- Whether all reads that are sorted by some of the fields, and in which only documents of a set match,
are stable sorts of the matching documents in an order. -/
def Sorts (S : Set Document) (fields : List String)
    (cmp : Entries Direction → Document → Document → Ordering) : Prop :=
  ∀ (sorters : Entries Direction) (q : Query) (documents : List Document),
    (∀ sorter ∈ sorters, sorter.1 ∈ fields) → (∀ d ∈ documents, q.accepts d = true → d ∈ S) →
      StableSort (cmp sorters) (documents.filter q.accepts) ((sortedBy sorters).read q documents)

variable {S : Set Document} {fields : List String}

/-- **Sorted reads are stable sorts** by the nearest doubles. -/
theorem sorts_of_oneKind (hkinds : ∀ field ∈ fields, Document.OneKind S field) :
    Sorts S fields lexicographic := by
  intro sorters q documents hfields hmem
  have hmix : ∀ entry ∈ sorters.map (Prod.map id signed), ¬ Document.Mixes S entry.1 := by
    intro entry hentry
    obtain ⟨sorter, hsorter, rfl⟩ := List.mem_map.mp hentry
    exact (hkinds _ (hfields sorter hsorter)).not_mixes
  have hmatching : ∀ d ∈ documents.filter q.accepts, d ∈ S := fun d hd =>
    hmem d (List.mem_filter.mp hd).1 (List.mem_filter.mp hd).2
  rw [read_sortedBy]
  refine (Document.stableSort_sortDocuments hmix hmatching).congr fun d _ e _ => ?_
  exact compareBy_map_signed sorters d e

theorem lexicographicExactly_eq {sorters : Entries Direction} {d e : Document}
    (h : ∀ sorter ∈ sorters, ∀ v w, d.sortKey sorter.1 = some v → e.sortKey sorter.1 = some w →
      ¬ v.Confused w) : lexicographicExactly sorters d e = lexicographic sorters d e := by
  induction sorters with
  | nil => rfl
  | cons sorter rest ih =>
    rw [List.forall_mem_cons] at h
    rw [lexicographicExactly, lexicographic, ih h.2, compareKeysExactly_eq h.1]
    rfl

theorem lexicographicExactly_ascending (field : String) (d e : Document) :
    lexicographicExactly [(field, .ascending)] d e =
      compareKeysExactly (d.sortKey field) (e.sortKey field) := Ordering.then_eq

theorem lexicographic_ascending (field : String) (d e : Document) :
    lexicographic [(field, .ascending)] d e = compareKeys (d.sortKey field) (e.sortKey field) :=
  Ordering.then_eq

/-- **Documents with confused keys** stay as they are. -/
theorem read_sortedBy_confused {field : String} {d e : Document} {v w : Value}
    (hv : d.sortKey field = some v) (hw : e.sortKey field = some w) (h : v.Confused w) :
    (sortedBy [(field, .ascending)]).read .empty [d, e] = [d, e] := by
  have hkeys : compareKeys (some v) (some w) = .eq := by
    obtain ⟨m, n, hm, hn, -⟩ := id h
    rw [compareKeys_some (Value.ne_null_of_number? hm) (Value.ne_null_of_number? hn), h.compare?_eq]
    rfl
  have heq : Document.compareBy [(field, signed .ascending)] d e = .eq := by
    have hlex := lexicographic_ascending field d e
    rwa [hv, hw, hkeys, ← compareBy_map_signed] at hlex
  have hall : [d, e].filter Query.empty.accepts = [d, e] := rfl
  rw [read_sortedBy, hall]
  refine List.mergeSort_of_pairwise (List.pairwise_pair.mpr ?_)
  exact congrArg Ordering.isLE heq

/-- With confused keys, sorting leaves the greater number first. -/
theorem not_sorts_of_confused {field : String} (hfield : field ∈ fields) {d e : Document}
    (hd : d ∈ S) (he : e ∈ S) {v w : Value} (hv : d.sortKey field = some v)
    (hw : e.sortKey field = some w) (h : v.Confused w) : ¬ Sorts S fields lexicographicExactly := by
  intro hsorts
  have hkept {d e : Document} (hd : d ∈ S) (he : e ∈ S) {v w : Value} {m n : ℤ}
      (hv : d.sortKey field = some v) (hw : e.sortKey field = some w) (h : v.Confused w)
      (hm : v.number? = some m) (hn : w.number? = some n) : m ≤ n := by
    have hsort := hsorts [(field, .ascending)] .empty [d, e] (by simpa using hfield)
      (by simp [hd, he])
    rw [read_sortedBy_confused hv hw h] at hsort
    have hle := List.pairwise_pair.mp hsort.pairwise
    rwa [lexicographicExactly_ascending, hv, hw, compareKeysExactly_of_number? hm hn,
      Int.isLE_compare] at hle
  obtain ⟨m, n, hm, hn, hne, -⟩ := id h
  exact hne (le_antisymm (hkept hd he hv hw h hm hn) (hkept he hd hw hv h.symm hn hm))

/-- **Sorted reads.** Let the sort keys of the documents of a set, in each of some fields, be missing,
null or all of one ordered kind. All reads that are sorted by these fields in turn, upwards or
downwards, and that only documents of the set match, are stable sorts of the matching documents by
the nearest doubles of numbers. They all are stable sorts by the numbers themselves iff in none of the
fields two documents of the set have different numbers with one nearest double. -/
theorem sorts_lexicographic (S : Set Document) (fields : List String)
    (hkinds : ∀ field ∈ fields, Document.OneKind S field) :
    Sorts S fields lexicographic ∧
      (Sorts S fields lexicographicExactly ↔
        ∀ field ∈ fields, ∀ d ∈ S, ∀ e ∈ S, ∀ v w, d.sortKey field = some v →
          e.sortKey field = some w → ¬ v.Confused w) := by
  have hsorts := sorts_of_oneKind hkinds
  refine ⟨hsorts, fun hexact field hfield d hd e he v w hv hw h => ?_, fun h => ?_⟩
  · exact not_sorts_of_confused hfield hd he hv hw h hexact
  · intro sorters q documents hfields hmem
    have hmatching : ∀ d ∈ documents.filter q.accepts, d ∈ S := fun d hd =>
      hmem d (List.mem_filter.mp hd).1 (List.mem_filter.mp hd).2
    refine (hsorts sorters q documents hfields hmem).congr fun d hd e he => ?_
    refine (lexicographicExactly_eq fun sorter hsorter => ?_).symm
    exact h sorter.1 (hfields sorter hsorter) d (hmatching d hd) e (hmatching e he)

/-- A document without a rank comes before those with the ranks 1 and 2. -/
theorem sorts_lexicographic_ranked :
    let second : Document := [("_id", .int32 1), ("rank", .int64 2)]
    let blank : Document := [("_id", .int32 2)]
    let first : Document := [("_id", .int32 3), ("rank", .int32 1)]
    let found := (sortedBy [("rank", .ascending)]).read .empty [second, blank, first]
    (∀ field ∈ ["rank"], Document.OneKind {second, blank, first} field) ∧
      StableSort (lexicographic [("rank", .ascending)]) [second, blank, first] found ∧
      StableSort (lexicographicExactly [("rank", .ascending)]) [second, blank, first] found := by
  intro second blank first found
  let S : Set Document := {second, blank, first}
  have hkeys : ∀ d ∈ S, ∀ v, d.sortKey "rank" = some v → v = .int64 2 ∨ v = .int32 1 := by
    rintro d (rfl | rfl | rfl) v hv
    · exact .inl (Option.some.inj hv).symm
    · cases hv
    · exact .inr (Option.some.inj hv).symm
  have hkinds : ∀ field ∈ ["rank"], Document.OneKind S field := by
    simp only [List.mem_singleton, forall_eq]
    refine ⟨.number, fun d hd v hv => .inr ?_⟩
    obtain rfl | rfl := hkeys d hd v hv <;> rfl
  have hdistinct : ¬ (Value.int64 2).Confused (.int32 1) := by
    rintro ⟨-, -, -, -, -, hscalar⟩
    have hranks : Double.rankOfInt 2 = Double.rankOfInt 1 := by
      injection hscalar with hscalar
      injection hscalar with hranks
      exact Option.some.inj hranks
    exact absurd hranks (by decide)
  obtain ⟨hnear, hexact⟩ := sorts_lexicographic S ["rank"] hkinds
  have hmem : ∀ d ∈ [second, blank, first], Query.empty.accepts d = true → d ∈ S :=
    fun d hd _ => by simpa [S] using hd
  refine ⟨hkinds, hnear _ .empty _ (by simp) hmem, hexact.mpr ?_ _ .empty _ (by simp) hmem⟩
  intro field hfield d hd e he v w hv hw
  obtain rfl := List.mem_singleton.mp hfield
  obtain rfl | rfl := hkeys d hd v hv <;> obtain rfl | rfl := hkeys e he w hw
  · exact Value.not_confused_self _
  · exact hdistinct
  · exact fun hconfused => hdistinct hconfused.symm
  · exact Value.not_confused_self _

/-- The rank `2 ^ 53 + 1` has the same nearest double as `2 ^ 53`, and stays before it. -/
theorem read_sortedBy_next_integer :
    let next : Document := [("_id", .int32 1), ("rank", .int64 9007199254740993)]
    let first : Document := [("_id", .int32 2), ("rank", .int64 9007199254740992)]
    Document.OneKind {next, first} "rank" ∧
      lexicographicExactly [("rank", .ascending)] next first = .gt ∧
      (sortedBy [("rank", .ascending)]).read .empty [next, first] = [next, first] ∧
      ¬ StableSort (lexicographicExactly [("rank", .ascending)]) [next, first]
        ((sortedBy [("rank", .ascending)]).read .empty [next, first]) := by
  intro next first
  have hnext : next.sortKey "rank" = some (.int64 9007199254740993) := rfl
  have hfirst : first.sortKey "rank" = some (.int64 9007199254740992) := rfl
  have hunit : (0 : ℤ) < Double.unit := Int.natCast_pos.mpr Double.unit_pos
  have hlt : (9007199254740992 : Int64).toInt * (Double.unit : ℤ) <
      (9007199254740993 : Int64).toInt * Double.unit := mul_lt_mul_of_pos_right (by decide) hunit
  have hconfused : (Value.int64 9007199254740993).Confused (.int64 9007199254740992) :=
    ⟨_, _, rfl, rfl, hlt.ne', rfl⟩
  have hgt : lexicographicExactly [("rank", .ascending)] next first = .gt := by
    rw [lexicographicExactly_ascending, hnext, hfirst, compareKeysExactly_of_number? rfl rfl]
    exact compare_gt_iff_gt.mpr hlt
  have hread := read_sortedBy_confused hnext hfirst hconfused
  refine ⟨⟨.number, ?_⟩, hgt, hread, fun hsort => ?_⟩
  · rintro d (rfl | rfl) v hv
    · obtain rfl := Option.some.inj (hnext.symm.trans hv)
      exact .inr rfl
    · obtain rfl := Option.some.inj (hfirst.symm.trans hv)
      exact .inr rfl
  · rw [hread] at hsort
    have hle := List.pairwise_pair.mp hsort.pairwise
    rw [hgt] at hle
    cases hle

end ReadShape

end Dossier
