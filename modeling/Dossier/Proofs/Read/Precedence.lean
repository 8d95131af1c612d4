import Mathlib
import Dossier.Proofs.Codebook.Probe
import Dossier.Proofs.Read.TwoShapes
import Dossier.Read

/-!
# Precedence of sort keys

The sort keys of a plan are compiled into a sort document, where a repeated field keeps its first
place and takes its last direction. Documents are ordered by the first field on which they differ.

* `ReadPlan.lexicographic`: the order by sort keys as they were recorded, the first on which the
  documents differ deciding;
* **`ReadPlan.decidedBy`**: the order by the first field on which they differ, each field with one
  direction; the recorded keys take the first direction of every field
  (`lexicographic_eq_decidedBy`), the compiled ones the last (`compareBy_sortDocument`);
* `Document.under`: documents that differ on one field only (`compareOn_under`);
* **`ReadPlan.compareBy_sort_iff`**: the two orders are the same iff no field ends in another
  direction than it began in, and a later key leaves the order by the earlier ones alone iff it does
  not turn its field.
-/

namespace Dossier

/-! ## Orders by fields -/

/-- The order of two keys in a direction. -/
def Direction.orient : Direction → Ordering → Ordering
  | ascending, ordering => ordering
  | descending, ordering => ordering.swap

/-- The order of two documents by what they hold in one field. -/
def Document.compareOn (field : String) (d e : Document) : Ordering :=
  compareKeys (d.sortKey field) (e.sortKey field)

/-- Whether two documents differ on a field. -/
def Document.differOn (d e : Document) (field : String) : Bool := compareOn field d e != .eq

theorem Direction.orient_eq (direction : Direction) : direction.orient .eq = .eq := by
  cases direction <;> rfl

namespace ReadPlan

variable {sorters : Entries Direction} {field : String} {direction : Direction} {d e : Document}

/-- The order of two documents by sort keys, the first on which they differ deciding. -/
def lexicographic : Entries Direction → Document → Document → Ordering
  | [], _, _ => .eq
  | (field, direction) :: rest, d, e =>
    (direction.orient (Document.compareOn field d e)).then (lexicographic rest d e)

/-- The order of two documents by the first of some fields on which they differ, in the direction of
that field. -/
def decidedBy (fields : List String) (direction? : String → Option Direction) (d e : Document) :
    Ordering :=
  match fields.find? (d.differOn e) with
  | none => .eq
  | some field => ((direction? field).map (·.orient (Document.compareOn field d e))).getD .eq

/-- The direction that a field is sorted in first. -/
def firstDirection? (sorters : Entries Direction) (field : String) : Option Direction :=
  sorters.find? field

theorem decidedBy_congr {fields : List String} {first? last? : String → Option Direction}
    (h : ∀ field ∈ fields, d.differOn e field = true → first? field = last? field) :
    decidedBy fields first? d e = decidedBy fields last? d e := by
  rw [decidedBy, decidedBy]
  cases hfind : fields.find? (d.differOn e) with
  | none => rfl
  | some field =>
    have hfield := h field (List.mem_of_find?_eq_some hfind) (List.find?_some hfind)
    simp only [hfield]

/-- **Recorded keys** order documents by the first direction of every field. -/
theorem lexicographic_eq_decidedBy (sorters : Entries Direction) (d e : Document) :
    lexicographic sorters d e = decidedBy sorters.keys (firstDirection? sorters) d e := by
  induction sorters with
  | nil => rfl
  | cons sorter rest ih =>
    obtain ⟨field, direction⟩ := sorter
    rw [lexicographic, decidedBy, Entries.keys, List.map_cons, List.find?_cons]
    cases hdiffer : d.differOn e field with
    | false =>
      -- the documents are equal on this field, so it decides nothing for the others either
      have heq : Document.compareOn field d e = .eq := by simpa [Document.differOn] using hdiffer
      rw [heq, Direction.orient_eq, Ordering.eq_then, ih]
      refine decidedBy_congr fun other _ hother => ?_
      have hne : field ≠ other := by
        rintro rfl
        rw [hdiffer] at hother
        cases hother
      rw [firstDirection?, firstDirection?, Entries.find?_cons, if_neg hne]
    | true =>
      have hne : Document.compareOn field d e ≠ .eq := by simpa [Document.differOn] using hdiffer
      have horient : direction.orient (Document.compareOn field d e) ≠ .eq := by
        cases direction <;> simpa [Direction.orient] using hne
      simp only [firstDirection?, Entries.find?_cons, if_true, Option.map_some, Option.getD_some]
      cases h : direction.orient (Document.compareOn field d e) with
      | eq => exact absurd h horient
      | lt | gt => rfl

end ReadPlan

/-! ## Compiled keys -/

namespace Entries

theorem keys_ofList_find? {α : Type} (pairs : Entries α) (p : String → Bool) :
    (keys (ofList pairs)).find? p = (keys pairs).find? p := by
  induction pairs using List.reverseRecOn with
  | nil => rfl
  | append_singleton pairs pair ih =>
    rw [ofList_append_singleton, keys_insert, keys_append_singleton]
    split
    case isFalse => rw [List.find?_append, List.find?_append, ih]
    case isTrue hmem =>
      rw [List.find?_append, ih]
      cases hfind : (keys pairs).find? p with
      | some key => rfl
      | none =>
        -- the repeated key was looked at before
        rw [← ih, List.find?_eq_none] at hfind
        simp [hfind pair.1 hmem]

end Entries

namespace ReadPlan

theorem compareField_signed (field : String) (direction : Direction) (d e : Document) :
    Document.compareField (field, signed direction) d e =
      direction.orient (Document.compareOn field d e) := by
  cases direction <;> rfl

theorem compareBy_map_signed (sorters : Entries Direction) (d e : Document) :
    Document.compareBy (sorters.map (Prod.map id signed)) d e = lexicographic sorters d e := by
  induction sorters with
  | nil => rfl
  | cons sorter rest ih =>
    rw [List.map_cons, Document.compareBy, ih, lexicographic]
    exact congrArg (Ordering.then · _) (compareField_signed ..)

/-- **Compiled keys** order documents by the last direction of every field. -/
theorem compareBy_sortDocument (sorters : Entries Direction) (d e : Document) :
    (sortDocument sorters).compareBy d e = decidedBy sorters.keys (lastDirection? sorters) d e := by
  have hlast : firstDirection? (Entries.ofList sorters) = lastDirection? sorters :=
    funext (Entries.find?_ofList sorters)
  have hcompiled : sortDocument sorters = (Entries.ofList sorters).map (Prod.map id signed) :=
    Entries.ofList_map signed sorters
  rw [hcompiled, compareBy_map_signed, lexicographic_eq_decidedBy, decidedBy, decidedBy,
    Entries.keys_ofList_find?, hlast]

end ReadPlan

/-! ## Documents that differ on one field -/

namespace Value

variable {x : Value} {p q : Path}

theorem foldl_children_nest (hx : ∀ segment, children segment x = []) (h : ¬ q <+: p) :
    q.foldl (fun reached segment => reached.flatMap (children segment)) [nest p x] = [] := by
  induction q generalizing p with
  | nil => exact absurd List.nil_prefix h
  | cons k q ih =>
    rw [List.foldl_cons, List.flatMap_singleton]
    cases p with
    | nil => rw [nest_nil, hx, foldl_children_nil]
    | cons l p =>
      rw [nest_cons, children, Entries.find?_cons]
      split
      case isTrue hlk =>
        exact ih fun hp => h (List.cons_prefix_cons.mpr ⟨hlk.symm, hp⟩)
      case isFalse => exact foldl_children_nil q

end Value

namespace Document

/-- A document with a value in one dotted field, and nothing else. -/
def under (field : String) (x : Value) : Document :=
  ((Value.nest (Dotted.segments field) x).fields?).getD []

theorem document_under (field : String) (x : Value) :
    Value.document (under field x) = Value.nest (Dotted.segments field) x := by
  rw [under]
  cases h : Dotted.segments field with
  | nil => exact absurd h (Dotted.segments_ne_nil field)
  | cons k p => rfl

theorem sortKey_under_self (field : String) (x : Value) : (under field x).sortKey field = some x := by
  have hwithin := Value.within?_nest_self (p := Dotted.segments field) (x := x)
  rw [← document_under] at hwithin
  rw [sortKey, reach_of_within? (Dotted.segments_ne_nil field) hwithin, List.head?_cons]

theorem sortKey_under_of_prefix {other field : String} (hne : other ≠ field)
    (h : Dotted.segments other <+: Dotted.segments field) (x : Value) :
    ∃ fields, (under field x).sortKey other = some (.document fields) := by
  obtain ⟨k, q, hq, -⟩ := Dotted.exists_cons_of_prefix hne h
  refine ⟨[(k, Value.nest q x)], ?_⟩
  have hwithin : (Value.document (under field x)).within? (Dotted.segments other) =
      some (.document [(k, Value.nest q x)]) := by
    rw [document_under, hq, Value.nest_append, Value.within?_nest_self, Value.nest_cons]
  rw [sortKey, reach_of_within? (Dotted.segments_ne_nil other) hwithin, List.head?_cons]

theorem sortKey_under_of_unrelated {other field : String} {x : Value}
    (hx : ∀ segment, x.children segment = [])
    (h : ¬ Dotted.segments other <+: Dotted.segments field) :
    (under field x).sortKey other = none := by
  rw [sortKey, reach_eq_foldl _ (Dotted.segments_ne_nil other), document_under,
    Value.foldl_children_nest hx h, List.head?_nil]

/-- On every other field, both hold nothing or a document, which has no order. -/
theorem compareOn_under_of_ne {other field : String} (hne : other ≠ field) {x y : Value}
    (hx : ∀ segment, x.children segment = []) (hy : ∀ segment, y.children segment = []) :
    compareOn other (under field x) (under field y) = .eq := by
  rw [compareOn]
  by_cases h : Dotted.segments other <+: Dotted.segments field
  · obtain ⟨fields, hfields⟩ := sortKey_under_of_prefix hne h x
    obtain ⟨fields', hfields'⟩ := sortKey_under_of_prefix hne h y
    rw [hfields, hfields']
    rfl
  · rw [sortKey_under_of_unrelated hx h, sortKey_under_of_unrelated hy h]
    rfl

/-- **There are documents that differ on one field only**, whatever other fields there are. -/
theorem exists_differOn (field : String) : ∃ d e : Document, compareOn field d e = .lt ∧
    ∀ other, d.differOn e other = true ↔ other = field := by
  have hlt : compareOn field (under field (.int32 1)) (under field (.int32 2)) = .lt := by
    rw [compareOn, sortKey_under_self, sortKey_under_self]
    rfl
  refine ⟨under field (.int32 1), under field (.int32 2), hlt, fun other => ?_⟩
  by_cases h : other = field
  · subst h
    simp [differOn, hlt]
  · have heq := @compareOn_under_of_ne other field h (.int32 1) (.int32 2) (fun _ => rfl) fun _ => rfl
    simp [differOn, heq, h]

end Document

namespace ReadPlan

variable {sorters : Entries Direction} {field : String} {direction : Direction} {d e : Document}

/-! ## Plans -/

theorem decidedBy_of_differOn_iff {fields : List String} {direction? : String → Option Direction}
    (hfield : field ∈ fields) (hlt : Document.compareOn field d e = .lt)
    (h : ∀ other, d.differOn e other = true ↔ other = field) :
    decidedBy fields direction? d e = ((direction? field).map (·.orient .lt)).getD .eq := by
  have hfind : fields.find? (d.differOn e) = some field := by
    rw [List.find?_eq_some_iff_append]
    obtain ⟨front, back, rfl, hfront⟩ := List.eq_append_cons_of_mem hfield
    refine ⟨(h field).mpr rfl, front, back, rfl, fun other hother => ?_⟩
    have hne : other ≠ field := by
      rintro rfl
      exact hfront hother
    simpa using mt (h other).mp hne
  simp only [decidedBy, hfind, hlt]

theorem map_orient_lt_inj {a? b? : Option Direction} :
    (a?.map (·.orient .lt)).getD .eq = (b?.map (·.orient .lt)).getD .eq ↔ a? = b? := by
  cases a? with
  | none => cases b? with
    | none => simp
    | some b => cases b <;> simp [Direction.orient]
  | some a => cases b? with
    | none => cases a <;> simp [Direction.orient]
    | some b => cases a <;> cases b <;> simp [Direction.orient]

/-- **Two choices of directions order all documents alike** iff they agree on the fields. -/
theorem decidedBy_eq_iff {fields : List String} {first? last? : String → Option Direction} :
    (∀ d e, decidedBy fields first? d e = decidedBy fields last? d e) ↔
      ∀ field ∈ fields, first? field = last? field := by
  constructor
  · intro h field hfield
    obtain ⟨d, e, hlt, hdiffer⟩ := Document.exists_differOn field
    have hde := h d e
    rwa [decidedBy_of_differOn_iff hfield hlt hdiffer, decidedBy_of_differOn_iff hfield hlt hdiffer,
      map_orient_lt_inj] at hde
  · exact fun h d e => decidedBy_congr fun field hfield _ => h field hfield

theorem lastDirection?_append_singleton (sorters : Entries Direction) (field other : String)
    (direction : Direction) : lastDirection? (sorters ++ [(field, direction)]) other =
      if field = other then some direction else lastDirection? sorters other := by
  rw [lastDirection?, List.reverse_append, List.reverse_singleton, List.singleton_append,
    Entries.find?_cons, lastDirection?]

theorem lastDirection?_eq_none_iff : lastDirection? sorters field = none ↔ field ∉ sorters.keys := by
  rw [lastDirection?, Entries.find?_eq_none_iff, Entries.keys, List.map_reverse, List.mem_reverse,
    Entries.keys]

theorem decidedBy_append_singleton {fields : List String} {direction? : String → Option Direction}
    (h : ∃ earlier ∈ fields, d.differOn e earlier = true) :
    decidedBy (fields ++ [field]) direction? d e = decidedBy fields direction? d e := by
  obtain ⟨found, hfound⟩ := Option.isSome_iff_exists.mp (List.find?_isSome.mpr h)
  rw [decidedBy, decidedBy, List.find?_append, hfound]
  rfl

theorem decidedBy_of_not_differOn {fields : List String} {direction? : String → Option Direction}
    (h : ¬ ∃ earlier ∈ fields, d.differOn e earlier = true) :
    decidedBy fields direction? d e = .eq := by
  have hfind : fields.find? (d.differOn e) = none :=
    List.find?_eq_none.mpr fun earlier hearlier hdiffer => h ⟨earlier, hearlier, hdiffer⟩
  rw [decidedBy, hfind]

/-- **A later key** leaves the order by the earlier ones alone iff it does not turn its field. -/
theorem compareBy_append_singleton_iff :
    (∀ d e, (∃ earlier ∈ sorters.keys, d.differOn e earlier = true) →
      (sortDocument (sorters ++ [(field, direction)])).compareBy d e =
        (sortDocument sorters).compareBy d e) ↔
      ∀ earlier, lastDirection? sorters field = some earlier → earlier = direction := by
  simp only [compareBy_sortDocument, Entries.keys_append_singleton]
  have hdirections : (∀ d e, (∃ earlier ∈ sorters.keys, d.differOn e earlier = true) →
      decidedBy (sorters.keys ++ [field]) (lastDirection? (sorters ++ [(field, direction)])) d e =
        decidedBy sorters.keys (lastDirection? sorters) d e) ↔
      ∀ other ∈ sorters.keys,
        lastDirection? (sorters ++ [(field, direction)]) other = lastDirection? sorters other := by
    rw [← decidedBy_eq_iff]
    refine forall_congr' fun d => forall_congr' fun e => ?_
    by_cases h : ∃ earlier ∈ sorters.keys, d.differOn e earlier = true
    · rw [decidedBy_append_singleton h]
      exact ⟨fun heq => heq h, fun heq _ => heq⟩
    · simp only [decidedBy_of_not_differOn h, h, false_imp_iff]
  rw [hdirections]
  constructor
  · intro h earlier hearlier
    have hfield : field ∈ sorters.keys := by
      by_contra hnew
      rw [lastDirection?_eq_none_iff.mpr hnew] at hearlier
      cases hearlier
    have hsame := h field hfield
    rw [lastDirection?_append_singleton, if_pos rfl, hearlier] at hsame
    exact (Option.some.inj hsame).symm
  · intro h other hother
    rw [lastDirection?_append_singleton]
    split
    case isFalse => rfl
    case isTrue heq =>
      subst heq
      cases hlast : lastDirection? sorters field with
      | none => exact absurd hother (lastDirection?_eq_none_iff.mp hlast)
      | some earlier => rw [h earlier hlast]

/-- What a plan orders documents by: its compiled sort keys. -/
def compiled (calls : List Call) : Document := ((after calls).shape.sort).getD []

theorem compiled_eq (calls : List Call) : compiled calls = sortDocument (after calls).sorters := by
  obtain ⟨hsorters, hshape⟩ := shape_after calls
  rw [compiled, hshape, hsorters, wanted, sortDocument_eq_wantedSort]
  by_cases h : recorded Call.sorter? calls = []
  · simp [h, wantedSort]
  · simp [h]

/-- **Precedence of sort keys.** After any calls, both shapes of a plan order two documents by the first
field of its sort keys on which they differ, in the last direction that this field was given. This
is the order by the keys as they were recorded, where the first direction decides, iff every field
was last given the direction that it was given first. And a further key leaves documents that differ
on an earlier one in their order iff it does not turn a field. -/
theorem compareBy_sort_iff (calls : List Call) :
    let sorters : Entries Direction := (after calls).sorters
    (after calls).readLazily.1.sort = (after calls).shape.sort ∧
    (∀ d e, (compiled calls).compareBy d e =
      decidedBy sorters.keys (lastDirection? sorters) d e) ∧
    ((∀ d e, (compiled calls).compareBy d e = lexicographic sorters d e) ↔
      ∀ field ∈ sorters.keys, lastDirection? sorters field = firstDirection? sorters field) ∧
    ∀ field direction,
      (∀ d e, (∃ earlier ∈ sorters.keys, d.differOn e earlier = true) →
        (compiled (calls ++ [.sort field direction])).compareBy d e =
          (compiled calls).compareBy d e) ↔
        ∀ earlier, lastDirection? sorters field = some earlier → earlier = direction := by
  intro sorters
  have hread : (after calls).readLazily.1 = (after calls).shape := (synced_after calls).readLazily_fst
  have hcompiled (d e : Document) : (compiled calls).compareBy d e =
      decidedBy sorters.keys (lastDirection? sorters) d e := by
    rw [compiled_eq, compareBy_sortDocument]
  refine ⟨by rw [hread], hcompiled, ?_, fun field direction => ?_⟩
  · simp only [hcompiled, lexicographic_eq_decidedBy]
    exact decidedBy_eq_iff
  · have hlater : (after (calls ++ [.sort field direction])).sorters =
        sorters ++ [(field, direction)] := by
      rw [after_append_singleton]
      rfl
    rw [compiled_eq, compiled_eq, hlater]
    exact compareBy_append_singleton_iff

/-- The second key turns the first: the document of rank 2 comes before that of rank 1. -/
theorem compareBy_turned :
    let calls : List Call := [.sort "rank" .ascending, .sort "rank" .descending]
    let first : Document := [("rank", .int32 1)]
    let second : Document := [("rank", .int32 2)]
    (compiled calls).compareBy first second = .gt ∧
      lexicographic (after calls).sorters first second = .lt ∧
      (compiled [.sort "rank" .ascending]).compareBy first second = .lt := ⟨rfl, rfl, rfl⟩

end ReadPlan

end Dossier
