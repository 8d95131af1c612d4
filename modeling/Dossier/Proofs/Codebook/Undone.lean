import Mathlib
import Dossier.Proofs.Codebook.Probe
import Dossier.Proofs.Codebook.Registered

/-!
# Codecs undone

A document is decoded by the codecs in the order in which it was encoded. That undoes the encoding
whenever the codecs can be reordered, and goes wrong for some codecs otherwise.

* **`Value.pass_undo`**: lawful codecs at paths apart are undone in any order;
* `Codebook.probe`: codecs of which two put what they get into a new document;
  `Codebook.exists_not_undone`: with one of these two below the other, some document is decoded
  wrongly, in whichever order they run;
* **`Codebook.codecs_undone_iff`**: all lawful codecs for given fields are undone iff no field is
  below another one.
-/

namespace Dossier

theorem exists_of_not_pairwise {α : Type} {R : α → α → Prop} {xs : List α} (h : ¬ xs.Pairwise R) :
    ∃ front a middle b back, xs = front ++ a :: (middle ++ b :: back) ∧ ¬ R a b := by
  induction xs with
  | nil => exact absurd List.Pairwise.nil h
  | cons x xs ih =>
    by_cases hx : ∀ y ∈ xs, R x y
    · obtain ⟨front, a, middle, b, back, rfl, hab⟩ :=
        ih fun hxs => h (List.pairwise_cons.mpr ⟨hx, hxs⟩)
      exact ⟨x :: front, a, middle, b, back, rfl, hab⟩
    · push Not at hx
      obtain ⟨b, hb, hxb⟩ := hx
      obtain ⟨middle, back, rfl⟩ := List.append_of_mem hb
      exact ⟨[], x, middle, b, back, rfl, hxb⟩

variable {p q r : Path} {v w : Value} {k : String}

namespace Value

/-! ## Paths apart -/

/-- **Lawful codecs at paths apart are undone** in the order in which they were applied. -/
theorem pass_undo {codecs : List (Path × Codec)} (hl : ∀ c ∈ codecs, c.2.Lawful)
    (ha : codecs.Pairwise fun a b => Path.Apart a.1 b.1) (h : v.pass Codec.encode codecs = .ok w) :
    w.pass Codec.decode codecs = .ok v := by
  induction codecs generalizing v w with
  | nil =>
    cases h
    rfl
  | cons c codecs ih =>
    rw [List.forall_mem_cons] at hl
    rw [List.pairwise_cons] at ha
    rw [pass_cons] at h
    obtain ⟨x, hx, hw⟩ := bind_eq_ok.mp h
    have hback : x.mapAt c.2.decode c.1 = .ok v := mapAt_undo hl.1 hx
    -- the first codec could be undone before the others run, so also after them
    obtain ⟨y, hy, hwy⟩ := pass_diamond ha.1 hback hw
    rw [pass_cons, hwy]
    exact ih hl.2 ha.2 hy

/-! ## A path below another one -/

theorem mapAt_unwrapping_nest (p q : Path) :
    (nest (p ++ "w.v" :: q) (document [])).mapAt Codec.wrapping.decode p =
      .ok (nest (p ++ q) (document [])) :=
  mapAt_undo Codec.lawful_wrapping (mapAt_wrapping_nest p q)

theorem mapAt_unwrapping_empty (p : Path) :
    (nest p (document [])).mapAt Codec.wrapping.decode p =
      .error (.invalidDocument (.rejected "not wrapped")) := by
  have h := @mapAt_nest Codec.wrapping.decode p [] (document [])
  rw [List.append_nil, mapAt_nil] at h
  rw [h]
  rfl

end Value

namespace Codebook

/-- Codecs for fields, of which those for `a` and `b` wrap values. -/
def probe (front : List String) (a : String) (middle : List String) (b : String)
    (back : List String) : Entries Codec :=
  Codec.unchangedOn front ++ (a, .wrapping) :: Codec.wrappingAt middle b back

variable {front middle back : List String} {a b : String}
  {way : Codec → Value → Except StoreError Value}

theorem keys_probe : (probe front a middle b back).keys = front ++ a :: (middle ++ b :: back) := by
  rw [probe, Entries.keys, List.map_append, List.map_cons]
  exact congrArg₂ (· ++ a :: ·) Codec.keys_unchangedOn Codec.keys_wrappingAt

theorem lawful_probe : ∀ e ∈ probe front a middle b back, e.2.Lawful := by
  simp only [probe, Codec.wrappingAt, List.forall_mem_append, List.forall_mem_cons]
  exact ⟨Codec.lawful_of_mem_unchangedOn, Codec.lawful_wrapping, Codec.lawful_of_mem_unchangedOn,
    Codec.lawful_wrapping, Codec.lawful_of_mem_unchangedOn⟩

theorem pass_probe (hway : way .unchanged = .ok) (hv : v.DocumentsOnly) (hw : w.DocumentsOnly)
    (ha : v.mapAt (way .wrapping) (Dotted.segments a) = .ok w) :
    v.pass way (probe front a middle b back).placed =
      w.mapAt (way .wrapping) (Dotted.segments b) >>=
        Value.pass way (Codec.unchangedOn back).placed := by
  rw [probe, Entries.placed, List.map_append, List.map_cons, ← Entries.placed,
    Value.pass_append_of_eq_ok (Value.pass_unchangedOn hway hv), Value.pass_cons_of_eq_ok ha,
    ← Entries.placed, Value.pass_wrappingAt hway hw]

theorem pass_probe_nest (hway : way .unchanged = .ok)
    (ha : (Value.nest p (.document [])).mapAt (way .wrapping) (Dotted.segments a) =
      .ok (.nest q (.document [])))
    (hb : (Value.nest q (.document [])).mapAt (way .wrapping) (Dotted.segments b) =
      .ok (.nest r (.document []))) :
    (Value.nest p (.document [])).pass way (probe front a middle b back).placed =
      .ok (.nest r (.document [])) := by
  have honly (p : Path) : (Value.nest p (.document [])).DocumentsOnly :=
    Value.documentsOnly_empty.nest p
  rw [pass_probe hway (honly p) (honly q) ha, hb]
  exact Value.pass_unchangedOn hway (honly r)

theorem exists_not_undone (hne : a ≠ b)
    (hab : ¬ Path.Apart (Dotted.segments a) (Dotted.segments b)) :
    ∃ p stored : Path,
      (Value.nest p (.document [])).pass Codec.encode (probe front a middle b back).placed =
        .ok (.nest stored (.document [])) ∧
      (Value.nest stored (.document [])).pass Codec.decode (probe front a middle b back).placed ≠
        .ok (.nest p (.document [])) := by
  rw [Path.Apart, not_and_or, not_not, not_not] at hab
  obtain hab | hab := hab
  · -- the outer codec runs first: the inner one finds no place to encode, but one to decode
    obtain ⟨k, q, hq, hk⟩ := Dotted.exists_cons_of_prefix hne hab
    have hkw : k ≠ "w.v" := by rintro rfl; simp at hk
    have houter := @Value.mapAt_wrapping_nest (.document []) (Dotted.segments a) (k :: q)
    rw [← hq] at houter
    refine ⟨Dotted.segments b, Dotted.segments a ++ "w.v" :: k :: q,
      pass_probe_nest rfl houter ?_, ?_⟩
    · rw [hq]
      exact Value.mapAt_nest_of_ne hkw
    · rw [pass_probe rfl (Value.documentsOnly_empty.nest _) (Value.documentsOnly_empty.nest _)
        (Value.mapAt_unwrapping_nest _ _), ← hq, Value.mapAt_unwrapping_empty]
      intro h
      cases h
  · -- the inner codec runs first: the outer one hides the place of the inner from decoding
    obtain ⟨k, q, hq, hk⟩ := Dotted.exists_cons_of_prefix hne.symm hab
    have hkw : k ≠ "w.v" := by rintro rfl; simp at hk
    have hinner := @Value.mapAt_wrapping_nest (.document []) (Dotted.segments a) []
    rw [List.append_nil] at hinner
    refine ⟨Dotted.segments a, Dotted.segments b ++ "w.v" :: k :: (q ++ ["w.v"]),
      pass_probe_nest rfl hinner ?_, ?_⟩
    · rw [hq, List.append_assoc]
      exact Value.mapAt_wrapping_nest _ _
    · have h : (Value.nest (Dotted.segments b ++ "w.v" :: k :: (q ++ ["w.v"]))
          (.document [])).mapAt Codec.wrapping.decode (Dotted.segments a) =
          .ok (.nest (Dotted.segments b ++ "w.v" :: k :: (q ++ ["w.v"])) (.document [])) := by
        rw [hq]
        exact Value.mapAt_nest_of_ne hkw
      rw [pass_probe_nest rfl h (Value.mapAt_unwrapping_nest _ _), hq]
      simp [Value.nest_inj]

/-- **All lawful codecs for given fields are undone** by decoding, in the order in which they were
registered, iff no field is below another one. -/
theorem codecs_undone_iff {fields : List String} (hd : fields.Nodup) (hn : "" ∉ fields) :
    (∀ book : Codebook, book.Registered → book.packs = [] → book.codecs.keys = fields →
        (∀ e ∈ book.codecs, e.2.Lawful) → ∀ d stored : Document,
          book.encodeDocument d = .ok stored → book.decodeDocument stored = .ok d) ↔
      PathsApart fields := by
  constructor
  · intro h
    by_contra hnot
    obtain ⟨front, a, middle, b, back, rfl, hab⟩ := exists_of_not_pairwise hnot
    have hne : a ≠ b := by
      rintro rfl
      simp [List.nodup_append] at hd
    obtain ⟨book, hbook, hpacks, hb⟩ := exists_registered (probe front a middle b back)
      (by rwa [Entries.Distinct, keys_probe]) (by rwa [keys_probe])
    have hpolicy := follows_of_packs hpacks .escapeReservedKeys
    obtain ⟨p, q, hstored, hback⟩ := exists_not_undone hne hab
    rw [← hb] at hstored hback
    obtain ⟨d, hd⟩ := Value.exists_document_nest p []
    obtain ⟨stored, hs⟩ := Value.exists_document_nest q []
    rw [hd, hs] at hstored hback
    refine hback ((decodeDocument_eq_ok hpolicy).mp ?_)
    refine h book hbook hpacks (by rw [hb, keys_probe]) (hb ▸ lawful_probe) d stored ?_
    exact encodeDocument_eq_ok.mpr ⟨stored, hstored, by simp [hpolicy]⟩
  · intro ha book _ hpacks hkeys hl d stored hstored
    have hpolicy := follows_of_packs hpacks .escapeReservedKeys
    obtain ⟨a, hpass, rfl⟩ := encodeDocument_eq_ok.mp hstored
    rw [hpolicy, if_neg Bool.false_ne_true, decodeDocument_eq_ok hpolicy]
    refine Value.pass_undo ?_ ?_ hpass
    · rw [Entries.placed, List.forall_mem_map]
      exact hl
    · rw [Entries.placed, List.pairwise_map]
      rw [PathsApart, ← hkeys, Entries.keys, List.pairwise_map] at ha
      exact ha

/-- Wrapping codecs for two fields. -/
def wrappingBoth (a b : String) : Codebook := { codecs := [(a, .wrapping), (b, .wrapping)] }

theorem registered_wrappingBoth {a b : String} (ha : a ≠ "") (hb : b ≠ "") (hab : a ≠ b) :
    (wrappingBoth a b).Registered := by
  have hone : Registered { codecs := [(a, .wrapping)] } :=
    .codec .empty (registerCodec_eq_some.mpr ⟨ha, List.not_mem_nil, rfl⟩)
  exact hone.codec (registerCodec_eq_some.mpr ⟨hb, by simpa [Entries.keys] using hab.symm, rfl⟩)

theorem lawful_wrappingBoth (a b : String) : ∀ e ∈ (wrappingBoth a b).codecs, e.2.Lawful := by
  simp [wrappingBoth, Codec.lawful_wrapping]

/-- Two fields apart, one of them nested: the codecs are undone. -/
theorem codecs_undone_nested :
    ["a", "b.c"].Nodup ∧ "" ∉ ["a", "b.c"] ∧ PathsApart ["a", "b.c"] ∧
      ∃ stored, (wrappingBoth "a" "b.c").encodeDocument
          [("a", .int32 1), ("b", .document [("c", .int32 2)])] = .ok stored ∧
        (wrappingBoth "a" "b.c").decodeDocument stored =
          .ok [("a", .int32 1), ("b", .document [("c", .int32 2)])] := by
  have hd : ["a", "b.c"].Nodup := by decide
  have hn : "" ∉ ["a", "b.c"] := by decide
  have ha : PathsApart ["a", "b.c"] := by decide
  refine ⟨hd, hn, ha, _, rfl, ?_⟩
  exact (codecs_undone_iff hd hn).mpr ha _
    (registered_wrappingBoth (by decide) (by decide) (by decide)) rfl rfl
    (lawful_wrappingBoth _ _) _ _ rfl

/-- A field below the other one: decoding fails if the outer codec runs first, and gives another
document if the inner one does. -/
theorem codecs_not_undone_below :
    (∃ stored cause, (wrappingBoth "a" "a.b").Registered ∧ (wrappingBoth "a" "a.b").packs = [] ∧
      (∀ e ∈ (wrappingBoth "a" "a.b").codecs, e.2.Lawful) ∧
      (wrappingBoth "a" "a.b").encodeDocument [("a", .document [("b", .int32 1)])] = .ok stored ∧
      (wrappingBoth "a" "a.b").decodeDocument stored = .error cause) ∧
    ∃ stored, (wrappingBoth "a.b" "a").Registered ∧ (wrappingBoth "a.b" "a").packs = [] ∧
      (∀ e ∈ (wrappingBoth "a.b" "a").codecs, e.2.Lawful) ∧
      (wrappingBoth "a.b" "a").encodeDocument [("a", .document [("b", .int32 1)])] = .ok stored ∧
      (wrappingBoth "a.b" "a").decodeDocument stored =
        .ok [("a", .document [("b", .document [("w.v", .int32 1)])])] := by
  constructor
  · exact ⟨_, _, registered_wrappingBoth (by decide) (by decide) (by decide), rfl,
      lawful_wrappingBoth _ _, rfl, rfl⟩
  · exact ⟨_, registered_wrappingBoth (by decide) (by decide) (by decide), rfl,
      lawful_wrappingBoth _ _, rfl, rfl⟩

end Codebook

end Dossier
