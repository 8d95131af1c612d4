import Mathlib
import Dossier.Proofs.Codebook.Probe
import Dossier.Proofs.Codebook.Registered
import Dossier.Proofs.Codebook.Renamed
import Dossier.Proofs.Memory.Upsert
import Dossier.Query.Build

/-!
# Operands and documents

An operand is stored by the codec of exactly its field, a document by all codecs.

* `Value.within?_pass`: what the codecs make of the value at a path that none is above or below;
* **`Codebook.Agrees`**: an operand is stored as the value of its field in a stored document, so
  that filters find it and assignments give it (`Codebook.Agrees.of_within?`);
* `Codebook.exists_not_agrees_below`, `Codebook.exists_not_agrees_token`: a codec below the field,
  or a token in its path, tell them apart;
* **`Codebook.agrees_iff`**: for given fields with codecs, operands and documents agree iff there is
  neither.
-/

namespace Dossier

variable {book : Codebook} {codecs : Entries Codec} {field : String} {p : Path} {v w x : Value}
  {d stored : Document}

/-! ## The two passages -/

namespace Codebook

/-- What the codec of exactly one field makes of a value there. -/
def encodeAt (codecs : Entries Codec) (field : String) (v : Value) : Except StoreError Value :=
  match codecs.find? field with
  | some codec => codec.encode v
  | none => .ok v

/-- A value with the keys under which it is stored. -/
def keyed (book : Codebook) (v : Value) : Value :=
  if book.follows .escapeReservedKeys then v.renameKeys Keys.escape else v

theorem encodeAt_of_unchanged (h : ∀ c, codecs.find? field = some c → c = .unchanged) (v : Value) :
    encodeAt codecs field v = .ok v := by
  rw [encodeAt]
  cases hc : codecs.find? field with
  | none => rfl
  | some c => rw [h c hc]; rfl

theorem encodeOperand_eq :
    book.encodeOperand field v = (encodeAt book.codecs field v).map book.keyed := by
  have hkeyed (x : Value) : (do
      if book.follows .escapeReservedKeys then return x.renameKeys Keys.escape
      return x : Except StoreError Value) = .ok (book.keyed x) := by
    rw [keyed]
    split <;> rfl
  rw [encodeOperand, encodeAt]
  cases book.codecs.find? field with
  | none => exact hkeyed v
  | some codec =>
    cases hx : codec.encode v with
    | error e => simp [hx, bind, Except.bind, Except.map]
    | ok x => simp only [hx, bind, Except.bind, Except.map]; exact hkeyed x

theorem encodeDocument_eq_ok_iff_keyed : book.encodeDocument d = .ok stored ↔
    ∃ a, (Value.document d).pass Codec.encode book.codecs.placed = .ok (.document a) ∧
      Value.document stored = book.keyed (.document a) := by
  rw [encodeDocument_eq_ok]
  refine exists_congr fun a => and_congr_right fun _ => ?_
  rw [keyed]
  split
  · rw [Value.renameKeys, Document.renameKeys, Value.document.injEq]
  · rw [Value.document.injEq]

theorem within?_keyed (hp : ∀ key ∈ p, Keys.Unreserved key)
    (ht : book.follows .escapeReservedKeys = true → ∀ key ∈ p, Keys.TokenFree key)
    (hv : v.DistinctAlong p) (h : v.within? p = some w) :
    (book.keyed v).within? p = some (book.keyed w) := by
  rw [keyed, keyed]
  split
  case isTrue hf =>
    exact Value.within?_renameKeys
      (fun key hk _ => Keys.escape_eq_iff (hp key hk) (ht hf key hk)) hv h
  case isFalse => exact h

end Codebook

/-- **Codecs neither above nor below a field** make of its value what the codec of the field
does. -/
theorem Value.within?_pass (hd : codecs.Distinct)
    (ha : ∀ e ∈ codecs, e.1 = field ∨ Path.Apart (Dotted.segments e.1) (Dotted.segments field))
    (hx : v.within? (Dotted.segments field) = some x) (hv : v.DistinctAlong (Dotted.segments field))
    (h : v.pass Codec.encode codecs.placed = .ok w) :
    ∃ y, Codebook.encodeAt codecs field x = .ok y ∧ w.within? (Dotted.segments field) = some y ∧
      w.DistinctAlong (Dotted.segments field) := by
  induction codecs generalizing v x with
  | nil =>
    cases h
    exact ⟨x, rfl, hx, hv⟩
  | cons e rest ih =>
    obtain ⟨g, codec⟩ := e
    rw [List.forall_mem_cons] at ha
    have hd' : g ∉ Entries.keys rest ∧ Entries.Distinct rest := List.nodup_cons.mp hd
    rw [Entries.placed, List.map_cons, Value.pass_cons, ← Entries.placed] at h
    obtain ⟨a, hstep, h⟩ := bind_eq_ok.mp h
    by_cases hg : g = field
    · subst hg
      have hstep' : v.mapAt codec.encode (Dotted.segments g ++ []) = .ok a := by
        rw [List.append_nil]
        exact hstep
      obtain ⟨y, hy, ha'⟩ := Value.exists_mapAt_append hx hstep'
      rw [Value.mapAt_nil] at hy
      obtain ⟨z, hz, hw⟩ := ih hd'.2 ha.2 ha' (hv.mapAt (fun _ => rfl) hstep) h
      have hnone : Entries.find? rest g = none := Entries.find?_eq_none_iff.mpr hd'.1
      rw [Codebook.encodeAt, hnone] at hz
      cases hz
      refine ⟨y, ?_, hw⟩
      rw [Codebook.encodeAt, Entries.find?_cons, if_pos rfl]
      exact hy
    · have hapart := ha.1.resolve_left hg
      have ha' := (Value.within?_mapAt_of_apart hapart hstep).trans hx
      obtain ⟨y, hy, hw⟩ :=
        ih hd'.2 ha.2 ha' (hv.mapAt (fun hp => absurd hp hapart.1) hstep) h
      refine ⟨y, ?_, hw⟩
      rw [Codebook.encodeAt, Entries.find?_cons, if_neg hg]
      exact hy

/-! ## Assignments -/

theorem Path.plain_of_unreserved (h : ∀ key ∈ p, Keys.Unreserved key) : Path.Plain p := by
  intro key hk
  have hdollar : '$' ∉ key.toList := h key hk '$' (by simp [Keys.restoreOrder])
  rw [Step.ofSegment]
  split
  · rename_i heq
    simp [heq] at hdollar
  · rename_i heq
    simp [heq] at hdollar
  · rfl

theorem Value.exists_edit_assign (scope : Scope) {u : Update} {new : Value}
    (hu : u.change = .assign new) (hv : v.Clear p) (hp : p ≠ []) (path : Path) :
    ∃ w changed x, v.edit scope true u.act (p.map .key) path = .ok (w, changed) ∧
      w.within? p = some x ∧ (x = new ∨ x.same new = true) := by
  induction p generalizing v path with
  | nil => exact absurd rfl hp
  | cons k p ih =>
    obtain ⟨fields, rfl, hchild⟩ := hv.exists_fields
    by_cases hnil : p = []
    · subst hnil
      have hact : u.act (.document fields) (.key k) =
          (Value.document fields).perform (.key k) (.fill new) := by
        rw [Update.act, hu]
        rfl
      rw [List.map_cons, List.map_nil, Value.edit_last (Scope.slots_key_document _ _ _ _), hact,
        Value.perform]
      split
      case isTrue hsame =>
        rw [Slot.holds, Value.inSlot?, Option.any_eq_true_iff_get] at hsame
        obtain ⟨hsome, hsame⟩ := hsame
        refine ⟨_, _, _, rfl, ?_, .inr hsame⟩
        simp [Value.within?]
      case isFalse =>
        refine ⟨_, _, new, rfl, ?_, .inl rfl⟩
        simp [Value.within?]
    · obtain ⟨w, changed, x, hedit, hw, hx⟩ :=
        ih (Value.Clear.getD hchild) hnil (path ++ [k])
      have henter : (Value.document fields).enter? true (.key k) =
          .ok (some ((Entries.find? fields k).getD (.document []))) := by
        rw [Value.enter?]
        cases Entries.find? fields k <;> rfl
      refine ⟨.document (Entries.insert fields k w), changed, x, ?_, ?_, hx⟩
      · rw [List.map_cons, Value.edit_cons (Scope.slots_key_document _ _ _ _) (by simpa using hnil),
          henter]
        simp only [bind, Except.bind, Slot.segment, hedit]
        rfl
      · rw [Value.within?, Entries.find?_insert_self, Option.bind_some, hw]

theorem Query.exists_edit_assign {new : Value} (hplain : Path.Plain (Dotted.segments field))
    (hd : (Value.document d).Clear (Dotted.segments field)) :
    ∃ d' changed x, (empty.addUpdate ⟨field, .assign new⟩).edit d = .ok (d', changed) ∧
      (Value.document d').within? (Dotted.segments field) = some x ∧
      (x = new ∨ x.same new = true) := by
  obtain ⟨a, changed, x, hedit, ha, hx⟩ := Value.exists_edit_assign
    ((empty.addUpdate ⟨field, .assign new⟩).scope d) (u := ⟨field, .assign new⟩) rfl hd
    (Dotted.segments_ne_nil field) []
  obtain ⟨k, rest, hpath⟩ := List.exists_cons_of_ne_nil (Dotted.segments_ne_nil field)
  rw [hpath] at ha
  obtain ⟨d', child, rfl, -⟩ := Value.exists_fields_of_within? ha
  rw [← hplain.map_ofSegment, ← Step.ofPath] at hedit
  refine ⟨d', changed, x, ?_, by rw [hpath]; exact ha, hx⟩
  have hupdates : (empty.addUpdate ⟨field, .assign new⟩).updates = [⟨field, .assign new⟩] := rfl
  rw [Query.edit_eq, hupdates, List.foldlM_cons, Query.step, Update.apply_eq]
  simp only [Change.creates]
  rw [hedit]
  simp [Except.map, bind, Except.bind, pure, Except.pure, Value.fields?]

/-! ## Agreement -/

namespace Codebook

/-- The operand `v` on a field is recorded as `w`, the value of the field in a stored document. A
filter by `v` finds that document, if `w` equals itself, and an update by `v` leaves `w` on the
field, or what was the same before. -/
structure Agrees (book : Codebook) (field : String) (v w : Value) (stored : Document) : Prop where
  operand : book.encodeOperand field v = .ok w
  within : (Value.document stored).within? (Dotted.segments field) = some w
  found : w.WellFormed → w.NaNFree →
    ∃ q, Query.empty.filter? book field v .equals = some q ∧ q.accepts stored = true
  assigned : ∃ q, Query.empty.update? book field v .addOrOverwrite = some q ∧
    ∀ d : Document, (Value.document d).Clear (Dotted.segments field) →
      ∃ d' changed x, q.edit d = .ok (d', changed) ∧
        (Value.document d').within? (Dotted.segments field) = some x ∧
        (x = w ∨ x.same w = true)

theorem Agrees.of_within? (hp : ∀ key ∈ Dotted.segments field, Keys.Unreserved key)
    (ho : book.encodeOperand field v = .ok w)
    (hw : (Value.document stored).within? (Dotted.segments field) = some w) :
    book.Agrees field v w stored where
  operand := ho
  within := hw
  found hwell hnan := by
    refine ⟨Query.empty.addCondition (.equality (field, w)), ?_, ?_⟩
    · rw [Query.filter?, ho]
      rfl
    · have hholds := Description.holds_equality (e := (field, w)) hwell hnan hw
      simpa [Query.accepts, Query.addCondition, Query.empty, Condition.allHold] using hholds
  assigned := by
    refine ⟨Query.empty.addUpdate ⟨field, .assign w⟩, ?_, fun d hclear => ?_⟩
    · rw [Query.update?, ho]
      rfl
    · exact Query.exists_edit_assign (Path.plain_of_unreserved hp) hclear

/-- **Codecs neither above nor below a field** keep operands and documents in agreement. -/
theorem exists_agrees (hd : book.codecs.Distinct)
    (ha : ∀ g ∈ book.codecs.keys,
      g = field ∨ Path.Apart (Dotted.segments g) (Dotted.segments field))
    (hp : ∀ key ∈ Dotted.segments field, Keys.Unreserved key)
    (ht : book.follows .escapeReservedKeys = true →
      ∀ key ∈ Dotted.segments field, Keys.TokenFree key)
    (hwell : d.WellFormed) (hs : book.encodeDocument d = .ok stored)
    (hv : (Value.document d).within? (Dotted.segments field) = some v) :
    ∃ w, book.Agrees field v w stored := by
  obtain ⟨a, hpass, hkeyed⟩ := encodeDocument_eq_ok_iff_keyed.mp hs
  obtain ⟨y, hy, hwithin, hdistinct⟩ := Value.within?_pass hd
    (fun e he => ha e.1 (List.mem_map_of_mem he)) hv (hwell.distinctAlong _) hpass
  refine ⟨book.keyed y, .of_within? hp ?_ ?_⟩
  · rw [encodeOperand_eq, hy, Except.map]
  · rw [hkeyed]
    exact within?_keyed hp ht hdistinct hwithin

/-! ## Disagreement -/

theorem renameKeys_nest (rename : String → String) :
    (Value.nest p x).renameKeys rename = .nest (p.map rename) (x.renameKeys rename) := by
  induction p with
  | nil => rfl
  | cons k p ih =>
    rw [Value.nest_cons, Value.renameKeys, Value.renameFields, Value.renameFields, ih]
    rfl

theorem keyed_nest (hp : ∀ key ∈ p, Keys.Unreserved key) :
    book.keyed (.nest p x) = .nest p (book.keyed x) := by
  have hmap : p.map Keys.escape = p := by
    conv_rhs => rw [← List.map_id p]
    exact List.map_congr_left fun key hk => Keys.escape_of_unreserved (hp key hk)
  rw [keyed, keyed]
  split
  · rw [renameKeys_nest, hmap]
  · rfl

theorem exists_keyed_nest_eq (book : Codebook) (p : Path) :
    ∃ q : Path, q.length = p.length ∧
      book.keyed (.nest p (.document [])) = .nest q (.document []) := by
  rw [keyed]
  split
  · exact ⟨p.map Keys.escape, List.length_map _, renameKeys_nest _⟩
  · exact ⟨p, rfl, rfl⟩

theorem exists_encodeDocument {a : Document}
    (h : (Value.document d).pass Codec.encode book.codecs.placed = .ok (.document a)) :
    ∃ stored, book.encodeDocument d = .ok stored ∧
      Value.document stored = book.keyed (.document a) := by
  obtain ⟨stored, hstored⟩ : ∃ stored, Value.document stored = book.keyed (.document a) := by
    rw [keyed]
    split
    · exact ⟨_, rfl⟩
    · exact ⟨a, rfl⟩
  exact ⟨stored, encodeDocument_eq_ok_iff_keyed.mpr ⟨a, h, hstored⟩, hstored⟩

theorem exists_not_agrees_below {front back : List String} {g : String}
    (hb : book.codecs = Codec.wrappingAt front g back) (hne : field ≠ g)
    (hg : Dotted.segments field <+: Dotted.segments g)
    (hp : ∀ key ∈ Dotted.segments field, Keys.Unreserved key) :
    ∃ (d stored : Document) (v : Value), d.WellFormed ∧ book.encodeDocument d = .ok stored ∧
      (Value.document d).within? (Dotted.segments field) = some v ∧
      ∀ w, ¬ book.Agrees field v w stored := by
  obtain ⟨k, q, hq, -⟩ := Dotted.exists_cons_of_prefix hne hg
  have hwrap := @Value.mapAt_wrapping_nest (.document []) (Dotted.segments g) []
  rw [List.append_nil] at hwrap
  have hpass := @Value.pass_wrappingAt_eq_ok Codec.encode _ _ rfl front back g
    (Value.documentsOnly_empty.nest _) (Value.documentsOnly_empty.nest _) hwrap
  obtain ⟨d, hd⟩ := Value.exists_document_nest (Dotted.segments g) []
  obtain ⟨a, ha⟩ := Value.exists_document_nest (Dotted.segments g ++ ["w.v"]) []
  rw [← hb, hd, ha] at hpass
  obtain ⟨stored, hs, hkeyed⟩ := exists_encodeDocument hpass
  rw [hq, Value.nest_append] at hd
  rw [← ha, hq, List.append_assoc, Value.nest_append, keyed_nest hp] at hkeyed
  refine ⟨d, stored, .nest (k :: q) (.document []), ?_, hs, ?_, fun w h => ?_⟩
  · rw [Document.WellFormed, ← hd]
    exact (Value.wellFormed_empty.nest _).nest _
  · rw [← hd, Value.within?_nest_self]
  · have hcodec : encodeAt book.codecs field (.nest (k :: q) (.document [])) =
        .ok (.nest (k :: q) (.document [])) :=
      encodeAt_of_unchanged (fun _ hc => Codec.eq_unchanged_of_find?_wrappingAt hne (hb ▸ hc)) _
    have hoperand := h.operand
    rw [encodeOperand_eq, hcodec, Except.map, Except.ok.injEq] at hoperand
    have hwithin := h.within
    rw [hkeyed, Value.within?_nest_self, Option.some.injEq, ← hoperand] at hwithin
    -- the stored value is one document deeper than the operand
    obtain ⟨r, hr, hstored⟩ := exists_keyed_nest_eq book (k :: q ++ ["w.v"])
    obtain ⟨s, hs, hoperand⟩ := exists_keyed_nest_eq book (k :: q)
    rw [hstored, hoperand, Value.nest_inj] at hwithin
    subst hwithin
    simp [hs] at hr

theorem exists_not_agrees_token {fields : List String} (hb : book.codecs = Codec.unchangedOn fields)
    (hf : book.follows .escapeReservedKeys = true)
    (hp : ∀ key ∈ Dotted.segments field, Keys.Unreserved key)
    {key : String} (hkey : key ∈ Dotted.segments field) (ht : ¬ Keys.TokenFree key) :
    ∃ (d stored : Document) (v : Value), d.WellFormed ∧ book.encodeDocument d = .ok stored ∧
      (Value.document d).within? (Dotted.segments field) = some v ∧
      ∀ w, ¬ book.Agrees field v w stored := by
  obtain ⟨other, hne, hother⟩ := Keys.exists_escape_eq (hp key hkey) ht
  have hself := Keys.escape_of_unreserved (hp key hkey)
  obtain ⟨front, back, hsegments⟩ := List.append_of_mem hkey
  -- under the other key, the document has an empty one, which takes the place of the field
  obtain ⟨both, hboth⟩ : ∃ both : Document, both =
    [(key, .nest (back ++ ["x"]) (.document [])), (other, .document [])] := ⟨_, rfl⟩
  obtain ⟨d, hd⟩ := Value.exists_document_nest front both
  have honly : (Value.document d).DocumentsOnly := by
    rw [← hd, hboth]
    refine Value.DocumentsOnly.nest (Value.documentsOnly_document.mpr ?_) front
    rw [List.forall_mem_cons, List.forall_mem_singleton]
    exact ⟨Value.documentsOnly_empty.nest _, Value.documentsOnly_empty⟩
  have hpass := @Value.pass_unchangedOn Codec.encode _ fields rfl honly
  rw [← hb] at hpass
  obtain ⟨stored, hs, hkeyed⟩ := exists_encodeDocument hpass
  have hstored : Value.document stored = .nest front (.document [(key, .document [])]) := by
    have hfront : ∀ key ∈ front, Keys.Unreserved key :=
      fun key hk => hp key (by simp [hsegments, hk])
    have hmerged : book.keyed (.document both) = .document [(key, .document [])] := by
      rw [keyed, if_pos hf, hboth]
      simp [Value.renameKeys, Value.renameFields, Entries.ofList, Entries.insert, hself, hother]
    rw [hkeyed, ← hd, keyed_nest hfront, hmerged]
  refine ⟨d, stored, .nest ["x"] (.document []), ?_, hs, ?_, fun w h => ?_⟩
  · rw [Document.WellFormed, ← hd]
    refine Value.WellFormed.nest (Value.wellFormed_document.mpr ⟨?_, ?_⟩) front
    · simpa [hboth, Entries.Distinct, Entries.keys] using hne.symm
    · rw [hboth, List.forall_mem_cons, List.forall_mem_singleton]
      exact ⟨Value.wellFormed_empty.nest _, Value.wellFormed_empty⟩
  · rw [← hd, hsegments, Value.within?_nest, Value.within?, hboth, Entries.find?_cons, if_pos rfl,
      Option.bind_some, Value.nest_append, Value.within?_nest_self]
  · have hwithin := h.within
    rw [hstored, hsegments, Value.within?_nest, Value.within?, Entries.find?_cons, if_pos rfl,
      Option.bind_some] at hwithin
    cases back with
    | cons l back => cases hwithin
    | nil =>
      have hoperand := h.operand
      have hcodec : encodeAt book.codecs field (.nest ["x"] (.document [])) =
          .ok (.nest ["x"] (.document [])) :=
        encodeAt_of_unchanged
          (fun _ hc => Codec.eq_unchanged_of_mem (Entries.mem_of_find? (hb ▸ hc))) _
      obtain ⟨r, hr, hkeyed⟩ := exists_keyed_nest_eq book ["x"]
      rw [encodeOperand_eq, hcodec, Except.map, Except.ok.injEq, hkeyed] at hoperand
      rw [Value.within?_nil, Option.some.injEq, ← hoperand] at hwithin
      obtain rfl := (@Value.nest_inj [] r).mp hwithin
      cases hr

/-- **For given fields with codecs, operands and documents agree** on a field that is not below any
of them iff none of them is below it, and, where keys are escaped, no token is in its path. -/
theorem agrees_iff {fields : List String} (hd : fields.Nodup) (hn : "" ∉ fields)
    (hp : ∀ key ∈ Dotted.segments field, Keys.Unreserved key)
    (habove : ∀ g ∈ fields, Dotted.segments g <+: Dotted.segments field → g = field)
    (escapes : Bool) :
    (∀ book : Codebook, book.Registered → book.follows .escapeReservedKeys = escapes →
        book.codecs.keys = fields → ∀ (d stored : Document) (v : Value), d.WellFormed →
          book.encodeDocument d = .ok stored →
          (Value.document d).within? (Dotted.segments field) = some v →
          ∃ w, book.Agrees field v w stored) ↔
      (∀ g ∈ fields, Dotted.segments field <+: Dotted.segments g → g = field) ∧
        (escapes = true → ∀ key ∈ Dotted.segments field, Keys.TokenFree key) := by
  constructor
  · intro h
    constructor
    · intro g hg hprefix
      by_contra hne
      obtain ⟨front, back, rfl⟩ := List.append_of_mem hg
      obtain ⟨book, hbook, hf, hb⟩ := exists_registered_follows (Codec.wrappingAt front g back)
        (by rwa [Entries.Distinct, Codec.keys_wrappingAt]) (by rwa [Codec.keys_wrappingAt]) escapes
      obtain ⟨d, stored, v, hwell, hs, hv, hnot⟩ :=
        exists_not_agrees_below hb (Ne.symm hne) hprefix hp
      obtain ⟨w, hw⟩ := h book hbook hf (by rw [hb, Codec.keys_wrappingAt]) d stored v hwell hs hv
      exact hnot w hw
    · rintro rfl key hkey
      by_contra ht
      obtain ⟨book, hbook, hf, hb⟩ := exists_registered_follows (Codec.unchangedOn fields)
        (by rwa [Entries.Distinct, Codec.keys_unchangedOn]) (by rwa [Codec.keys_unchangedOn]) true
      obtain ⟨d, stored, v, hwell, hs, hv, hnot⟩ := exists_not_agrees_token hb hf hp hkey ht
      obtain ⟨w, hw⟩ := h book hbook hf (by rw [hb, Codec.keys_unchangedOn]) d stored v hwell hs hv
      exact hnot w hw
  · rintro ⟨hbelow, ht⟩ book _ rfl rfl d stored v hwell hs hv
    refine exists_agrees hd (fun g hg => ?_) hp ht hwell hs hv
    by_cases hg' : g = field
    · exact .inl hg'
    · exact .inr ⟨fun h => hg' (habove g hg h), fun h => hg' (hbelow g hg h)⟩

/-- One wrapping codec, and packs of policies. -/
def wrappingOne (packs : List (String × List Policy)) (field : String) : Codebook :=
  { packs := packs, codecs := [(field, .wrapping)] }

/-- A field with a codec of its own, and keys escaped inside of it. -/
theorem agrees_wrapped :
    ["a.b"].Nodup ∧ "" ∉ ["a.b"] ∧ (∀ key ∈ Dotted.segments "a.b", Keys.Unreserved key) ∧
      (∀ g ∈ ["a.b"], Dotted.segments g <+: Dotted.segments "a.b" → g = "a.b") ∧
      ∃ stored w, (wrappingOne [("keys", [.escapeReservedKeys])] "a.b").encodeDocument
          [("a", .document [("b", .document [("x.y", .null)])])] = .ok stored ∧
        (wrappingOne [("keys", [.escapeReservedKeys])] "a.b").Agrees "a.b"
          (.document [("x.y", .null)]) w stored := by
  have hd : ["a.b"].Nodup := by decide
  have hn : "" ∉ ["a.b"] := by decide
  have hp : ∀ key ∈ Dotted.segments "a.b", Keys.Unreserved key := by decide
  have habove : ∀ g ∈ ["a.b"], Dotted.segments g <+: Dotted.segments "a.b" → g = "a.b" :=
    fun g hg _ => List.mem_singleton.mp hg
  have hpack : empty.registerPolicies "keys" [.escapeReservedKeys] =
      some { packs := [("keys", [.escapeReservedKeys])] } := rfl
  have hbook : (wrappingOne [("keys", [.escapeReservedKeys])] "a.b").Registered :=
    (Registered.empty.policies hpack).codec
      (registerCodec_eq_some.mpr ⟨by decide, List.not_mem_nil, rfl⟩)
  have hwell : Document.WellFormed [("a", .document [("b", .document [("x.y", .null)])])] := by
    simpa [Document.WellFormed, Entries.Distinct, Entries.keys] using
      Value.wellFormed_of_isAtom (v := .null) rfl
  obtain ⟨w, hw⟩ := (agrees_iff hd hn hp habove true).mpr
    ⟨fun g hg _ => List.mem_singleton.mp hg, fun _ => by decide⟩ _ hbook rfl rfl _ _
    (.document [("x.y", .null)]) hwell rfl rfl
  exact ⟨hd, hn, hp, habove, _, w, rfl, hw⟩

/-- A codec below the field: the operand is stored as it is, so the filter misses the document, and
the update leaves a document that cannot be read. -/
theorem not_agrees_below :
    (wrappingOne [] "a.b").Registered ∧
      (wrappingOne [] "a.b").encodeDocument [("a", .document [("b", .int32 4)])] =
        .ok [("a", .document [("b", .document [("w.v", .int32 4)])])] ∧
      (wrappingOne [] "a.b").encodeOperand "a" (.document [("b", .int32 4)]) =
        .ok (.document [("b", .int32 4)]) ∧
      (Query.empty.filter? (wrappingOne [] "a.b") "a" (.document [("b", .int32 4)]) .equals).map
        (·.accepts [("a", .document [("b", .document [("w.v", .int32 4)])])]) = some false ∧
      (Query.empty.update? (wrappingOne [] "a.b") "a" (.document [("b", .int32 4)])
        .addOrOverwrite).map (·.edit []) =
        some (.ok ([("a", .document [("b", .int32 4)])], true)) ∧
      (wrappingOne [] "a.b").decodeDocument [("a", .document [("b", .int32 4)])] =
        .error (.invalidDocument (.rejected "not wrapped")) := by
  refine ⟨?_, rfl, rfl, rfl, rfl, rfl⟩
  exact .codec .empty (registerCodec_eq_some.mpr ⟨by decide, List.not_mem_nil, rfl⟩)

end Codebook

end Dossier
