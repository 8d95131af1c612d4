import Mathlib
import Dossier.Codebook
import Dossier.Proofs.Keys.Misreading
import Dossier.Proofs.Value.Shape

/-!
# The passage of documents under the key policy

A codebook that escapes reserved keys and has no codecs renames the keys of a document at every
depth and back.

* `Value.keysWithin`: the keys of a value at every depth;
* **`Value.renameKeys_renameKeys_iff`**: two renamings, one after the other, give back a well-formed
  value iff they give back every key in it; merging of keys that became equal included;
* **`Codebook.decodeDocument_encodeDocument_iff`**: both passages succeed, and the document comes
  back iff all its keys are unambiguous.
-/

namespace Dossier

mutual

/-- The keys of the documents in a value, at every depth that a renaming reaches. -/
def Value.keysWithin : Value → List String
  | .document fields => Value.fieldKeysWithin fields
  | .array items => Value.itemKeysWithin items
  | _ => []

/-- The keys within the values of a list. -/
def Value.itemKeysWithin : List Value → List String
  | [] => []
  | v :: rest => Value.keysWithin v ++ Value.itemKeysWithin rest

/-- The keys of a list of fields, and those within. -/
def Value.fieldKeysWithin : List (String × Value) → List String
  | [] => []
  | (key, v) :: rest => key :: (Value.keysWithin v ++ Value.fieldKeysWithin rest)

end

/-- The keys of a document at every depth. -/
def Document.keysWithin (d : Document) : List String := (Value.document d).keysWithin

namespace Value

theorem mem_keysWithin_array {items : List Value} {key : String} :
    key ∈ (array items).keysWithin ↔ ∃ v ∈ items, key ∈ v.keysWithin := by
  rw [keysWithin]
  induction items with
  | nil => simp [itemKeysWithin]
  | cons v rest ih => simp [itemKeysWithin, ih]

theorem mem_keysWithin_document {fields : List (String × Value)} {key : String} :
    key ∈ (document fields).keysWithin ↔ ∃ f ∈ fields, key = f.1 ∨ key ∈ f.2.keysWithin := by
  rw [keysWithin]
  induction fields with
  | nil => simp [fieldKeysWithin]
  | cons f rest ih => simp [fieldKeysWithin, ih, or_assoc]

theorem renameItems_eq_map (rename : String → String) (items : List Value) :
    renameItems rename items = items.map (renameKeys rename) := by
  induction items with
  | nil => rfl
  | cons v rest ih => rw [renameItems, ih, List.map_cons]

theorem renameFields_eq_map (rename : String → String) (fields : List (String × Value)) :
    renameFields rename fields = fields.map (Prod.map rename (renameKeys rename)) := by
  induction fields with
  | nil => rfl
  | cons f rest ih => rw [renameFields, ih, List.map_cons]; rfl

end Value

/-- Two maps of entries, each followed by a merging of equal keys, give back entries with distinct
keys iff they give back each of them. -/
theorem Entries.ofList_map_ofList_map_iff {α : Type} {fields : Entries α} (hd : fields.Distinct)
    (e r : String → String) (a b : α → α) :
    ofList ((ofList (fields.map (Prod.map e a))).map (Prod.map r b)) = fields ↔
      ∀ f ∈ fields, r (e f.1) = f.1 ∧ b (a f.2) = f.2 := by
  have hback : (fields.map (Prod.map e a)).map (Prod.map r b) = fields ↔
      ∀ f ∈ fields, r (e f.1) = f.1 ∧ b (a f.2) = f.2 := by
    rw [List.map_map]
    conv_lhs => rhs; rw [← List.map_id fields]
    rw [List.map_inj_left]
    exact forall₂_congr fun f _ => Prod.ext_iff
  rw [← hback]
  constructor
  · intro h
    -- no entry is lost on the way, so no keys became equal
    have h₁ := length_ofList_le ((ofList (fields.map (Prod.map e a))).map (Prod.map r b))
    have h₂ := length_ofList_le (fields.map (Prod.map e a))
    rw [h, List.length_map] at h₁
    rw [List.length_map] at h₂
    have hd₁ : Distinct (fields.map (Prod.map e a)) :=
      distinct_of_length_ofList (by rw [List.length_map]; omega)
    rw [ofList_of_distinct hd₁] at h
    have hd₂ : Distinct ((fields.map (Prod.map e a)).map (Prod.map r b)) :=
      distinct_of_length_ofList (by rw [h]; simp)
    rwa [ofList_of_distinct hd₂] at h
  · intro h
    have hkeys : (keys (fields.map (Prod.map e a))).map r = keys fields := by
      have := congrArg keys h
      simpa [keys, Function.comp_def] using this
    have hd₁ : Distinct (fields.map (Prod.map e a)) := by
      have : ((keys (fields.map (Prod.map e a))).map r).Nodup := hkeys ▸ hd
      exact List.Nodup.of_map r this
    rw [ofList_of_distinct hd₁, h, ofList_of_distinct hd]

namespace Value

/-- **Two renamings give back a value** iff they give back every key in it. -/
theorem renameKeys_renameKeys_iff (e r : String → String) {v : Value} (hv : v.WellFormed) :
    (v.renameKeys e).renameKeys r = v ↔ ∀ key ∈ v.keysWithin, r (e key) = key := by
  induction v using Value.induct with
  | atom v h => cases v <;> simp_all [isAtom, renameKeys, keysWithin]
  | codeWithScope source scope => simp [renameKeys, keysWithin]
  | array items ih =>
    rw [wellFormed_array] at hv
    have hmap : (items.map (renameKeys e)).map (renameKeys r) = items ↔
        ∀ v ∈ items, (v.renameKeys e).renameKeys r = v := by
      rw [List.map_map]
      conv_lhs => rhs; rw [← List.map_id items]
      rw [List.map_inj_left]
      rfl
    rw [renameKeys, renameKeys, renameItems_eq_map, renameItems_eq_map, array.injEq, hmap]
    simp only [mem_keysWithin_array]
    constructor
    · rintro h key ⟨v, hm, hk⟩
      exact (ih v hm (hv v hm)).mp (h v hm) key hk
    · exact fun h v hm => (ih v hm (hv v hm)).mpr fun key hk => h key ⟨v, hm, hk⟩
  | document fields ih =>
    rw [wellFormed_document] at hv
    rw [renameKeys, renameKeys, renameFields_eq_map, renameFields_eq_map, document.injEq,
      Entries.ofList_map_ofList_map_iff hv.1]
    simp only [mem_keysWithin_document]
    constructor
    · rintro h key ⟨f, hf, rfl | hk⟩
      · exact (h f hf).1
      · exact (ih f hf (hv.2 f hf)).mp (h f hf).2 key hk
    · intro h f hf
      exact ⟨h f.1 ⟨f, hf, .inl rfl⟩,
        (ih f hf (hv.2 f hf)).mpr fun key hk => h key ⟨f, hf, .inr hk⟩⟩

end Value

theorem Document.renameKeys_renameKeys_iff (e r : String → String) {d : Document}
    (hd : d.WellFormed) :
    (d.renameKeys e).renameKeys r = d ↔ ∀ key ∈ d.keysWithin, r (e key) = key := by
  have h := Value.renameKeys_renameKeys_iff e r hd
  rw [Value.renameKeys, Value.renameKeys, Value.document.injEq] at h
  exact h

namespace Codebook

variable {book : Codebook}

theorem encodeDocument_of_escaping (hp : book.follows .escapeReservedKeys = true)
    (hc : book.codecs = []) (d : Document) :
    book.encodeDocument d = .ok (d.renameKeys Keys.escape) := by
  simp [encodeDocument, hc, hp, pure, Except.pure, bind, Except.bind]

theorem decodeDocument_of_escaping (hp : book.follows .escapeReservedKeys = true)
    (hc : book.codecs = []) (d : Document) :
    book.decodeDocument d = .ok (d.renameKeys Keys.restore) := by
  simp [decodeDocument, hc, hp, pure, Except.pure]

/-- **Documents pass a codebook that only escapes keys both ways**, and one comes back as it was if
and only if all its keys, at every depth, are unambiguous. Then no two of them share a stored
key. -/
theorem decodeDocument_encodeDocument_iff (hp : book.follows .escapeReservedKeys = true)
    (hc : book.codecs = []) {d : Document} (hd : d.WellFormed) :
    ∃ stored restored, book.encodeDocument d = .ok stored ∧
      book.decodeDocument stored = .ok restored ∧
      (restored = d ↔ ∀ key ∈ d.keysWithin, Keys.Unambiguous key) ∧
      (restored = d → ∀ key ∈ d.keysWithin, ∀ other ∈ d.keysWithin,
        Keys.escape key = Keys.escape other → key = other) := by
  refine ⟨_, _, encodeDocument_of_escaping hp hc d, decodeDocument_of_escaping hp hc _, ?_, ?_⟩
  · rw [Document.renameKeys_renameKeys_iff _ _ hd]
    exact forall₂_congr fun key _ => Keys.restore_escape_iff key
  · intro h key hk other ho heq
    rw [Document.renameKeys_renameKeys_iff _ _ hd] at h
    rw [← h key hk, heq, h other ho]

/-- A codebook with one pack that escapes reserved keys. -/
def escaping : Codebook := { packs := [("keys", [.escapeReservedKeys])] }

/-- Keys with reserved characters at every depth come back. -/
theorem decodeDocument_encodeDocument_nested :
    escaping.follows .escapeReservedKeys = true ∧ escaping.codecs = [] ∧
      Document.WellFormed [("a.b", .array [.document [("$", .null), ("_.", .null)]])] ∧
      ∃ stored,
        escaping.encodeDocument [("a.b", .array [.document [("$", .null), ("_.", .null)]])] =
          .ok stored ∧
        escaping.decodeDocument stored =
          .ok [("a.b", .array [.document [("$", .null), ("_.", .null)]])] := by
  have hd : Document.WellFormed [("a.b", .array [.document [("$", .null), ("_.", .null)]])] := by
    simpa [Document.WellFormed, Entries.Distinct, Entries.keys] using
      Value.wellFormed_of_isAtom (v := .null) rfl
  obtain ⟨stored, restored, hs, hr, hiff, -⟩ :=
    @decodeDocument_encodeDocument_iff escaping rfl rfl _ hd
  refine ⟨rfl, rfl, hd, stored, hs, ?_⟩
  rw [hr, hiff.mpr (by decide)]

/-- A key that spells out the token of the dot comes back as a dot. -/
theorem decodeDocument_encodeDocument_dot_token :
    escaping.encodeDocument [("__dot__", .int32 1)] = .ok [("__dot__", .int32 1)] ∧
      escaping.decodeDocument [("__dot__", .int32 1)] = .ok [(".", .int32 1)] :=
  ⟨rfl, rfl⟩

end Codebook

end Dossier
