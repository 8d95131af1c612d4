import Mathlib
import Dossier.Proofs.Codebook.Operands

/-!
# Keys of stored values

A codebook that escapes reserved keys renames the keys of what the codecs leave. The tokens are written
for one reserved character after the other, and none of them holds a reserved character.

* `Keys.mem_written_singleton`: writing the tokens of one character removes it, and adds no reserved
  one; **`Keys.mem_foldr_written`**: so does writing those of several, one kind after the other;
* `Keys.escapeChars_eq_foldr`, **`Keys.unreserved_escape`**: escaping does this for all of them;
* `Value.forall_keysWithin_renameKeys`, **`Value.renameKeys_renameKeys_self`**: what holds of renamed
  keys holds at every depth, and a renaming that keeps its own keys is made once;
* **`Codebook.keysWithin_stored`**: stored documents and operands hold no reserved character in a key, and
  escaping them again changes nothing.
-/

namespace Dossier

/-! ## One key -/

namespace Keys

variable {c d : Char} {order text : List Char}

theorem mem_written_singleton (hc : c ∈ restoreOrder) (hd : d ∈ restoreOrder) :
    d ∈ written [c] text ↔ d ≠ c ∧ d ∈ text := by
  induction text with
  | nil => simp
  | cons x text ih =>
    by_cases hx : x = c
    · subst hx
      have htoken : d ∉ token x := not_mem_token x hc d hd
      rw [written_cons_of_mem List.mem_cons_self, List.mem_append, ih, List.mem_cons]
      tauto
    · rw [written_cons_of_not_mem (by simpa using hx), List.mem_cons, List.mem_cons, ih]
      constructor
      · rintro (rfl | ⟨hne, hmem⟩)
        · exact ⟨hx, .inl rfl⟩
        · exact ⟨hne, .inr hmem⟩
      · rintro ⟨hne, rfl | hmem⟩
        · exact .inl rfl
        · exact .inr ⟨hne, hmem⟩

/-- **Writing the tokens of several characters**, one kind after the other, removes these and adds no
reserved one. -/
theorem mem_foldr_written (ho : order ⊆ restoreOrder) (hd : d ∈ restoreOrder) :
    d ∈ order.foldr (fun c text => written [c] text) text ↔ d ∉ order ∧ d ∈ text := by
  induction order with
  | nil => simp
  | cons c order ih =>
    rw [List.cons_subset] at ho
    rw [List.foldr_cons, mem_written_singleton ho.1 hd, ih ho.2, List.mem_cons, not_or, and_assoc]

theorem foldr_written (ho : order ⊆ restoreOrder) (hn : order.Nodup) (text : List Char) :
    order.foldr (fun c text => written [c] text) text = written order text := by
  induction order with
  | nil => exact (written_eq_self fun _ _ => List.not_mem_nil).symm
  | cons c order ih =>
    rw [List.cons_subset] at ho
    rw [List.nodup_cons] at hn
    rw [List.foldr_cons, ih ho.2 hn.2, written_written ho.1 ho.2 hn.1]

/-- **A key is escaped** by writing the tokens of dots, then of dollar signs, then of NUL. -/
theorem escapeChars_eq_foldr (key : List Char) :
    escapeChars key = restoreOrder.foldr (fun c text => written [c] text) key := by
  rw [escapeChars_eq_written, foldr_written (List.Subset.refl _) (by simp [restoreOrder])]

/-- **An escaped key** holds no reserved character. -/
theorem unreserved_escape (key : String) : Unreserved (escape key) := by
  intro c hc hmem
  rw [escape, String.toList_ofList, escapeChars_eq_foldr,
    mem_foldr_written (List.Subset.refl _) hc] at hmem
  exact hmem.1 hc

theorem escape_escape (key : String) : escape (escape key) = escape key :=
  escape_of_unreserved (unreserved_escape key)

end Keys

/-! ## Keys at every depth -/

namespace Value

variable {rename : String → String} {P : String → Prop}

theorem forall_keysWithin_renameKeys (h : ∀ key, P (rename key)) (v : Value) :
    ∀ key ∈ (v.renameKeys rename).keysWithin, P key := by
  induction v using Value.induct with
  | atom v hatom => cases v <;> simp_all [isAtom, renameKeys, keysWithin]
  | codeWithScope source scope => simp [renameKeys, keysWithin]
  | array items ih =>
    rw [renameKeys, renameItems_eq_map]
    intro key hkey
    obtain ⟨w, hw, hkey⟩ := mem_keysWithin_array.mp hkey
    obtain ⟨v, hv, rfl⟩ := List.mem_map.mp hw
    exact ih v hv key hkey
  | document fields ih =>
    rw [renameKeys, renameFields_eq_map]
    intro key hkey
    obtain ⟨entry, hentry, hkey⟩ := mem_keysWithin_document.mp hkey
    obtain ⟨f, hf, rfl⟩ := List.mem_map.mp (Entries.mem_ofList hentry)
    rcases hkey with rfl | hkey
    · exact h f.1
    · exact ih f hf key hkey

/-- **A renaming that keeps the keys it makes** is made once: equal keys have been merged already. -/
theorem renameKeys_renameKeys_self (h : ∀ key, rename (rename key) = rename key) (v : Value) :
    (v.renameKeys rename).renameKeys rename = v.renameKeys rename := by
  induction v using Value.induct with
  | atom v hatom => cases v <;> simp_all [isAtom, renameKeys]
  | codeWithScope source scope => rfl
  | array items ih =>
    rw [renameKeys, renameKeys, renameItems_eq_map, renameItems_eq_map, List.map_map]
    exact congrArg array (List.map_congr_left ih)
  | document fields ih =>
    rw [renameKeys, renameKeys, renameFields_eq_map, renameFields_eq_map]
    -- every field is kept, and the merging finds the keys distinct
    have hkept : ∀ entry ∈ Entries.ofList (fields.map (Prod.map rename (renameKeys rename))),
        Prod.map rename (renameKeys rename) entry = entry := by
      intro entry hentry
      obtain ⟨f, hf, rfl⟩ := List.mem_map.mp (Entries.mem_ofList hentry)
      exact Prod.ext (h f.1) (ih f hf)
    rw [List.map_congr_left hkept, List.map_id', Entries.ofList_of_distinct (Entries.distinct_ofList _)]

end Value

/-! ## Stored documents and operands -/

namespace Codebook

variable {book : Codebook} {d stored : Document} {field : String} {v w : Value}

theorem keyed_of_follows (hp : book.follows .escapeReservedKeys = true) (v : Value) :
    book.keyed v = v.renameKeys Keys.escape := if_pos hp

theorem exists_renameKeys_of_encodeOperand (hp : book.follows .escapeReservedKeys = true)
    (h : book.encodeOperand field v = .ok w) : ∃ x : Value, w = x.renameKeys Keys.escape := by
  rw [encodeOperand_eq] at h
  obtain ⟨x, -, rfl⟩ := map_eq_ok.mp h
  exact ⟨x, keyed_of_follows hp x⟩

theorem exists_renameKeys_of_encodeDocument (hp : book.follows .escapeReservedKeys = true)
    (h : book.encodeDocument d = .ok stored) :
    ∃ x : Value, .document stored = x.renameKeys Keys.escape := by
  obtain ⟨a, -, hstored⟩ := encodeDocument_eq_ok_iff_keyed.mp h
  exact ⟨.document a, hstored.trans (keyed_of_follows hp _)⟩

/-- **Keys of stored values.** Under a codebook that escapes reserved keys, whatever codecs it holds, no
key in a stored document or operand, at any depth, holds a reserved character, and escaping the keys
once more changes nothing. -/
theorem keysWithin_stored (hp : book.follows .escapeReservedKeys = true) :
    (∀ d stored, book.encodeDocument d = .ok stored →
      (∀ key ∈ stored.keysWithin, Keys.Unreserved key) ∧ stored.renameKeys Keys.escape = stored) ∧
    ∀ field v w, book.encodeOperand field v = .ok w →
      (∀ key ∈ w.keysWithin, Keys.Unreserved key) ∧ w.renameKeys Keys.escape = w := by
  refine ⟨fun d stored h => ?_, fun field v w h => ?_⟩
  · obtain ⟨x, hx⟩ := exists_renameKeys_of_encodeDocument hp h
    have hagain := Value.renameKeys_renameKeys_self Keys.escape_escape x
    rw [← hx, Value.renameKeys, Value.document.injEq] at hagain
    refine ⟨?_, hagain⟩
    rw [Document.keysWithin, hx]
    exact Value.forall_keysWithin_renameKeys Keys.unreserved_escape x
  · obtain ⟨x, rfl⟩ := exists_renameKeys_of_encodeOperand hp h
    exact ⟨Value.forall_keysWithin_renameKeys Keys.unreserved_escape x,
      Value.renameKeys_renameKeys_self Keys.escape_escape x⟩

/-- The key that a codec brings in is escaped as well; two keys of a document become one. -/
theorem keysWithin_stored_wrapped :
    let book := wrappingOne [("keys", [.escapeReservedKeys])] "a"
    let d : Document := [("a", .array [.document [("$", .null)]]), ("b.", .int32 1),
      ("b__dot__", .int32 2)]
    let wrapped : Value := .document [("w__dot__v", .array [.document [("__dollar__", .null)]])]
    let stored : Document := [("a", wrapped), ("b__dot__", .int32 2)]
    book.follows .escapeReservedKeys = true ∧
      book.encodeDocument d = .ok stored ∧
      (∀ key ∈ stored.keysWithin, Keys.Unreserved key) ∧ stored.renameKeys Keys.escape = stored ∧
      book.encodeOperand "a" (.array [.document [("$", .null)]]) = .ok wrapped ∧
      (∀ key ∈ wrapped.keysWithin, Keys.Unreserved key) ∧ wrapped.renameKeys Keys.escape = wrapped := by
  intro book d wrapped stored
  have hp : book.follows .escapeReservedKeys = true := rfl
  have hd : book.encodeDocument d = .ok stored := rfl
  have hv : book.encodeOperand "a" (.array [.document [("$", .null)]]) = .ok wrapped := rfl
  obtain ⟨hdocuments, hoperands⟩ := keysWithin_stored hp
  obtain ⟨hfree, hagain⟩ := hdocuments d stored hd
  exact ⟨hp, hd, hfree, hagain, hv, hoperands "a" _ wrapped hv⟩

end Codebook

end Dossier
