import Mathlib
import Dossier.Identity
import Dossier.Proofs.Number.Decimal

/-!
# Reading back the text of identifiers

* `Hex.digit?_digit`, **`Hex.decode?_encode`**: digits of fixed width are read back as the number;
* `Uuid.unhyphenate?_hyphenate`: the hyphens between groups are removed again;
* **`Uuid.parseHyphenated?_text`**, `Uuid.text_injective`: the text of a UUID is read back as the
  UUID, so no two have one text;
* `ObjectId.parse?_text`, `Uuid.parse?_text`, **`Identity.parse?_text`**: every identity is read back
  from its text, and a text that is read gives an identity of the scheme asked for
  (`Identity.scheme_of_parse?`).
-/

namespace Dossier

namespace Hex

theorem digit?_digit {n : ℕ} (h : n < 16) : digit? (digit n) = some n := by
  interval_cases n <;> rfl

theorem decodeFrom_append (acc : ℕ) (xs ys : List Char) :
    decodeFrom acc (xs ++ ys) = (decodeFrom acc xs).bind (decodeFrom · ys) := by
  induction xs generalizing acc with
  | nil => rfl
  | cons c rest ih =>
    rw [List.cons_append, decodeFrom, decodeFrom, Option.bind_assoc]
    simp only [ih]

theorem decodeFrom_encode (acc : ℕ) {width n : ℕ} (h : n < 16 ^ width) :
    decodeFrom acc (encode width n) = some (acc * 16 ^ width + n) := by
  induction width generalizing n with
  | zero =>
    rw [Nat.pow_zero, Nat.lt_one_iff] at h
    simp [encode, decodeFrom, h]
  | succ width ih =>
    have hq : n / 16 < 16 ^ width := by
      rw [Nat.pow_succ] at h
      omega
    rw [encode, decodeFrom_append, ih hq, Option.bind_some, decodeFrom,
      digit?_digit (Nat.mod_lt n (by norm_num)), Option.bind_some, decodeFrom, Nat.pow_succ,
      Nat.add_mul, Nat.mul_assoc, Nat.add_assoc]
    congr 2
    omega

/-- **Digits of fixed width are read back** as the number that they were written for. -/
theorem decode?_encode {width n : ℕ} (h : n < 16 ^ width) : decode? (encode width n) = some n := by
  rw [decode?, decodeFrom_encode 0 h, Nat.zero_mul, Nat.zero_add]

theorem decodeExact?_encode {width n : ℕ} (h : n < 16 ^ width) :
    decodeExact? width (encode width n) = some n := by
  rw [decodeExact?, if_pos (length_encode width n), decode?_encode h]

theorem exists_digit_of_mem_encode {c : Char} {width n : ℕ} (h : c ∈ encode width n) :
    ∃ d < 16, c = digit d := by
  induction width generalizing n with
  | zero => cases h
  | succ width ih =>
    rw [encode, List.mem_append, List.mem_singleton] at h
    obtain h | rfl := h
    · exact ih h
    · exact ⟨n % 16, Nat.mod_lt n (by norm_num), rfl⟩

end Hex

theorem ObjectId.parse?_text (id : ObjectId) : ObjectId.parse? id.text = some id := by
  have hlt : id.toBitVec.toNat < 16 ^ 24 := id.toBitVec.isLt
  rw [parse?, text, String.toList_ofList, Hex.decodeExact?_encode hlt, Option.map_some,
    BitVec.ofNat_toNat, BitVec.setWidth_eq]

namespace Uuid

theorem unhyphenate?_hyphenate {sizes : List ℕ} {digits : List Char} (hs : sizes ≠ [])
    (h : digits.length = sizes.sum) :
    unhyphenate? sizes (hyphenate sizes digits) = some digits := by
  induction sizes generalizing digits with
  | nil => exact absurd rfl hs
  | cons size sizes ih =>
    cases sizes with
    | nil =>
      rw [List.sum_cons, List.sum_nil, Nat.add_zero] at h
      rw [hyphenate, unhyphenate?, if_pos h]
    | cons next sizes =>
      rw [List.sum_cons] at h
      have htake : (digits.take size).length = size := by rw [List.length_take]; omega
      have hdrop : unhyphenate? (next :: sizes) (hyphenate (next :: sizes) (digits.drop size)) =
          some (digits.drop size) := ih (by simp) (by rw [List.length_drop]; omega)
      simp only [hyphenate, unhyphenate?, List.drop_left' htake, List.take_left' htake, htake,
        if_true]
      rw [hdrop, Option.map_some, List.take_append_drop]

/-- **The text of a UUID is read back** as the UUID. -/
theorem parseHyphenated?_text (id : Uuid) : parseHyphenated? id.text.toList = some id := by
  have hlt : id.toBitVec.toNat < 16 ^ 32 := id.toBitVec.isLt
  rw [parseHyphenated?, text, String.toList_ofList,
    unhyphenate?_hyphenate (by simp [groups]) (by rw [Hex.length_encode]; rfl), Option.bind_some,
    Hex.decodeExact?_encode hlt, Option.map_some, BitVec.ofNat_toNat, BitVec.setWidth_eq]

theorem text_injective {a b : Uuid} (h : a.text = b.text) : a = b := by
  have := parseHyphenated?_text a
  rw [h, parseHyphenated?_text b] at this
  exact (Option.some.inj this).symm

theorem length_hyphenate {sizes : List ℕ} {digits : List Char} (h : digits.length = sizes.sum) :
    (hyphenate sizes digits).length = digits.length + (sizes.length - 1) := by
  induction sizes generalizing digits with
  | nil => rfl
  | cons size sizes ih =>
    cases sizes with
    | nil => rfl
    | cons next sizes =>
      rw [List.sum_cons] at h
      have hdrop : (digits.drop size).length = (next :: sizes).sum := by
        rw [List.length_drop]
        omega
      simp only [hyphenate, List.length_append, List.length_cons, ih hdrop, List.length_take,
        List.length_drop]
      omega

theorem mem_hyphenate {c : Char} {sizes : List ℕ} {digits : List Char}
    (h : c ∈ hyphenate sizes digits) : c = '-' ∨ c ∈ digits := by
  induction sizes generalizing digits with
  | nil => exact .inr h
  | cons size sizes ih =>
    cases sizes with
    | nil => exact .inr h
    | cons next sizes =>
      simp only [hyphenate, List.mem_append, List.mem_cons] at h
      obtain h | h | h := h
      · exact .inr (List.mem_of_mem_take h)
      · exact .inl h
      · exact (ih h).imp_right List.mem_of_mem_drop

theorem eq_or_exists_digit_of_mem_text {id : Uuid} {c : Char} (h : c ∈ id.text.toList) :
    c = '-' ∨ ∃ d < 16, c = Hex.digit d := by
  rw [text, String.toList_ofList] at h
  exact (mem_hyphenate h).imp_right Hex.exists_digit_of_mem_encode

/-- What begins with the resource name holds the letter `u`, which is no digit. -/
theorem withoutResourceName?_text (id : Uuid) : withoutResourceName? id.text.toList = none := by
  rw [withoutResourceName?, if_neg]
  intro h
  have hu : 'u' ∈ (id.text.toList.take 9).map Char.toLower := by
    rw [h]
    decide
  obtain ⟨c, hc, hlower⟩ := List.mem_map.mp hu
  obtain rfl | ⟨d, hd, rfl⟩ := eq_or_exists_digit_of_mem_text (List.mem_of_mem_take hc)
  · exact absurd hlower (by decide)
  · interval_cases d <;> exact absurd hlower (by decide)

theorem parse?_text (id : Uuid) : parse? id.text = some id := by
  have hlength : id.text.toList.length = 36 := by
    rw [text, String.toList_ofList, length_hyphenate (by rw [Hex.length_encode]; rfl),
      Hex.length_encode]
    rfl
  rw [parse?]
  simp only [hlength, withoutResourceName?_text, parseHyphenated?_text]
  simp

end Uuid

namespace Identity

/-- **Every identity is read back** from its text. -/
theorem parse?_text (id : Identity) : parse? id.scheme id.text = some id := by
  cases id with
  | object id => rw [scheme, text, parse?, ObjectId.parse?_text, Option.map_some]
  | integer n =>
    rw [scheme, text, parse?, Numeral.integer?_toString, Option.bind_some, Width.int64?_toInt,
      Option.map_some]
  | uuid id => rw [scheme, text, parse?, Uuid.parse?_text, Option.map_some]

theorem scheme_of_parse? {scheme : Scheme} {text : String} {id : Identity}
    (h : parse? scheme text = some id) : id.scheme = scheme := by
  cases scheme <;>
    · obtain ⟨_, -, rfl⟩ := Option.map_eq_some_iff.mp h
      rfl

end Identity

end Dossier
