import Mathlib
import Dossier.Json.Reader
import Dossier.Proofs.Number.Decimal

/-!
# Texts that the machine reads in pieces

The machine of `Json.Token.step` collects the characters of a quoted text and of a word until each
ends.

* **`Json.Token.Reads`**: characters that the machine reads as whole tokens; what one run of
  characters and the next are read as, they are read as together (`Json.Token.Reads.append`);
* `Json.Token.Reads.punctuation`, `Json.Token.Reads.quoted`: marks, and texts without escapes;
* `Json.Token.scan?_word`: a text that is one word;
* **`Json.Token.number?_toString`**, `Json.Token.scan?_toString`: the text of an integer of 64 bits
  is the number.
-/

namespace Dossier.Json

namespace Token

/-- Whether the machine, between two tokens, reads `cs` as `tokens` and is between two again. -/
def Reads (cs : List Char) (tokens : List Token) : Prop :=
  ∀ before, cs.foldlM step (.between, before) = some (.between, tokens.reverse ++ before)

theorem Reads.append {xs ys : List Char} {first second : List Token} (hx : Reads xs first)
    (hy : Reads ys second) : Reads (xs ++ ys) (first ++ second) := by
  intro before
  rw [List.foldlM_append, hx before, Option.bind_eq_bind, Option.bind_some, hy,
    List.reverse_append, List.append_assoc]

theorem Reads.scan? {source : String} {tokens : List Token} (h : Reads source.toList tokens) :
    scan? source = some tokens := by
  rw [Token.scan?, h [], Option.bind_some, finish, List.append_nil, List.reverse_reverse]

theorem Reads.punctuation {c : Char} {token : Token} (h : punctuation? c = some token) :
    Reads [c] [token] := by
  intro before
  unfold punctuation? at h
  split at h <;> first | (cases h; rfl) | cases h

/-! ## Quoted texts -/

/-- Whether a character stands for itself between quotes. -/
def IsPlain (c : Char) : Prop := c ≠ '"' ∧ c ≠ '\\' ∧ 0x20 ≤ c.toNat

instance (c : Char) : Decidable (IsPlain c) := inferInstanceAs (Decidable (_ ∧ _ ∧ _))

theorem step_text {c : Char} (h : IsPlain c) (read : List Char) (tokens : List Token) :
    step (.text read, tokens) c = some (.text (c :: read), tokens) := by
  rw [step, if_neg h.1, if_neg h.2.1, if_neg (Nat.not_lt.mpr h.2.2)]

theorem foldlM_step_text {cs : List Char} (h : ∀ c ∈ cs, IsPlain c) (read : List Char)
    (tokens : List Token) :
    cs.foldlM step (.text read, tokens) = some (.text (cs.reverse ++ read), tokens) := by
  induction cs generalizing read with
  | nil => rfl
  | cons c cs ih =>
    rw [List.forall_mem_cons] at h
    rw [List.foldlM_cons, step_text h.1, Option.bind_eq_bind, Option.bind_some, ih h.2,
      List.reverse_cons, List.append_assoc, List.singleton_append]

/-- **A quoted text without escapes is a token.** -/
theorem Reads.quoted {cs : List Char} (h : ∀ c ∈ cs, IsPlain c) :
    Reads ('"' :: (cs ++ ['"'])) [text (String.ofList cs)] := by
  intro before
  have hstart : step (.between, before) '"' = some (.text [], before) := rfl
  rw [List.foldlM_cons, hstart, Option.bind_eq_bind, Option.bind_some, List.foldlM_append,
    foldlM_step_text h, Option.bind_eq_bind, Option.bind_some, List.foldlM_cons, step, if_pos rfl,
    List.append_nil, List.reverse_reverse]
  rfl

/-! ## Words -/

theorem foldlM_step_word {cs : List Char} (h : ∀ c ∈ cs, isWordChar c = true) (read : List Char)
    (tokens : List Token) :
    cs.foldlM step (.word read, tokens) = some (.word (cs.reverse ++ read), tokens) := by
  induction cs generalizing read with
  | nil => rfl
  | cons c cs ih =>
    rw [List.forall_mem_cons] at h
    rw [List.foldlM_cons, step, if_pos h.1, Option.bind_eq_bind, Option.bind_some, ih h.2,
      List.reverse_cons, List.append_assoc, List.singleton_append]

theorem isBlank_of_isWordChar {c : Char} (h : isWordChar c = true) : isBlank c = false := by
  rw [Bool.eq_false_iff]
  intro hblank
  simp only [isBlank, Bool.or_eq_true, beq_iff_eq] at hblank
  obtain ((rfl | rfl) | rfl) | rfl := hblank <;> exact absurd h (by decide)

theorem scan?_word {word : String} (hne : word.toList ≠ [])
    (h : ∀ c ∈ word.toList, isWordChar c = true) :
    scan? word = (ofWord? word).map ([·]) := by
  obtain ⟨c, cs, hcs⟩ := List.exists_cons_of_ne_nil hne
  have hword : String.ofList (c :: cs) = word := by rw [← hcs, String.ofList_toList]
  rw [hcs, List.forall_mem_cons] at h
  have hstart : step (.between, []) c = some (.word [c], []) := by
    rw [step, startWith, isBlank_of_isWordChar h.1, if_neg Bool.false_ne_true, if_pos h.1]
  rw [scan?, hcs, List.foldlM_cons, hstart, Option.bind_eq_bind, Option.bind_some,
    foldlM_step_word h.2, Option.bind_some, finish, closeWord, List.reverse_append,
    List.reverse_reverse, List.reverse_singleton, List.singleton_append, hword, Option.map_map]
  rfl

/-! ## Integers -/

theorem whole?_toDigits (n : ℕ) : whole? (Nat.toDigits 10 n) = some (Nat.toDigits 10 n, []) := by
  have hdigits : digits? (Nat.toDigits 10 n) = some (Nat.toDigits 10 n, []) := by
    have htake := List.takeWhile_eq_self_iff.mpr (Numeral.isDigit_of_mem_toDigits (n := n))
    have hdrop := List.dropWhile_eq_nil_iff.mpr (Numeral.isDigit_of_mem_toDigits (n := n))
    rw [digits?, htake, hdrop]
    simp
  have hzero : (Nat.toDigits 10 n).length = 1 ∨ (Nat.toDigits 10 n).head? ≠ some '0' := by
    by_cases hn : n = 0
    · exact .inl (by rw [hn, Nat.toDigits_zero, List.length_singleton])
    · exact .inr fun h => hn (Numeral.eq_zero_of_head?_toDigits h)
  rw [whole?, hdigits, Option.filter_some, if_pos]
  simpa using hzero

theorem number?_toString_of_integer? {z : ℤ} {json : Json}
    (h : integer? (decide (z < 0)) z.natAbs = some json) :
    number? (toString z).toList = some json := by
  have hwhole := whole?_toDigits z.natAbs
  have hread : (Numeral.digits? (Nat.toDigits 10 z.natAbs)).bind (integer? (decide (z < 0))) =
      some json := by
    rw [Numeral.digits?_toDigits, Option.bind_some, h]
  rw [Numeral.toList_toString]
  by_cases hz : z < 0
  · rw [decide_eq_true hz] at hread
    rw [if_pos hz]
    simp [number?, hwhole, fraction?, exponent?, hread]
  · have hdigits := Numeral.isDigit_of_mem_toDigits (n := z.natAbs)
    obtain ⟨c, cs, hcs⟩ := List.exists_cons_of_ne_nil (Nat.toDigits_ne_nil (n := z.natAbs) (b := 10))
    have hc : c ≠ '-' := by
      rintro rfl
      exact absurd (hdigits '-' (hcs ▸ List.mem_cons_self)) (by decide)
    rw [decide_eq_false hz] at hread
    rw [hcs] at hwhole hread
    rw [if_neg hz, hcs]
    simp [number?, hc, hwhole, fraction?, exponent?, hread]

end Token

theorem toInt_toUInt64 {n : Int64} (h : 0 ≤ n.toInt) : (n.toUInt64.toNat : ℤ) = n.toInt := by
  rw [Int64.toNat_toUInt64_of_le (Int64.le_iff_toInt_le.mpr h), Int64.toNatClampNeg,
    Int.toNat_of_nonneg h]

theorem ofInt64_eq (n : Int64) :
    ofInt64 n = if n.toInt < 0 then negative n else natural n.toUInt64 := by
  have hneg : n < 0 ↔ n.toInt < 0 := by
    rw [Int64.lt_iff_toInt_lt]
    rfl
  simp only [ofInt64, hneg]

/-- **The text of an integer of 64 bits is the number.** -/
theorem Token.number?_toString (n : Int64) :
    number? (toString n.toInt).toList = some (ofInt64 n) := by
  refine number?_toString_of_integer? ?_
  rw [ofInt64_eq, integer?]
  by_cases hn : n.toInt < 0
  · rw [decide_eq_true hn, if_pos rfl, if_pos hn, if_neg (by omega),
      show -(n.toInt.natAbs : ℤ) = n.toInt by omega, Width.int64?_toInt, Option.map_some]
  · have hsize : n.toInt.natAbs = n.toUInt64.toNat := by
      have := toInt_toUInt64 (Int.not_lt.mp hn)
      omega
    rw [decide_eq_false hn, if_neg Bool.false_ne_true, if_neg hn, hsize,
      if_pos n.toUInt64.toNat_lt, UInt64.ofNat_toNat]

theorem Token.ofWord?_toString (n : Int64) :
    ofWord? (toString n.toInt) = some (.scalar (ofInt64 n)) := by
  have hchar : ∀ c ∈ (toString n.toInt).toList, c = '-' ∨ c.isDigit = true :=
    fun _ => Numeral.eq_or_isDigit_of_mem_toString
  unfold ofWord?
  split
  case h_1 h => exact absurd (hchar 'n' (by rw [h]; decide)) (by decide)
  case h_2 h => exact absurd (hchar 't' (by rw [h]; decide)) (by decide)
  case h_3 h => exact absurd (hchar 'f' (by rw [h]; decide)) (by decide)
  case h_4 => rw [number?_toString, Option.map_some]

theorem Token.scan?_toString (n : Int64) :
    scan? (toString n.toInt) = some [.scalar (ofInt64 n)] := by
  have hword : ∀ c ∈ (toString n.toInt).toList, isWordChar c = true := by
    intro c hc
    obtain rfl | hdigit := Numeral.eq_or_isDigit_of_mem_toString hc
    · decide
    · simp [isWordChar, Char.isAlphanum, hdigit]
  have hne : (toString n.toInt).toList ≠ [] := by
    rw [Numeral.toList_toString]
    split
    · exact List.cons_ne_nil _ _
    · exact Nat.toDigits_ne_nil
  rw [scan?_word hne hword, ofWord?_toString, Option.map_some]

end Dossier.Json
