import Mathlib
import Dossier.Codebook.Keys

/-!
# Misread keys

A stored key carries a token in place of every reserved character, and the tokens are read back one
kind after the other. This goes wrong exactly where a token is read that was not written: literally
present in the key, or put together from underscores of the key, a word of the key, and the
underscores at the ends of tokens next to it.

* `written`, `token`, `word`: keys with some characters written as tokens; `escapeChars` writes all
  of them (`escapeChars_eq_written`);
* `misreadingsOf`: the texts that are read as one character, `misreadings` those of all kinds;
* **`replaceFrom_written_iff`**: one kind is read back exactly where it was written iff none of its
  misreadings occurs;
* `restored_written_iff`: a slip in one kind is not repaired by a later one, since writing undoes
  reading (`written_restored`);
* **`restore_escape_iff`**: a key comes back from its stored form iff it is `Unambiguous`.
-/

namespace Dossier.Keys

/-! ## Tokens -/

/-- The letters between the underscores of a token. -/
def word : Char → List Char
  | '.' => ['d', 'o', 't']
  | '$' => ['d', 'o', 'l', 'l', 'a', 'r']
  | '\x00' => ['n', 'u', 'l', 'l']
  | _ => []

/-- Two underscores, the word of a reserved character, and two underscores. -/
def token (c : Char) : List Char := '_' :: '_' :: (word c ++ ['_', '_'])

theorem token?_of_mem {c : Char} (h : c ∈ restoreOrder) : token? c = some (token c) := by
  fin_cases h <;> rfl

theorem token?_of_not_mem {c : Char} (h : c ∉ restoreOrder) : token? c = none := by
  simp [restoreOrder] at h
  unfold token?
  split <;> simp_all

theorem word_plain : ∀ c ∈ restoreOrder, ∀ y ∈ word c, y ≠ '_' ∧ y ∉ restoreOrder := by
  simp [restoreOrder, word]

theorem word_ne_nil : ∀ c ∈ restoreOrder, word c ≠ [] := by
  simp [restoreOrder, word]

theorem not_mem_token : ∀ c ∈ restoreOrder, ∀ d ∈ restoreOrder, d ∉ token c := by
  simp [restoreOrder, token, word]

/-! ## Keys with some characters written as tokens -/

/-- A key with the tokens of the `marked` characters in their place. -/
def written (marked : List Char) (key : List Char) : List Char :=
  key.flatMap fun c => if c ∈ marked then token c else [c]

@[simp] theorem written_nil (marked : List Char) : written marked [] = [] := rfl

theorem written_cons_of_mem {marked : List Char} {c : Char} (h : c ∈ marked) (key : List Char) :
    written marked (c :: key) = token c ++ written marked key := by
  rw [written, List.flatMap_cons, if_pos h]; rfl

theorem written_cons_of_not_mem {marked : List Char} {c : Char} (h : c ∉ marked) (key : List Char) :
    written marked (c :: key) = c :: written marked key := by
  rw [written, List.flatMap_cons, if_neg h]; rfl

theorem written_append (marked a b : List Char) :
    written marked (a ++ b) = written marked a ++ written marked b := List.flatMap_append

theorem written_eq_self {marked key : List Char} (h : ∀ x ∈ key, x ∉ marked) :
    written marked key = key := by
  induction key with
  | nil => rfl
  | cons x key ih =>
    rw [written_cons_of_not_mem (h x (by simp)), ih fun y hy => h y (by simp [hy])]

theorem escapeChars_eq_written (key : List Char) : escapeChars key = written restoreOrder key := by
  unfold escapeChars written
  refine List.flatMap_congr fun c _ => ?_
  split_ifs with h
  · rw [token?_of_mem h, Option.getD_some]
  · rw [token?_of_not_mem h, Option.getD_none]

variable {c : Char} {later : List Char}

theorem written_written (hc : c ∈ restoreOrder) (hl : later ⊆ restoreOrder) (hn : c ∉ later)
    (key : List Char) : written [c] (written later key) = written (c :: later) key := by
  induction key with
  | nil => rfl
  | cons x key ih =>
    by_cases hx : x ∈ later
    · rw [written_cons_of_mem hx, written_cons_of_mem (List.mem_cons_of_mem _ hx),
        written_append, ih, written_eq_self]
      rintro y hy hyc
      rw [List.mem_singleton.mp hyc] at hy
      exact not_mem_token x (hl hx) c hc hy
    · rw [written_cons_of_not_mem hx]
      by_cases hxc : x = c
      · subst hxc
        rw [written_cons_of_mem (by simp), written_cons_of_mem (by simp), ih]
      · rw [written_cons_of_not_mem (by simpa using hxc),
          written_cons_of_not_mem (by simp [hxc, hx]), ih]

theorem not_mem_written {d : Char} (hd : d ∈ restoreOrder) {marked : List Char}
    (hm : marked ⊆ restoreOrder) (hdm : d ∈ marked) (key : List Char) : d ∉ written marked key := by
  simp only [written, List.mem_flatMap, not_exists, not_and]
  intro x _
  split_ifs with hx
  · exact not_mem_token x (hm hx) d hd
  · rw [List.mem_singleton]; rintro rfl; exact hx hdm

/-! ## Reading one kind of token back -/

theorem replaceFrom_skip (tok : List Char) (c : Char) (xs t : List Char) :
    replaceFrom tok c xs.length (xs ++ t) = replaceFrom tok c 0 t := by
  induction xs with
  | nil => rfl
  | cons x xs ih => simpa [replaceFrom] using ih

theorem replaceFrom_token (c : Char) (t : List Char) :
    replaceFrom (token c) c 0 (token c ++ t) = c :: replaceFrom (token c) c 0 t := by
  have hp : (token c).isPrefixOf (token c ++ t) = true := by simp
  have hskip := replaceFrom_skip (token c) c (token c).tail t
  simp only [token, List.cons_append, replaceFrom] at hp hskip ⊢
  rw [if_pos hp]
  exact congrArg (c :: ·) hskip

theorem replaceFrom_cons_iff {y : Char} (hy : y ≠ c) (t out : List Char) :
    replaceFrom (token c) c 0 (y :: t) = y :: out ↔
      ¬ token c <+: y :: t ∧ replaceFrom (token c) c 0 t = out := by
  rw [replaceFrom]
  by_cases hp : token c <+: y :: t
  · rw [if_pos (List.isPrefixOf_iff_prefix.mpr hp)]
    simp [hp, hy.symm]
  · rw [if_neg (fun h => hp (List.isPrefixOf_iff_prefix.mp h))]
    simp [hp]

theorem written_replaceFrom (t : List Char) (hc : c ∉ t) :
    written [c] (replaceFrom (token c) c 0 t) = t := by
  induction h : t.length using Nat.strong_induction_on generalizing t with
  | _ n ih =>
    cases t with
    | nil => rfl
    | cons y t =>
      by_cases hp : token c <+: y :: t
      · obtain ⟨rest, hrest⟩ := hp
        rw [← hrest, replaceFrom_token, written_cons_of_mem (by simp)]
        have hlen : rest.length < n := by
          rw [← h, ← hrest]; simp [token]; omega
        rw [ih _ hlen rest (fun hm => hc (by rw [← hrest]; simp [hm])) rfl]
      · have hy : y ≠ c := fun e => hc (by simp [e])
        rw [(replaceFrom_cons_iff hy t _).mpr ⟨hp, rfl⟩,
          written_cons_of_not_mem (by simpa using hy),
          ih _ (by rw [← h]; simp) t (fun hm => hc (by simp [hm])) rfl]

/-! ## Texts that are read where no token was written -/

/-- What may stand before the word of a character: two underscores, or a character that is still
written as a token, which ends in two of them. -/
def lefts (later : List Char) : List (List Char) :=
  ['_', '_'] :: later.flatMap fun x => [[x], [x, '_']]

/-- What may stand after the word: two underscores, or a character written as a token. -/
def rights (marked : List Char) : List (List Char) :=
  ['_', '_'] :: marked.flatMap fun x => [[x], ['_', x]]

/-- The texts that are read as `c` when the `later` characters are still written as tokens. -/
def misreadingsOf (c : Char) (later : List Char) : List (List Char) :=
  (lefts later).flatMap fun l => (rights (c :: later)).map fun r => l ++ word c ++ r

theorem exists_rights {marked : List Char} {p : List Char → Prop} :
    (∃ r ∈ rights marked, p r) ↔ p ['_', '_'] ∨ ∃ x ∈ marked, p [x] ∨ p ['_', x] := by
  simp [rights, or_and_right, exists_or, and_or_left]

theorem underscore_prefix_written {marked : List Char} (key : List Char) :
    ['_'] <+: written marked key ↔ ['_'] <+: key ∨ ∃ x ∈ marked, [x] <+: key := by
  cases key with
  | nil => simp
  | cons x key =>
    by_cases hx : x ∈ marked
    · simp [written_cons_of_mem hx, token, hx]
    · have hne : ¬ ∃ y ∈ marked, y = x := fun ⟨y, hy, e⟩ => hx (e ▸ hy)
      simp [written_cons_of_not_mem hx, hne]

theorem underscores_prefix_written {marked : List Char} (key : List Char) :
    ['_', '_'] <+: written marked key ↔ ∃ r ∈ rights marked, r <+: key := by
  rw [exists_rights]
  cases key with
  | nil => simp
  | cons x key =>
    by_cases hx : x ∈ marked
    · simp only [written_cons_of_mem hx, token, List.cons_append, List.cons_prefix_cons,
        List.nil_prefix, and_true, true_iff]
      exact Or.inr ⟨x, hx, Or.inl rfl⟩
    · rw [written_cons_of_not_mem hx, List.cons_prefix_cons, underscore_prefix_written]
      simp only [List.cons_prefix_cons, List.nil_prefix, and_true, and_or_left]
      refine or_congr Iff.rfl ?_
      constructor
      · rintro ⟨e, y, hy, hp⟩; exact ⟨y, Or.inr ⟨hy, e, hp⟩⟩
      · rintro ⟨y, ⟨hy, e⟩ | ⟨hy, e, hp⟩⟩
        · exact absurd (e ▸ hy) hx
        · exact ⟨e, y, hy, hp⟩

theorem word_prefix_written {w marked : List Char} (hw : ∀ y ∈ w, y ≠ '_' ∧ y ∉ marked)
    (t key : List Char) :
    w ++ t <+: written marked key ↔ ∃ rest, key = w ++ rest ∧ t <+: written marked rest := by
  induction w generalizing key with
  | nil => simp
  | cons y w ih =>
    have hy := hw y (by simp)
    cases key with
    | nil => simp
    | cons x key =>
      by_cases hx : x ∈ marked
      · have hxy : x ≠ y := fun e => hy.2 (e ▸ hx)
        simp [written_cons_of_mem hx, token, hy.1, hxy]
      · simp only [written_cons_of_not_mem hx, List.cons_append, List.cons_prefix_cons,
          List.cons.injEq, ih fun z hz => hw z (by simp [hz])]
        constructor
        · rintro ⟨rfl, rest, h, ht⟩; exact ⟨rest, ⟨rfl, h⟩, ht⟩
        · rintro ⟨rest, ⟨rfl, h⟩, ht⟩; exact ⟨rfl, rest, h, ht⟩

/-- The rest of a token begins at the front of a written key exactly when the word stands there with
one of its right ends. -/
theorem word_underscores_prefix_written {w marked : List Char}
    (hw : ∀ y ∈ w, y ≠ '_' ∧ y ∉ marked) (key : List Char) :
    w ++ ['_', '_'] <+: written marked key ↔ ∃ r ∈ rights marked, w ++ r <+: key := by
  rw [word_prefix_written hw]
  simp only [underscores_prefix_written]
  constructor
  · rintro ⟨rest, rfl, r, hr, hp⟩
    exact ⟨r, hr, (List.prefix_append_right_inj w).mpr hp⟩
  · rintro ⟨r, hr, t, rfl⟩
    exact ⟨r ++ t, by simp, r, hr, List.prefix_append r t⟩

theorem underscore_word_prefix_written {w marked : List Char}
    (hw : ∀ y ∈ w, y ≠ '_' ∧ y ∉ marked) (hm : '_' ∉ marked) (hn : w ≠ []) (key : List Char) :
    '_' :: (w ++ ['_', '_']) <+: written marked key ↔
      ∃ r ∈ rights marked, '_' :: (w ++ r) <+: key := by
  cases key with
  | nil => simp
  | cons x key =>
    by_cases hx : x ∈ marked
    · obtain ⟨y, w, rfl⟩ := List.exists_cons_of_ne_nil hn
      have hy := (hw y (by simp)).1
      have hxm : '_' ≠ x := fun e => hm (e ▸ hx)
      simp [written_cons_of_mem hx, token, List.cons_prefix_cons, hy, hxm]
    · simp only [written_cons_of_not_mem hx, List.cons_prefix_cons,
        word_underscores_prefix_written hw]
      constructor
      · rintro ⟨e, r, hr, hp⟩; exact ⟨r, hr, e, hp⟩
      · rintro ⟨r, hr, e, hp⟩; exact ⟨e, r, hr, hp⟩

/-- The token of another character stays exactly where none of its two last underscores begins a
token of `c`. -/
theorem replaceFrom_other_token_iff {x : Char} (hc : c ∈ restoreOrder) (hx : x ∈ restoreOrder)
    (h : x ≠ c) (t out : List Char) :
    replaceFrom (token c) c 0 (token x ++ t) = token x ++ out ↔
      (¬ word c ++ ['_', '_'] <+: t ∧ ¬ '_' :: (word c ++ ['_', '_']) <+: t) ∧
        replaceFrom (token c) c 0 t = out := by
  have key : ∀ ys : List Char, c ∉ ys → (replaceFrom (token c) c 0 (ys ++ t) = ys ++ out ↔
      (∀ r ∈ ys.tails, r ≠ [] → ¬ token c <+: r ++ t) ∧ replaceFrom (token c) c 0 t = out) := by
    intro ys hys
    induction ys with
    | nil => simp
    | cons y ys ih =>
      rw [List.mem_cons, not_or] at hys
      rw [List.cons_append, List.cons_append, replaceFrom_cons_iff (Ne.symm hys.1), ih hys.2]
      simp [and_assoc]
  rw [key _ (not_mem_token x hx c hc)]
  refine and_congr ?_ Iff.rfl
  fin_cases hc <;> fin_cases hx <;> first
    | exact absurd rfl h
    | simp [token, word, List.cons_prefix_cons]

theorem exists_lefts {later : List Char} {p : List Char → Prop} :
    (∃ l ∈ lefts later, p l) ↔ p ['_', '_'] ∨ ∃ x ∈ later, p [x] ∨ p [x, '_'] := by
  simp [lefts, or_and_right, exists_or, and_or_left]

theorem exists_misreading_prefix {x : Char} {key : List Char} :
    (∃ m ∈ misreadingsOf c later, m <+: x :: key) ↔ ∃ r ∈ rights (c :: later),
      (x = '_' ∧ '_' :: (word c ++ r) <+: key) ∨
        (x ∈ later ∧ (word c ++ r <+: key ∨ '_' :: (word c ++ r) <+: key)) := by
  have hflat : (∃ m ∈ misreadingsOf c later, m <+: x :: key) ↔
      ∃ l ∈ lefts later, ∃ r ∈ rights (c :: later), l ++ word c ++ r <+: x :: key := by
    simp only [misreadingsOf, List.mem_flatMap, List.mem_map]
    constructor
    · rintro ⟨_, ⟨l, hl, r, hr, rfl⟩, hp⟩; exact ⟨l, hl, r, hr, hp⟩
    · rintro ⟨l, hl, r, hr, hp⟩; exact ⟨_, ⟨l, hl, r, hr, rfl⟩, hp⟩
  rw [hflat, exists_lefts]
  simp only [List.cons_append, List.nil_append, List.cons_prefix_cons]
  constructor
  · rintro (⟨r, hr, e, hp⟩ | ⟨y, hy, ⟨r, hr, rfl, hp⟩ | ⟨r, hr, rfl, hp⟩⟩)
    · exact ⟨r, hr, Or.inl ⟨e.symm, hp⟩⟩
    · exact ⟨r, hr, Or.inr ⟨hy, Or.inl hp⟩⟩
    · exact ⟨r, hr, Or.inr ⟨hy, Or.inr hp⟩⟩
  · rintro ⟨r, hr, ⟨e, hp⟩ | ⟨hx, hp | hp⟩⟩
    · exact Or.inl ⟨r, hr, e.symm, hp⟩
    · exact Or.inr ⟨x, hx, Or.inl ⟨r, hr, rfl, hp⟩⟩
    · exact Or.inr ⟨x, hx, Or.inr ⟨r, hr, rfl, hp⟩⟩

theorem misreadingsOf_ne_nil {m : List Char} (h : m ∈ misreadingsOf c later) : m ≠ [] := by
  simp only [misreadingsOf, List.mem_flatMap, List.mem_map] at h
  obtain ⟨l, hl, r, -, rfl⟩ := h
  have hne : l ≠ [] := by
    simp only [lefts, List.mem_cons, List.mem_flatMap, List.not_mem_nil, or_false] at hl
    rcases hl with rfl | ⟨x, -, rfl | rfl⟩ <;> simp
  simp [hne]

theorem underscore_not_mem_restoreOrder : '_' ∉ restoreOrder := by simp [restoreOrder]

/-- **One kind of token is read back exactly where it was written** if and only if no misreading of
its character occurs in the key. -/
theorem replaceFrom_written_iff (hc : c ∈ restoreOrder) (hl : later ⊆ restoreOrder) (hn : c ∉ later)
    (key : List Char) :
    replaceFrom (token c) c 0 (written (c :: later) key) = written later key ↔
      ∀ m ∈ misreadingsOf c later, ¬ m <:+: key := by
  have hmarked : c :: later ⊆ restoreOrder := List.cons_subset.mpr ⟨hc, hl⟩
  have hus : '_' ∉ c :: later := fun h => underscore_not_mem_restoreOrder (hmarked h)
  have hw : ∀ y ∈ word c, y ≠ '_' ∧ y ∉ c :: later := fun y hy =>
    ⟨(word_plain c hc y hy).1, fun h => (word_plain c hc y hy).2 (hmarked h)⟩
  induction key with
  | nil =>
    simp only [written_nil, replaceFrom, List.infix_nil, true_iff]
    exact fun m hm => misreadingsOf_ne_nil hm
  | cons x key ih =>
    have hsplit : (∀ m ∈ misreadingsOf c later, ¬ m <:+: x :: key) ↔
        (¬ ∃ m ∈ misreadingsOf c later, m <+: x :: key) ∧
          ∀ m ∈ misreadingsOf c later, ¬ m <:+: key := by
      simp only [List.infix_cons_iff, not_or, not_exists, not_and, forall_and]
    rw [hsplit, exists_misreading_prefix]
    refine Iff.trans ?_ (and_congr_right fun _ => ih)
    by_cases hxl : x ∈ later
    · -- the token of a character that is restored later
      have hxc : x ≠ c := fun e => hn (e ▸ hxl)
      have hx' : x ≠ '_' := fun e => hus (List.mem_cons_of_mem _ (e ▸ hxl))
      rw [written_cons_of_mem (List.mem_cons_of_mem _ hxl), written_cons_of_mem hxl,
        replaceFrom_other_token_iff hc (hl hxl) hxc, word_underscores_prefix_written hw,
        underscore_word_prefix_written hw hus (word_ne_nil c hc)]
      simp only [hx', hxl, false_and, true_and, false_or, and_or_left, exists_or, not_or]
    · by_cases hxc : x = c
      · -- an own token
        subst hxc
        rw [written_cons_of_mem (by simp), written_cons_of_not_mem hn, replaceFrom_token]
        have hx' : x ≠ '_' := fun e => hus (e ▸ List.mem_cons_self)
        simp [hx', hxl]
      · -- a character that stands for itself
        rw [written_cons_of_not_mem (by simp [hxc, hxl]), written_cons_of_not_mem hxl,
          replaceFrom_cons_iff hxc, token, List.cons_prefix_cons,
          underscore_word_prefix_written hw hus (word_ne_nil c hc)]
        simp only [hxl, false_and, or_false, eq_comm (a := '_')]
        refine and_congr (not_congr ?_) Iff.rfl
        constructor
        · rintro ⟨e, r, hr, hp⟩; exact ⟨r, hr, e, hp⟩
        · rintro ⟨r, hr, e, hp⟩; exact ⟨e, r, hr, hp⟩

/-! ## Whole keys -/

/-- The texts that are read as another key when the characters are restored in the given order. -/
def misreadingsIn : List Char → List (List Char)
  | [] => []
  | c :: later => misreadingsOf c later ++ misreadingsIn later

theorem mem_replaceFrom {tok : List Char} {skip : Nat} {t : List Char} {y : Char}
    (h : y ∈ replaceFrom tok c skip t) : y = c ∨ y ∈ t := by
  induction t generalizing skip with
  | nil => simp [replaceFrom] at h
  | cons x t ih =>
    cases skip with
    | succ skip => exact (ih h).imp_right fun h => List.mem_cons_of_mem _ h
    | zero =>
      rw [replaceFrom] at h
      split at h
      · rcases List.mem_cons.mp h with h | h
        · exact Or.inl h
        · exact (ih h).imp_right fun h => List.mem_cons_of_mem _ h
      · rcases List.mem_cons.mp h with h | h
        · exact Or.inr (by simp [h])
        · exact (ih h).imp_right fun h => List.mem_cons_of_mem _ h

theorem written_restored (order : List Char) (ho : order ⊆ restoreOrder) (hn : order.Nodup)
    (t : List Char) (ht : ∀ x ∈ order, x ∉ t) : written order (order.foldl restoreChar t) = t := by
  induction order generalizing t with
  | nil => exact written_eq_self (by simp)
  | cons c later ih =>
    rw [List.cons_subset] at ho
    rw [List.nodup_cons] at hn
    have hread : restoreChar t c = replaceFrom (token c) c 0 t := by
      rw [restoreChar, token?_of_mem ho.1]
    have hfree : ∀ x ∈ later, x ∉ replaceFrom (token c) c 0 t := fun x hx hm => by
      rcases mem_replaceFrom hm with rfl | hm
      · exact hn.1 hx
      · exact ht x (by simp [hx]) hm
    rw [List.foldl_cons, hread, ← written_written ho.1 ho.2 hn.1, ih ho.2 hn.2 _ hfree,
      written_replaceFrom t (ht c (by simp))]

/-- Nothing that goes wrong with one kind of token is repaired by a later one. -/
theorem restored_written_iff (order : List Char) (ho : order ⊆ restoreOrder) (hn : order.Nodup)
    (key : List Char) : order.foldl restoreChar (written order key) = key ↔
      ∀ m ∈ misreadingsIn order, ¬ m <:+: key := by
  induction order with
  | nil => simp [misreadingsIn, written_eq_self]
  | cons c later ih =>
    rw [List.cons_subset] at ho
    rw [List.nodup_cons] at hn
    have hread : restoreChar (written (c :: later) key) c =
        replaceFrom (token c) c 0 (written (c :: later) key) := by
      rw [restoreChar, token?_of_mem ho.1]
    have hmarked : c :: later ⊆ restoreOrder := List.cons_subset.mpr ho
    have hfree : ∀ x ∈ later, x ∉ replaceFrom (token c) c 0 (written (c :: later) key) :=
      fun x hx hm => by
        rcases mem_replaceFrom hm with rfl | hm
        · exact hn.1 hx
        · exact not_mem_written (ho.2 hx) hmarked (List.mem_cons_of_mem _ hx) key hm
    have hstep : later.foldl restoreChar (restoreChar (written (c :: later) key) c) = key ↔
        replaceFrom (token c) c 0 (written (c :: later) key) = written later key ∧
          later.foldl restoreChar (written later key) = key := by
      rw [hread]
      constructor
      · intro h
        have he := written_restored later ho.2 hn.2 _ hfree
        rw [h] at he
        exact ⟨he.symm, he.symm ▸ h⟩
      · rintro ⟨h, hr⟩
        rw [h, hr]
    rw [List.foldl_cons, hstep, replaceFrom_written_iff ho.1 ho.2 hn.1, ih ho.2 hn.2]
    simp only [misreadingsIn, List.mem_append, or_imp, forall_and]

/-- The texts that are read as another key. -/
def misreadings : List (List Char) := misreadingsIn restoreOrder

/-- A key in which no text is read as another. -/
def Unambiguous (key : String) : Prop := ∀ m ∈ misreadings, ¬ m <:+: key.toList

instance : DecidablePred Unambiguous := fun key =>
  inferInstanceAs (Decidable (∀ m ∈ misreadings, ¬ m <:+: key.toList))

/-- **A key comes back from its stored form if and only if it is unambiguous.** -/
theorem restore_escape_iff (key : String) : restore (escape key) = key ↔ Unambiguous key := by
  have hn : restoreOrder.Nodup := by simp [restoreOrder]
  rw [restore, escape, String.toList_ofList, escapeChars_eq_written, restoreChars,
    ← String.toList_inj, String.toList_ofList,
    restored_written_iff restoreOrder (List.Subset.refl _) hn]
  rfl

/-- A dot after two underscores and the word of the dot is taken for part of an earlier token. -/
example : ¬ Unambiguous "__dot." ∧ Unambiguous "__dot$" := by decide

end Dossier.Keys
