/-!
# Dotted texts

A dotted text names a place in a document: the pieces between its dots are the steps to take.

* **`segments`**: the pieces between the dots, never an empty list (`segments_ne_nil`);
* `join`: pieces with dots between them; `join_segments`: it undoes the cutting.
-/

namespace Dossier.Dotted

/-- The runs of characters between the dots. -/
def split : List Char → List (List Char)
  | [] => [[]]
  | c :: rest =>
    if c = '.' then [] :: split rest
    else match split rest with
      | [] => [[c]]
      | piece :: pieces => (c :: piece) :: pieces

/-- The pieces of `text` between its dots. -/
def segments (text : String) : List String := (split text.toList).map String.ofList

/-- The pieces in order, a dot between any two. -/
def join (pieces : List String) : String := String.intercalate "." pieces

theorem split_ne_nil (text : List Char) : split text ≠ [] := by
  cases text with
  | nil => simp [split]
  | cons c rest =>
    simp only [split]
    split
    · simp
    · split <;> simp

theorem segments_ne_nil (text : String) : segments text ≠ [] := by
  simp [segments, split_ne_nil]

/-- No piece holds a dot. -/
theorem dot_not_mem_split (text : List Char) : ∀ piece ∈ split text, '.' ∉ piece := by
  induction text with
  | nil => simp [split]
  | cons c rest ih =>
    simp only [split]
    split
    · rename_i h
      intro piece hp
      rcases List.mem_cons.mp hp with rfl | hp
      · simp
      · exact ih piece hp
    · rename_i h
      split
      · intro piece hp
        rcases List.mem_singleton.mp hp with rfl
        simpa using fun e => h e.symm
      · rename_i p ps hs
        intro piece hp
        rcases List.mem_cons.mp hp with rfl | hp
        · have := ih p (by rw [hs]; exact List.mem_cons_self)
          simpa [this] using fun e => h e.symm
        · exact ih piece (by rw [hs]; exact List.mem_cons_of_mem _ hp)

/-- Cutting at the dots loses nothing. -/
theorem intercalate_split (text : List Char) : ['.'].intercalate (split text) = text := by
  induction text with
  | nil => simp [split]
  | cons c rest ih =>
    cases hs : split rest with
    | nil => exact absurd hs (split_ne_nil rest)
    | cons piece pieces =>
      rw [hs] at ih
      by_cases h : c = '.' <;> cases pieces <;> simp_all [split]

theorem split_append_dot (front back : List Char) :
    split (front ++ '.' :: back) = split front ++ split back := by
  induction front with
  | nil => simp [split]
  | cons c rest ih =>
    rw [List.cons_append, split, split, ih]
    by_cases h : c = '.'
    · simp [h]
    · rw [if_neg h, if_neg h]
      cases hs : split rest with
      | nil => exact absurd hs (split_ne_nil rest)
      | cons piece pieces => rfl

theorem segments_append_dot (front back : String) :
    segments (front ++ "." ++ back) = segments front ++ segments back := by
  have hlist : (front ++ "." ++ back).toList = front.toList ++ '.' :: back.toList := by simp
  rw [segments, hlist, split_append_dot, List.map_append, segments, segments]

theorem join_segments (text : String) : join (segments text) = text := by
  rw [join, segments, ← String.toList_inj, String.toList_intercalate, List.map_map]
  simpa [Function.comp_def] using intercalate_split text.toList

end Dossier.Dotted
