import Mathlib
import Dossier.Proofs.Edit.OneKey
import Dossier.Proofs.Number.Rounded
import Dossier.Proofs.Value.Integer

/-!
# Keeping the greatest or the least integer

The updates that keep the greater or the lower of two values compare integers by the ranks of their
nearest doubles. Of integers with one nearest double the one that came first stays, whichever of them
is greater.

* `Extreme`, `Extreme.of`: one of the two updates, and the number that it is to leave;
* **`Extreme.kept`**: the integer that it leaves, `Extreme.find?_eq_kept`: the first one with the
  nearest double of that number;
* **`Extreme.kept_eq_iff`**, **`Extreme.kept_perm_iff`**: when that is the number itself, in one order
  of the updates and in all of them;
* **`Query.edit_extreme`**: an edit by such updates of one field.
-/

namespace Dossier

open Double

namespace Integer

/-- The rank of the nearest double. -/
def rank (a : Integer) : ℤ := rankOfInt a.toInt

theorem compare?_toValue (a b : Integer) :
    a.toValue.compare? b.toValue = some (compare a.rank b.rank) := by
  cases a <;> cases b <;> rfl

end Integer

/-- Which of two numbers an update keeps. -/
inductive Extreme where
  | greatest | least
  deriving DecidableEq, Repr

namespace Extreme

/-- Numbers turned so that the one to keep is the greater. -/
def orient : Extreme → ℤ → ℤ
  | greatest, n => n
  | least, n => -n

/-- The one of two numbers to keep. -/
def pick : Extreme → ℤ → ℤ → ℤ
  | greatest => max
  | least => min

/-- The order in which a value stands to the one that it takes the place of. -/
def wanted : Extreme → Ordering
  | greatest => .gt
  | least => .lt

/-- The number to keep of those of `x` and `vs`. -/
def of (e : Extreme) (x : Integer) (vs : List Integer) : ℤ :=
  vs.foldl (fun n v => e.pick n v.toInt) x.toInt

/-- The update of a field that is to keep the extreme of what it holds and an integer. -/
def update (e : Extreme) (field : String) (v : Integer) : Update :=
  match e with
  | greatest => ⟨field, .keepGreater v.toValue⟩
  | least => ⟨field, .keepLower v.toValue⟩

/-- What such an update makes of `a`: only an integer with a nearest double beyond that of `a` takes
its place. -/
def next (e : Extreme) (a v : Integer) : Integer :=
  if e.orient a.rank < e.orient v.rank then v else a

/-- What such updates by `vs` make of `x`. -/
def kept (e : Extreme) (x : Integer) (vs : List Integer) : Integer := vs.foldl e.next x

variable {e : Extreme} {x : Integer} {vs ws : List Integer}

theorem orient_injective (e : Extreme) : Function.Injective e.orient := by
  cases e with
  | greatest => exact Function.injective_id
  | least => exact neg_injective

theorem orient_pick (e : Extreme) (m n : ℤ) :
    e.orient (e.pick m n) = max (e.orient m) (e.orient n) := by
  cases e with
  | greatest => rfl
  | least => exact (max_neg_neg m n).symm

theorem compare_eq_wanted_iff (e : Extreme) (m n : ℤ) :
    compare m n = e.wanted ↔ e.orient n < e.orient m := by
  cases e with
  | greatest => exact compare_gt_iff_gt
  | least => exact compare_lt_iff_lt.trans neg_lt_neg_iff.symm

theorem rankOfInt_pick (e : Extreme) (m n : ℤ) :
    rankOfInt (e.pick m n) = e.pick (rankOfInt m) (rankOfInt n) := by
  cases e with
  | greatest => exact rankOfInt_mono.map_max
  | least => exact rankOfInt_mono.map_min

/-! ## One update -/

theorem rank_next (e : Extreme) (a v : Integer) : (e.next a v).rank = e.pick a.rank v.rank := by
  apply e.orient_injective
  rw [orient_pick, next]
  split
  case isTrue h => exact (max_eq_right h.le).symm
  case isFalse h => exact (max_eq_left (not_lt.mp h)).symm

theorem field_update (e : Extreme) (field : String) (v : Integer) :
    (e.update field v).field = field := by
  cases e <;> rfl

/-- **One update** puts the next integer into the field. -/
theorem yields_update (e : Extreme) (field : String) (a v : Integer) :
    (e.update field v).Yields (some a.toValue) (.ok (e.next a v).toValue) := by
  have heffect : (e.update field v).change.effect (e.update field v).field (some a.toValue) =
      .ok (Change.overwriteIf e.wanted v.toValue (some a.toValue)) := by
    cases e <;> rfl
  simp only [Change.overwriteIf, Integer.compare?_toValue, Option.some.injEq,
    compare_eq_wanted_iff] at heffect
  rw [next]
  split at heffect
  case isTrue h =>
    rw [if_pos h]
    exact .of_fill heffect (Integer.eq_of_same_map (some a) v)
  case isFalse h =>
    rw [if_neg h]
    exact .of_keep heffect

/-! ## Updates one after the other -/

theorem rankOfInt_of (e : Extreme) (x : Integer) (vs : List Integer) :
    rankOfInt (e.of x vs) = vs.foldl (fun r v => e.pick r v.rank) x.rank :=
  (List.foldl_hom rankOfInt fun n v => (e.rankOfInt_pick n v.toInt).symm).symm

theorem orient_le_foldl (e : Extreme) (r : ℤ) (vs : List Integer) :
    e.orient r ≤ e.orient (vs.foldl (fun r v => e.pick r v.rank) r) := by
  induction vs generalizing r with
  | nil => exact le_rfl
  | cons v vs ih =>
    calc e.orient r ≤ max (e.orient r) (e.orient v.rank) := le_max_left _ _
      _ = e.orient (e.pick r v.rank) := (e.orient_pick r v.rank).symm
      _ ≤ _ := ih _

/-- **What stays is the first integer with the nearest double of the extreme one.** -/
theorem find?_eq_kept (e : Extreme) (x : Integer) (vs : List Integer) :
    (x :: vs).find? (fun v => v.rank = rankOfInt (e.of x vs)) = some (e.kept x vs) := by
  rw [rankOfInt_of]
  induction vs generalizing x with
  | nil => simp [kept]
  | cons v vs ih =>
    have hnext := ih (e.next x v)
    rw [rank_next] at hnext
    have hle := e.orient_le_foldl (e.pick x.rank v.rank) vs
    rw [orient_pick, max_le_iff] at hle
    rw [List.foldl_cons, kept, List.foldl_cons, ← kept, ← hnext]
    generalize vs.foldl (fun r v => e.pick r v.rank) (e.pick x.rank v.rank) = best at hle
    rw [next]
    split
    case isTrue hlt =>
      -- `v` is beyond `x`, so the first of the best rank is not `x`
      have hx : x.rank ≠ best := by
        rintro rfl
        omega
      rw [List.find?_cons_of_neg (by simpa using hx)]
    case isFalse hge =>
      -- `v` is not beyond `x`, so it has the best rank only if `x` before it has
      by_cases hx : x.rank = best
      · rw [List.find?_cons_of_pos (by simpa using hx), List.find?_cons_of_pos (by simpa using hx)]
      · have hv : v.rank ≠ best := by
          rintro rfl
          exact hx (e.orient_injective (by omega))
        rw [List.find?_cons_of_neg (by simpa using hx), List.find?_cons_of_neg (by simpa using hv),
          List.find?_cons_of_neg (by simpa using hx)]

theorem kept_mem (e : Extreme) (x : Integer) (vs : List Integer) : e.kept x vs ∈ x :: vs :=
  List.mem_of_find?_eq_some (e.find?_eq_kept x vs)

theorem rank_kept (e : Extreme) (x : Integer) (vs : List Integer) :
    (e.kept x vs).rank = rankOfInt (e.of x vs) := by
  simpa using List.find?_some (e.find?_eq_kept x vs)

/-! ## When the extreme number stays -/

/-- **The extreme number stays** just when no other with its nearest double comes before it. -/
theorem kept_eq_iff (e : Extreme) (x : Integer) (vs : List Integer) :
    (e.kept x vs).toInt = e.of x vs ↔
      ∀ v ∈ (x :: vs).takeWhile (fun v => v.toInt ≠ e.of x vs),
        v.rank ≠ rankOfInt (e.of x vs) := by
  obtain ⟨-, before, after, hsplit, hbefore⟩ :=
    List.find?_eq_some_iff_append.mp (e.find?_eq_kept x vs)
  have hbefore : ∀ v ∈ before, v.rank ≠ rankOfInt (e.of x vs) := by simpa using hbefore
  have hother : ∀ v ∈ before, decide (v.toInt ≠ e.of x vs) = true := fun v hv =>
    decide_eq_true fun h => hbefore v hv (congrArg rankOfInt h)
  rw [hsplit, List.takeWhile_append_of_pos hother]
  constructor
  · intro h
    rw [List.takeWhile_cons_of_neg (by simpa using h), List.append_nil]
    exact hbefore
  · intro h
    by_contra hne
    rw [List.takeWhile_cons_of_pos (by simpa using hne)] at h
    exact h (e.kept x vs) (by simp) (e.rank_kept x vs)

theorem of_perm (e : Extreme) (x : Integer) (h : ws.Perm vs) : e.of x ws = e.of x vs := by
  refine h.foldl_eq' (fun v _ w _ n => ?_) x.toInt
  cases e with
  | greatest => exact max_right_comm n v.toInt w.toInt
  | least => exact min_right_comm n v.toInt w.toInt

theorem kept_of_rank (h : x.rank = rankOfInt (e.of x vs)) : e.kept x vs = x := by
  have hfind := e.find?_eq_kept x vs
  rw [List.find?_cons_of_pos (by simpa using h)] at hfind
  exact (Option.some.inj hfind).symm

theorem kept_cons_of_rank {v : Integer} (hx : x.rank ≠ rankOfInt (e.of x (v :: vs)))
    (h : v.rank = rankOfInt (e.of x (v :: vs))) : e.kept x (v :: vs) = v := by
  have hfind := e.find?_eq_kept x (v :: vs)
  rw [List.find?_cons_of_neg (by simpa using hx), List.find?_cons_of_pos (by simpa using h)] at hfind
  exact (Option.some.inj hfind).symm

/-- **The extreme number stays in every order** of the updates just when it was there before, or no
other number has its nearest double. -/
theorem kept_perm_iff (e : Extreme) (x : Integer) (vs : List Integer) :
    (∀ ws : List Integer, ws.Perm vs → (e.kept x ws).toInt = e.of x vs) ↔
      x.toInt = e.of x vs ∨
        ∀ v ∈ x :: vs, v.rank = rankOfInt (e.of x vs) → v.toInt = e.of x vs := by
  constructor
  · intro h
    by_contra hnot
    push Not at hnot
    obtain ⟨hx, v, hv, hrank, hne⟩ := hnot
    by_cases hxrank : x.rank = rankOfInt (e.of x vs)
    · have hkept := h vs (.refl vs)
      rw [kept_of_rank hxrank] at hkept
      exact hx hkept
    · -- `v` in front of the other updates stays
      have hvs : v ∈ vs := (List.mem_cons.mp hv).resolve_left fun heq => hxrank (heq ▸ hrank)
      have hperm : (v :: vs.erase v).Perm vs := (List.perm_cons_erase hvs).symm
      have hkept := h _ hperm
      rw [← e.of_perm x hperm] at hxrank hrank
      rw [kept_cons_of_rank hxrank hrank] at hkept
      exact hne hkept
  · rintro (hx | hall) ws hperm
    · rw [kept_of_rank (by rw [e.of_perm x hperm, ← hx, Integer.rank]), hx]
    · refine hall _ ((hperm.cons x).subset (e.kept_mem x ws)) ?_
      rw [rank_kept, e.of_perm x hperm]

end Extreme

/-! ## Edits -/

namespace Query

variable {q : Query} {d : Document} {f : String} {x : Integer} {vs : List Integer}

/-- **Keeping an extreme by nearest doubles.** A query whose updates keep the greater or the lower on
one field, which holds an integer, leaves the first of the integers with the nearest double of the
extreme number. That is the extreme number itself just when no other with its nearest double comes
before it, and in every order of the updates just when it was there before or no other has its
nearest double. -/
theorem edit_extreme (e : Extreme) (hkey : IsKey f) (hd : d.find? f = some x.toValue)
    (hq : q.updates = vs.map (e.update f)) :
    (∃ changed, q.edit d = .ok (d.insert f (e.kept x vs).toValue, changed)) ∧
    (x :: vs).find? (fun v => v.rank = rankOfInt (e.of x vs)) = some (e.kept x vs) ∧
    ((e.kept x vs).toInt = e.of x vs ↔
      ∀ v ∈ (x :: vs).takeWhile (fun v => v.toInt ≠ e.of x vs),
        v.rank ≠ rankOfInt (e.of x vs)) ∧
    ((∀ ws : List Integer, ws.Perm vs → (e.kept x ws).toInt = e.of x vs) ↔
      x.toInt = e.of x vs ∨
        ∀ v ∈ x :: vs, v.rank = rankOfInt (e.of x vs) → v.toInt = e.of x vs) := by
  refine ⟨?_, e.find?_eq_kept x vs, e.kept_eq_iff x vs, e.kept_perm_iff x vs⟩
  let next (a v : Integer) : Except UpdateError Integer := pure (e.next a v)
  have hrun : (q.edit d).map Prod.fst = (vs.foldlM next x).map fun a => d.insert f a.toValue :=
    edit_of_find? hkey (e.field_update f) hq (e.yields_update f) hd
  rw [List.foldlM_pure] at hrun
  obtain ⟨⟨d', changed⟩, hedit, rfl⟩ := map_eq_ok.mp hrun
  exact ⟨changed, hedit⟩

/-- Two neighbours with one nearest double, in an order in which the greater one stays. -/
theorem edit_extreme_greater_first :
    let d : Document := [("rank", .int32 3)]
    let vs : List Integer := [.int64 9007199254740993, .int32 2, .int64 9007199254740992]
    let q : Query := { updates := vs.map (Extreme.greatest.update "rank") }
    IsKey "rank" ∧ d.find? "rank" = some (Integer.int32 3).toValue ∧
      ∃ changed, q.edit d = .ok ([("rank", .int64 9007199254740993)], changed) := by
  intro d vs q
  have hkey : IsKey "rank" := rfl
  have hd : d.find? "rank" = some (Integer.int32 3).toValue := rfl
  have hq : q.updates = vs.map (Extreme.greatest.update "rank") := rfl
  obtain ⟨⟨changed, hedit⟩, hfind, -⟩ := edit_extreme .greatest hkey hd hq
  have hkept : some (Extreme.greatest.kept (.int32 3) vs) = some (.int64 9007199254740993) :=
    hfind.symm.trans (by decide)
  rw [Option.some.inj hkept] at hedit
  exact ⟨hkey, hd, changed, hedit⟩

/-- The greater of two neighbours with one nearest double does not take the place of the lower. -/
theorem edit_extreme_next_integer :
    let x : Integer := .int64 9007199254740992
    let v : Integer := .int64 9007199254740993
    let d : Document := [("rank", x.toValue)]
    let q : Query := { updates := [Extreme.greatest.update "rank" v] }
    Extreme.greatest.of x [v] = 9007199254740993 ∧ q.edit d = .ok (d, false) ∧
      d.find? "rank" = some (.int64 9007199254740992) :=
  ⟨rfl, rfl, rfl⟩

end Query

end Dossier
