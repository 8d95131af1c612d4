/-!
# Cutting texts at a character

* **`cutAt`**, `cutAtLast`: what stands before and after the first or the last of a character;
* **`splitAt`**: the parts between all of a character, never an empty list.
-/

namespace Dossier.Cut

/-- The part before the first `c`, and the part after it. -/
def cutAt (c : Char) (cs : List Char) : List Char × Option (List Char) :=
  let before := cs.takeWhile (· ≠ c)
  (before, if before.length = cs.length then none else some (cs.drop (before.length + 1)))

/-- The part before the last `c`, if there is one, and the part after it. -/
def cutAtLast (c : Char) (cs : List Char) : Option (List Char) × List Char :=
  let (after, before) := cutAt c cs.reverse
  (before.map List.reverse, after.reverse)

/-- The parts between all `c`. -/
def splitAt (c : Char) (cs : List Char) : List (List Char) :=
  cs.foldr (fun x parts =>
    match parts with
    | [] => [[x]]
    | part :: rest => if x = c then [] :: part :: rest else (x :: part) :: rest) [[]]

end Dossier.Cut
