/-!
# Decimal numerals

* `digits?`: the number that a non-empty run of ASCII digits stands for;
* `unsigned`: a sign and what follows it;
* **`integer?`**: digits after at most one sign;
* **`index?`**: a position in a list, written as digits after an optional plus sign; a number that
  does not fit 64 bits is no position.
-/

namespace Dossier.Numeral

/-- The number that an ASCII digit stands for. -/
def digit? (c : Char) : Option Nat :=
  if '0' ≤ c ∧ c ≤ '9' then some (c.toNat - '0'.toNat) else none

/-- Reads digits after those that stand for `acc`. -/
def digitsFrom (acc : Nat) : List Char → Option Nat
  | [] => some acc
  | c :: rest => (digit? c).bind fun d => digitsFrom (acc * 10 + d) rest

/-- The number that a non-empty run of digits stands for. -/
def digits? : List Char → Option Nat
  | [] => none
  | cs => digitsFrom 0 cs

/-- Digits after an optional plus sign. -/
def natural? (text : String) : Option Nat :=
  match text.toList with
  | '+' :: cs => digits? cs
  | cs => digits? cs

/-- Whether a minus sign stands in front, and what follows at most one sign. -/
def unsigned : List Char → Bool × List Char
  | '-' :: cs => (true, cs)
  | '+' :: cs => (false, cs)
  | cs => (false, cs)

/-- Digits after at most one sign. -/
def signed? (cs : List Char) : Option Int :=
  let (negative, cs) := unsigned cs
  (digits? cs).map fun n => if negative then -(n : Int) else n

/-- Digits after at most one sign. -/
def integer? (text : String) : Option Int := signed? text.toList

/-- The list position that `text` names. -/
def index? (text : String) : Option Nat :=
  (natural? text).filter (· < UInt64.size)

end Dossier.Numeral
