import Dossier.Error
import Dossier.Number.Double
import Dossier.Number.Width
import Dossier.Query

/-!
# Arithmetic on stored numbers

* **`Arithmetic`**: the two operations;
* `Amount.combine?`: one operation on two amounts. Two integers give the exact integer, in 32 bits if
  both operands and the result have 32 bits, else in 64 bits, and nothing beyond; a double makes the
  result a double;
* **`Arithmetic.result`**: an operation on what a field holds. A missing field starts from zero, and a
  product with it is zero.
-/

namespace Dossier

/-- An arithmetic operation. -/
inductive Arithmetic where
  | sum | product
  deriving DecidableEq, Repr

namespace Arithmetic

/-- The operation on integers. -/
def onInt : Arithmetic → Int → Int → Int
  | sum => (· + ·)
  | product => (· * ·)

/-- The operation on doubles. -/
def onDouble : Arithmetic → Float → Float → Float
  | sum => (· + ·)
  | product => (· * ·)

/-- The update operator of the operation. -/
def op : Arithmetic → UpdateOp
  | sum => .incrementNumericalValue
  | product => .multiplyNumericalValue

end Arithmetic

namespace Amount

/-- The zero of the same kind. -/
def zero : Amount → Amount
  | int32 _ => int32 0
  | int64 _ => int64 0
  | double _ => double 0

/-- The amount as a double. -/
def toDouble : Amount → Float
  | int32 n => Double.ofInt n.toInt
  | int64 n => Double.ofInt n.toInt
  | double x => x

/-- One operation on two amounts; integers beyond 64 bits have no result. -/
def combine? (operation : Arithmetic) : Amount → Amount → Option Amount
  | int32 a, int32 b =>
    let result := operation.onInt a.toInt b.toInt
    match Width.int32? result with
    | some n => some (int32 n)
    | none => (Width.int64? result).map int64
  | int32 a, int64 b => (Width.int64? (operation.onInt a.toInt b.toInt)).map int64
  | int64 a, int32 b => (Width.int64? (operation.onInt a.toInt b.toInt)).map int64
  | int64 a, int64 b => (Width.int64? (operation.onInt a.toInt b.toInt)).map int64
  | a, b => some (double (operation.onDouble a.toDouble b.toDouble))

end Amount

namespace Arithmetic

/-- The amount that a field holds; a missing field holds `start`. -/
def held (operation : Arithmetic) (field : String) (start : Amount) :
    Option Value → Except UpdateError Amount
  | none => .ok start
  | some v =>
    match Amount.ofValue? v with
    | some amount => .ok amount
    | none => .error (.notANumber operation.op v.kind field)

/-- The result of an operation on what `field` holds. -/
def result (operation : Arithmetic) (field : String) (existing : Option Value) (amount : Amount) :
    Except UpdateError Amount :=
  if operation = product ∧ existing.isNone then .ok amount.zero
  else do
    let held ← operation.held field amount.zero existing
    match held.combine? operation amount with
    | some result => .ok result
    | none => .error (.overflow field)

end Arithmetic

end Dossier
