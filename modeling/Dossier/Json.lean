/-!
# JSON values

* **`Json`**: a JSON value as a configuration reader sees it. Integers that fit 64 bits are exact;
  every other number is `real`, of which only the presence matters here.
* `Json.ofInt64`, `Json.ofOption`: the forms of integers and optional values.
-/

namespace Dossier

/-- A JSON value. -/
inductive Json where
  | null
  | bool (b : Bool)
  /-- An integer in the range of 64-bit unsigned numbers. -/
  | natural (n : UInt64)
  /-- A negative integer in the range of 64-bit signed numbers. -/
  | negative (n : Int64)
  /-- Any other number: with a fraction or an exponent, beyond 64 bits, or minus zero. -/
  | real
  | string (text : String)
  | array (items : List Json)
  | object (members : List (String × Json))
  deriving Inhabited

namespace Json

/-- The JSON form of an integer of 64 bits. -/
def ofInt64 (n : Int64) : Json :=
  if n < 0 then negative n else natural n.toUInt64

/-- The JSON form of an optional value. -/
def ofOption {α : Type} (f : α → Json) : Option α → Json
  | none => null
  | some a => f a

end Json

end Dossier
