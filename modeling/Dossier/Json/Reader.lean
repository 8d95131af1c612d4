import Dossier.Json.Token

/-!
# Reading JSON

* **`Json.parse?`**: the value that a text stands for. Arrays and objects nest at most
  `Json.maxDepth` levels deep; members keep their order and repetitions.
-/

namespace Dossier

namespace Json

/-- How deep arrays and objects may nest. -/
def maxDepth : Nat := 127

mutual

/-- Reads one value from the tokens. -/
def value? : Nat → Nat → List Token → Option (Json × List Token)
  | _ + 1, _, .scalar json :: rest => some (json, rest)
  | _ + 1, _, .text text :: rest => some (string text, rest)
  | _ + 1, _ + 1, .openArray :: .closeArray :: rest => some (array [], rest)
  | fuel + 1, depth + 1, .openArray :: rest =>
    (items? fuel depth rest).map fun (items, rest) => (array items, rest)
  | _ + 1, _ + 1, .openObject :: .closeObject :: rest => some (object [], rest)
  | fuel + 1, depth + 1, .openObject :: rest =>
    (members? fuel depth rest).map fun (members, rest) => (object members, rest)
  | _, _, _ => none

/-- Reads the rest of an array, from an element on. -/
def items? : Nat → Nat → List Token → Option (List Json × List Token)
  | 0, _, _ => none
  | fuel + 1, depth, tokens =>
    match value? fuel depth tokens with
    | some (item, .closeArray :: rest) => some ([item], rest)
    | some (item, .comma :: rest) =>
      (items? fuel depth rest).map fun (items, rest) => (item :: items, rest)
    | _ => none

/-- Reads the rest of an object, from a key on. -/
def members? : Nat → Nat → List Token → Option (List (String × Json) × List Token)
  | fuel + 1, depth, .text key :: .colon :: tokens =>
    match value? fuel depth tokens with
    | some (v, .closeObject :: rest) => some ([(key, v)], rest)
    | some (v, .comma :: rest) =>
      (members? fuel depth rest).map fun (members, rest) => ((key, v) :: members, rest)
    | _ => none
  | _, _, _ => none

end

/-- The value that a text stands for. -/
def parse? (text : String) : Option Json := do
  let tokens ← Token.scan? text
  match ← value? (2 * tokens.length + 1) maxDepth tokens with
  | (json, []) => return json
  | _ => failure

end Json

end Dossier
