import Dossier.Text.Hex

/-!
# Escaped bytes

A byte may be written as `%` and two hexadecimal digits. Where no two digits follow, `%` stands for
itself.

* `bytes`: the bytes of a text;
* **`decode?`**, `decode`: the text that they encode; bytes that encode no text are refused, or
  replaced;
* `isComplete`: whether every `%` stands before two digits.
-/

namespace Dossier.Percent

/-- The bytes of an escaped text. -/
def bytes : List Char → List UInt8
  | [] => []
  | '%' :: a :: b :: rest =>
    match Hex.digit? a, Hex.digit? b with
    | some x, some y => UInt8.ofNat (16 * x + y) :: bytes rest
    | _, _ => 0x25 :: bytes (a :: b :: rest)
  | c :: rest => (String.toUTF8 c.toString).toList ++ bytes rest

/-- The text that an escaped text stands for. -/
def decode? (cs : List Char) : Option String := String.fromUTF8? ⟨(bytes cs).toArray⟩

/-- The text that an escaped text stands for. If the bytes encode none, all but the ASCII characters
are replaced. -/
def decode (cs : List Char) : String :=
  (decode? cs).getD <| String.ofList <| (bytes cs).map fun byte =>
    if byte < 128 then Char.ofNat byte.toNat else '\uFFFD'

/-- Whether every `%` stands before two digits. -/
def isComplete : List Char → Bool
  | [] => true
  | '%' :: a :: b :: rest => (Hex.digit? a).isSome && (Hex.digit? b).isSome && isComplete rest
  | '%' :: _ => false
  | _ :: rest => isComplete rest

end Dossier.Percent
