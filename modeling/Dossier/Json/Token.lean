import Dossier.Json
import Dossier.Number.Double
import Dossier.Number.Width
import Dossier.Text.Hex
import Dossier.Text.Numeral

/-!
# Tokens of JSON texts

A text is cut into tokens by a machine that reads one character at a time. Words and numbers are the
longest runs of letters, digits, signs and points, and are classified when they are complete.

* **`Token`**, `Token.scan?`: the tokens of a text, if it has some;
* `Token.ofWord?`: literals and numbers;
* `Token.number?`: an optional minus, digits without a leading zero, a fraction, an exponent. Numbers
  beyond the doubles are refused.
-/

namespace Dossier

namespace Json

/-- A token of a JSON text. -/
inductive Token where
  | openArray | closeArray | openObject | closeObject | comma | colon
  | text (text : String)
  /-- A literal or a number. -/
  | scalar (json : Json)
  deriving Inhabited

namespace Token

/-! ## Words -/

/-- A run of ASCII digits, which may not be empty, and the rest. -/
def digits? (cs : List Char) : Option (List Char × List Char) :=
  let digits := cs.takeWhile Char.isDigit
  if digits.isEmpty then none else some (digits, cs.dropWhile Char.isDigit)

/-- Digits without a leading zero, and the rest. -/
def whole? (cs : List Char) : Option (List Char × List Char) :=
  (digits? cs).filter fun (digits, _) => digits.length = 1 || digits.head? ≠ some '0'

/-- The digits after an optional point, and the rest. -/
def fraction? : List Char → Option (List Char × List Char)
  | '.' :: cs => digits? cs
  | cs => some ([], cs)

/-- An optional exponent at the end. -/
def exponent? : List Char → Option Int
  | [] => some 0
  | c :: cs =>
    if c = 'e' ∨ c = 'E' then
      let (sign, cs) : Int × List Char := match cs with
        | '-' :: cs => (-1, cs)
        | '+' :: cs => (1, cs)
        | cs => (1, cs)
      (Numeral.digits? cs).map fun n => sign * n
    else none

/-- The greatest number of digits, read from the left, that fit 64 bits, and how many are left. -/
def leading (acc : Nat) : List Char → Nat × Nat
  | [] => (acc, 0)
  | c :: rest =>
    let next := acc * 10 + (c.toNat - '0'.toNat)
    if next < UInt64.size then leading next rest else (acc, rest.length + 1)

/-- Whether digits at a power of ten, read as a double, are beyond every double. -/
def isInfinite (significand : Nat) (exponent : Int) : Bool :=
  if significand = 0 ∨ exponent < 0 then false
  else if 308 < exponent then true
  else
    let product := Double.ofInt significand * Double.ofInt (Nat.pow 10 exponent.toNat)
    Double.rank? product == some 0x7ff0000000000000

/-- The integer that a sign and digits stand for, when it fits 64 bits. Minus zero is no integer. -/
def integer? (minus : Bool) (n : Nat) : Option Json :=
  if minus then
    if n = 0 then none else (Width.int64? (-(n : Int))).map Json.negative
  else if n < UInt64.size then some (Json.natural (UInt64.ofNat n))
  else none

/-- A number. -/
def number? (cs : List Char) : Option Json := do
  let (minus, cs) := match cs with
    | '-' :: cs => (true, cs)
    | cs => (false, cs)
  let (whole, cs) ← whole? cs
  let (fraction, rest) ← fraction? cs
  let exponent ← exponent? rest
  let plain := if cs.isEmpty then (Numeral.digits? whole).bind (integer? minus) else none
  match plain with
  | some json => return json
  | none =>
    let (significand, dropped) := leading 0 (whole ++ fraction)
    let shift : Int := (dropped : Int) - fraction.length
    if isInfinite significand (exponent + shift) then failure
    return Json.real

/-- A literal or a number. -/
def ofWord? (word : String) : Option Token :=
  match word with
  | "null" => some (scalar .null)
  | "true" => some (scalar (.bool true))
  | "false" => some (scalar (.bool false))
  | word => (number? word.toList).map scalar

/-! ## The machine -/

/-- What the machine is reading; characters are kept in reverse. -/
inductive Mode where
  | between
  | word (read : List Char)
  | text (read : List Char)
  | escape (read : List Char)
  /-- Digits of an escaped UTF-16 unit, perhaps after a high surrogate. -/
  | unit (read : List Char) (high : Option Nat) (digits : List Char)
  /-- After a high surrogate, before the backslash of the low one. -/
  | surrogate (read : List Char) (high : Nat)
  /-- After a high surrogate and a backslash. -/
  | surrogateMark (read : List Char) (high : Nat)

/-- The character that a short escape stands for. -/
def shortEscape? : Char → Option Char
  | '"' => some '"'
  | '\\' => some '\\'
  | '/' => some '/'
  | 'b' => some '\x08'
  | 'f' => some '\x0c'
  | 'n' => some '\n'
  | 'r' => some '\r'
  | 't' => some '\t'
  | _ => none

/-- The mode after a complete unit: surrogates have to come in pairs. -/
def afterUnit? (read : List Char) (high : Option Nat) (unit : Nat) : Option Mode :=
  let isHigh := 0xd800 ≤ unit && unit < 0xdc00
  let isLow := 0xdc00 ≤ unit && unit < 0xe000
  match high with
  | none =>
    if isHigh then some (.surrogate read unit)
    else if isLow then none
    else some (.text (Char.ofNat unit :: read))
  | some high =>
    if isLow then
      some (.text (Char.ofNat (0x10000 + (high - 0xd800) * 0x400 + (unit - 0xdc00)) :: read))
    else none

/-- Whether a character can be part of a word. -/
def isWordChar (c : Char) : Bool := c.isAlphanum || c == '-' || c == '+' || c == '.'

/-- The token that a single character is. -/
def punctuation? : Char → Option Token
  | '[' => some openArray
  | ']' => some closeArray
  | '{' => some openObject
  | '}' => some closeObject
  | ',' => some comma
  | ':' => some colon
  | _ => none

/-- Whether a character may stand between tokens. -/
def isBlank (c : Char) : Bool := c == ' ' || c == '\n' || c == '\t' || c == '\r'

/-- Reads a character between tokens, after the reversed `tokens`. -/
def startWith (tokens : List Token) (c : Char) : Option (Mode × List Token) :=
  if isBlank c then some (.between, tokens)
  else if isWordChar c then some (.word [c], tokens)
  else if c = '"' then some (.text [], tokens)
  else (punctuation? c).map fun token => (.between, token :: tokens)

/-- Completes a word. -/
def closeWord (tokens : List Token) (read : List Char) : Option (List Token) :=
  (ofWord? (String.ofList read.reverse)).map (· :: tokens)

/-- Reads one character. -/
def step : Mode × List Token → Char → Option (Mode × List Token)
  | (.between, tokens), c => startWith tokens c
  | (.word read, tokens), c =>
    if isWordChar c then some (.word (c :: read), tokens)
    else (closeWord tokens read).bind fun tokens => startWith tokens c
  | (.text read, tokens), c =>
    if c = '"' then some (.between, text (String.ofList read.reverse) :: tokens)
    else if c = '\\' then some (.escape read, tokens)
    else if c.toNat < 0x20 then none
    else some (.text (c :: read), tokens)
  | (.escape read, tokens), c =>
    if c = 'u' then some (.unit read none [], tokens)
    else (shortEscape? c).map fun c => (.text (c :: read), tokens)
  | (.unit read high digits, tokens), c =>
    let digits := digits ++ [c]
    if digits.length < 4 then some (.unit read high digits, tokens)
    else do
      let unit ← Hex.decode? digits
      return (← afterUnit? read high unit, tokens)
  | (.surrogate read high, tokens), c =>
    if c = '\\' then some (.surrogateMark read high, tokens) else none
  | (.surrogateMark read high, tokens), c =>
    if c = 'u' then some (.unit read (some high) [], tokens) else none

/-- Completes the tokens at the end of a text. -/
def finish : Mode × List Token → Option (List Token)
  | (.between, tokens) => some tokens.reverse
  | (.word read, tokens) => (closeWord tokens read).map List.reverse
  | _ => none

/-- The tokens of a text. -/
def scan? (text : String) : Option (List Token) :=
  (text.toList.foldlM step (.between, [])).bind finish

end Token

end Json

end Dossier
