import Dossier.Text.Cut
import Dossier.Text.LowerCase
import Dossier.Text.Numeral
import Dossier.Text.Percent

/-!
# Hosts of MongoDB servers

A host is a name with an optional port, a bracketed number of 128 bits with an optional port, or the
escaped path of a socket, which ends in `.sock`.

* `Host.isInet6`: whether a text is the number of a host: eight groups of hexadecimal digits, of which
  two colons in a row leave out one or more. Four octets may stand for the last two groups;
* **`Host.parse?`**: reads a host.
-/

namespace Dossier.Mongo

/-- A server, or one of a group of servers. -/
structure Host where
  name : String
  port : Option UInt16
  deriving DecidableEq, Repr

namespace Host

open Cut

/-! ## Numbers of 128 bits -/

/-- Whether a text is a number below 256 without leading zeros. -/
def isOctet (cs : List Char) : Bool :=
  cs.length ≤ 3 && (cs.length = 1 || cs.head? ≠ some '0') && (Numeral.digits? cs).any (· < 256)

/-- Whether a text is four octets with points between them. -/
def isQuad (cs : List Char) : Bool :=
  let octets := splitAt '.' cs
  octets.length = 4 && octets.all isOctet

/-- Whether a text is one to four hexadecimal digits. -/
def isGroup (cs : List Char) : Bool :=
  !cs.isEmpty && cs.length ≤ 4 && cs.all fun c => (Hex.digit? c).isSome

/-- The number of groups that are written in a row. -/
def groups? : List (List Char) → Option Nat
  | [] => some 0
  | [last] => if isGroup last then some 1 else if isQuad last then some 2 else none
  | group :: rest => if isGroup group then (groups? rest).map (· + 1) else none

/-- The number of groups that are written with colons between them. -/
def groupsIn? (cs : List Char) : Option Nat := if cs.isEmpty then some 0 else groups? (splitAt ':' cs)

/-- The part before the first two colons in a row, and the part after them. -/
def cutAtGap : List Char → List Char × Option (List Char)
  | [] => ([], none)
  | ':' :: ':' :: rest => ([], some rest)
  | c :: rest =>
    let (before, after) := cutAtGap rest
    (c :: before, after)

/-- Whether a text is a number of 128 bits. -/
def isInet6 (cs : List Char) : Bool :=
  match cutAtGap cs with
  | (all, none) => groupsIn? all = some 8
  | (before, some after) =>
    !before.contains '.' && match groupsIn? before, groupsIn? after with
      | some m, some n => m + n ≤ 7
      | _, _ => false

/-! ## Hosts -/

/-- A port: a number from 1 to 65535. -/
def port? (cs : List Char) : Option UInt16 :=
  (Numeral.natural? (String.ofList cs)).bind fun n =>
    if 0 < n ∧ n < UInt16.size then some (UInt16.ofNat n) else none

/-- A name or number and the text of its port. -/
def parts? : List Char → Option (List Char × Option (List Char))
  | '[' :: cs => do
    let (name, rest) := cutAt ']' cs
    if !isInet6 name then failure
    match ← rest with
    | [] => return (name, none)
    | ':' :: port => return (name, some port)
    | _ => failure
  | cs => some (cutAt ':' cs)

/-- Reads a host. -/
def parse? (cs : List Char) : Option Host :=
  if ".sock".toList.isSuffixOf cs then (Percent.decode? cs).map fun path => ⟨path, none⟩
  else do
    let (name, port) ← parts? cs
    if name.isEmpty then failure
    return ⟨LowerCase.lower (← Percent.decode? name), ← port.mapM port?⟩

end Host

end Dossier.Mongo
