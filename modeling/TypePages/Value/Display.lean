import TypePages.Number.Shortest
import TypePages.Text.Printable
import TypePages.Value.Basic

/-!
How a value is written out.

A text stands for itself at the top, and is quoted inside a list or a mapping: in single quotes, or
in double quotes when it holds a single quote and no double one.  Characters that are not printable
are written as escapes.
-/

namespace TypePages

/-- The greatest number of decimal digits of an integer that is read or written. -/
def digitLimit : Nat := 4300

/-- A number in base sixteen with a given least number of digits. -/
def hexDigits (width n : Nat) : List Char :=
  let digits := Nat.toDigits 16 n
  List.replicate (width - digits.length) '0' ++ digits

/-- A character inside quotes. -/
def quotedChar (quote c : Char) : List Char :=
  if c = quote ∨ c = '\\' then ['\\', c]
  else if c = '\n' then ['\\', 'n']
  else if c = '\r' then ['\\', 'r']
  else if c = '\t' then ['\\', 't']
  else if Text.isPrintable c then [c]
  else if c.toNat < 0x100 then '\\' :: 'x' :: hexDigits 2 c.toNat
  else if c.toNat < 0x10000 then '\\' :: 'u' :: hexDigits 4 c.toNat
  else '\\' :: 'U' :: hexDigits 8 c.toNat

/-- A text in quotes. -/
def quoted (s : String) : String :=
  let cs := s.toList
  let quote := if cs.contains '\'' && !cs.contains '"' then '"' else '\''
  .ofList (quote :: cs.flatMap (quotedChar quote) ++ [quote])

/-- A scalar as it stands in a list or a mapping. -/
def Scalar.shown : Scalar → String
  | .null => "None"
  | .bool true => "True"
  | .bool false => "False"
  | .int n => toString n
  | .real x => x.toText
  | .text s => quoted s

mutual

/-- A value as it stands in a list or a mapping. -/
def Value.shown : Value → String
  | .scalar s => s.shown
  | .list items => "[" ++ shownItems items ++ "]"
  | .mapping entries => "\x7b" ++ shownEntries entries ++ "\x7d"

/-- The items of a list, with commas. -/
def shownItems : List Value → String
  | [] => ""
  | [x] => x.shown
  | x :: xs => x.shown ++ ", " ++ shownItems xs

/-- The entries of a mapping, with commas. -/
def shownEntries : List (Scalar × Value) → String
  | [] => ""
  | [(k, v)] => k.shown ++ ": " ++ v.shown
  | (k, v) :: es => k.shown ++ ": " ++ v.shown ++ ", " ++ shownEntries es

end

/-- Whether an integer has more decimal digits than are written. -/
def Scalar.isTooLong : Scalar → Bool
  | .int n => Nat.pow 10 digitLimit ≤ n.natAbs
  | _ => false

mutual

/-- Whether a value has an integer with more decimal digits than are written. -/
def Value.isTooLong : Value → Bool
  | .scalar s => s.isTooLong
  | .list items => areItemsTooLong items
  | .mapping entries => areEntriesTooLong entries

/-- Whether an item of a list has such an integer. -/
def areItemsTooLong : List Value → Bool
  | [] => false
  | x :: xs => x.isTooLong || areItemsTooLong xs

/-- Whether an entry of a mapping has such an integer. -/
def areEntriesTooLong : List (Scalar × Value) → Bool
  | [] => false
  | (k, v) :: es => k.isTooLong || v.isTooLong || areEntriesTooLong es

end

/-- A value on its own: a text stands for itself. -/
def Value.display : Value → String
  | .text s => s
  | v => v.shown

end TypePages
