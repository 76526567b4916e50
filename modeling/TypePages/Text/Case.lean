import TypePages.Text.Lowercase
import TypePages.Text.CaseTable

/-!
Lowercase, uppercase and title forms of text.

A form may be longer than one character: a dotted capital I becomes an i and a combining dot, and a
sharp s becomes two capitals.  The lowercase form of a capital sigma depends on its neighbours, so
`lowerFrom` walks the text with what it has passed, nearest character first.
-/

namespace TypePages.Chars

open Text (isCased isCaseIgnored CaseRun lowerRuns upperRuns upperExpansions titleRuns
  titleExpansions)

/-- The lowercase form of a character that stands alone. -/
def lowerChar (c : Char) : List Char :=
  if c.toNat < 128 then [c.toLower]
  else if c.toNat = 304 then ['i', Char.ofNat 775]
  else [((CaseRun.find? lowerRuns c.toNat).map Char.ofNat).getD c]

/-- The uppercase form of a character. -/
def upperChar (c : Char) : List Char :=
  if c.toNat < 128 then [c.toUpper]
  else match upperExpansions.lookup c.toNat with
    | some cs => cs.map Char.ofNat
    | none => [((CaseRun.find? upperRuns c.toNat).map Char.ofNat).getD c]

/-- The form of a character at the start of a title. -/
def titleChar (c : Char) : List Char :=
  match titleExpansions.lookup c.toNat with
  | some cs => cs.map Char.ofNat
  | none =>
    match CaseRun.find? titleRuns c.toNat with
    | some n => [Char.ofNat n]
    | none => upperChar c

/-- Whether the first character that case does not ignore is a cased letter. -/
def nextIsCased (cs : List Char) : Bool :=
  match cs.dropWhile isCaseIgnored with
  | [] => false
  | c :: _ => isCased c

/-- The lowercase form of a sigma between two texts, the first given nearest character first. -/
def lowerSigma (before rest : List Char) : Char :=
  if nextIsCased before && !nextIsCased rest then 'ς' else 'σ'

/-- Lowercase of a text that follows `before`, which is given nearest character first. -/
def lowerFrom (before : List Char) : List Char → List Char
  | [] => []
  | c :: rest =>
    (if c = 'Σ' then [lowerSigma before rest] else lowerChar c) ++ lowerFrom (c :: before) rest

/-- The lowercase form of a text. -/
def lower (cs : List Char) : List Char := lowerFrom [] cs

/-- The uppercase form of a text. -/
def upper (cs : List Char) : List Char := cs.flatMap upperChar

/-- The text as a title: its first character in title form, the others in lowercase. -/
def capitalize : List Char → List Char
  | [] => []
  | c :: rest => titleChar c ++ lowerFrom [c] rest

/-- The text with its first character in uppercase. -/
def upperFirst : List Char → List Char
  | [] => []
  | c :: rest => upperChar c ++ rest

/-- The text with its first character in lowercase. -/
def lowerFirst : List Char → List Char
  | [] => []
  | c :: rest => lower [c] ++ rest

end TypePages.Chars
