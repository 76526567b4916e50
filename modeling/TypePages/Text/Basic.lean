import TypePages.Text.Chars
import TypePages.Text.Case

/-!
The operations on strings that the rest of the library uses.

Each is the operation of the same name on the characters.
-/

namespace TypePages.Text

/-- Drops the blanks at both ends. -/
def trim (s : String) : String := .ofList (Chars.trim s.toList)

/-- Drops the blanks at the end. -/
def trimEnd (s : String) : String := .ofList (Chars.trimEnd s.toList)

/-- The words, with one space between neighbours. -/
def collapse (s : String) : String := .ofList (Chars.collapse s.toList)

/-- The lines without their ends. -/
def lines (s : String) : List String := (Chars.lines s.toList).map .ofList

/-- The parts between the copies of a character. -/
def splitAt (c : Char) (s : String) : List String := (s.toList.splitOn c).map .ofList

/-- The lowercase form. -/
def lower (s : String) : String := .ofList (Chars.lower s.toList)

/-- The text as a title. -/
def capitalize (s : String) : String := .ofList (Chars.capitalize s.toList)

/-- The parts with a separator between neighbours. -/
def join (separator : String) (parts : List String) : String :=
  .ofList (separator.toList.intercalate (parts.map (·.toList)))

/-- What follows a given start of the text. -/
def afterStart? (start s : String) : Option String :=
  (Chars.afterStart? start.toList s.toList).map .ofList

/-- What precedes a given end of the text. -/
def beforeEnd? (ending s : String) : Option String :=
  (Chars.afterStart? ending.toList.reverse s.toList.reverse).map (.ofList ·.reverse)

/-- The part before the first copy of a character, and the part after it, empty if there is none. -/
def partition (c : Char) (s : String) : String × String :=
  let (before, after) := Chars.cut c s.toList
  (.ofList before, .ofList (after.getD []))

/-- The part before the first copy of a character. -/
def before (c : Char) (s : String) : String := .ofList (Chars.cut c s.toList).1

end TypePages.Text
