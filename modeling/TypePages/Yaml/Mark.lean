/-!
The characters of a document with their places.

Indentation carries meaning, so the reader has to know the column of every character.  A document is
therefore marked once, and all scanning is on lists of marked characters.  The end is marked too, by
a null character, which may not occur in a document.
-/

namespace TypePages.Yaml

/-- A character with its line, its column and its distance from the start. -/
structure Mark where
  char : Char
  line : Nat
  column : Nat
  index : Nat

/-- The marked characters that are still to be read. -/
abbrev Marks := List Mark

/-- The character at the end of a document. -/
def endChar : Char := '\x00'

/-- A character that breaks lines. -/
def isBreak (c : Char) : Bool :=
  c == '\n' || c == '\r' || c == '\x85' || c == '\u2028' || c == '\u2029'

/-- What a line break stands for in a text. -/
def breakChar (c : Char) : Char := if c == '\u2028' || c == '\u2029' then c else '\n'

/-- A line break or the end. -/
def isLineClose (c : Char) : Bool := isBreak c || c == endChar

/-- A space, a tab, a line break or the end. -/
def isGap (c : Char) : Bool := c == ' ' || c == '\t' || isLineClose c

/-- A character that a document may hold. -/
def isAllowed (c : Char) : Bool :=
  let n := c.toNat
  n == 0x09 || n == 0x0A || n == 0x0D || (0x20 ≤ n && n ≤ 0x7E) || n == 0x85
    || (0xA0 ≤ n && n ≤ 0xD7FF) || (0xE000 ≤ n && n ≤ 0xFFFD) || 0x10000 ≤ n

/-- Marks characters from a place on, and the end after them.  A byte order mark takes no column. -/
def markFrom (line column index : Nat) : List Char → Marks
  | [] => [⟨endChar, line, column, index⟩]
  | c :: cs =>
    ⟨c, line, column, index⟩ ::
      if isBreak c then markFrom (line + 1) 0 (index + 1) cs
      else if c.toNat = 0xFEFF then markFrom line column (index + 1) cs
      else markFrom line (column + 1) (index + 1) cs

/-- The marks of a document, without a byte order mark at its start. -/
def marks (cs : List Char) : Marks :=
  match markFrom 0 0 0 cs with
  | [] => []
  | m :: ms => if m.char.toNat = 0xFEFF then ms else m :: ms

namespace Marks

/-- The next character. -/
def peek : Marks → Char
  | [] => endChar
  | m :: _ => m.char

/-- The character after the next one. -/
def peekSecond : Marks → Char
  | _ :: m :: _ => m.char
  | _ => endChar

/-- The column of the next character. -/
def column : Marks → Nat
  | [] => 0
  | m :: _ => m.column

/-- The line of the next character. -/
def line : Marks → Nat
  | [] => 0
  | m :: _ => m.line

/-- The distance of the next character from the start. -/
def index : Marks → Nat
  | [] => 0
  | m :: _ => m.index

/-- The characters in the class that come next, and the rest. -/
def take (p : Char → Bool) (ms : Marks) : List Char × Marks :=
  ((ms.takeWhile fun m => p m.char).map (·.char), ms.dropWhile fun m => p m.char)

/-- Whether the next three characters are the given one, with a gap after them. -/
def isRule (c : Char) : Marks → Bool
  | a :: b :: d :: rest => a.char == c && b.char == c && d.char == c && isGap (Marks.peek rest)
  | _ => false

/-- Whether a line that starts here starts or ends a document. -/
def isDocumentRule (ms : Marks) : Bool := ms.isRule '-' || ms.isRule '.'

/-- Drops what separates tokens: spaces, comments and line breaks.  Tells whether a line was broken.
-/
def skip (inComment broke : Bool) : Marks → Bool × Marks
  | [] => (broke, [])
  | m :: ms =>
    if isBreak m.char then skip false true ms
    else if m.char == endChar then (broke, m :: ms)
    else if inComment || m.char == ' ' then skip inComment broke ms
    else if m.char == '#' then skip true broke ms
    else (broke, m :: ms)

end Marks

end TypePages.Yaml
