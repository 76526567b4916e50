import TypePages.Text.Basic
import TypePages.Text.Word

/-!
The first sentence of a comment body.

A sentence ends at a full stop, an exclamation or a question mark that stands before a blank or at
the end.  A blank line or a block markup tag ends it sooner, unless the body opens with one.
-/

namespace TypePages.Comment

open Text (isBlank isWord)

/-- The markup tags that open a block. -/
def blockTags : List (List Char) :=
  [['p'], ['p', 'r', 'e'], ['u', 'l'], ['o', 'l'], ['d', 'l'], ['t', 'a', 'b', 'l', 'e'],
    ['h', '1'], ['h', '2'], ['h', '3'], ['h', '4'], ['h', '5'], ['h', '6'],
    ['b', 'l', 'o', 'c', 'k', 'q', 'u', 'o', 't', 'e']]

/-- A letter of a tag name without regard to case; the Kelvin sign counts as a k. -/
def foldTagChar (c : Char) : Char := if c.toNat = 0x212A then 'k' else c.toLower

/-- Whether a block begins here: a newline with another one after blanks, or a block tag. -/
def breaksHere : List Char → Bool
  | '\n' :: rest => (rest.takeWhile isBlank).contains '\n'
  | '<' :: rest => blockTags.contains ((rest.takeWhile isWord).map foldTagChar)
  | _ => false

/-- The text up to the first place where a block begins. -/
def untilBreak : List Char → List Char
  | [] => []
  | c :: rest => if breaksHere (c :: rest) then [] else c :: untilBreak rest

/-- The text up to the first block; all of it if a block begins at its start. -/
def paragraph (cs : List Char) : List Char :=
  match untilBreak cs with
  | [] => cs
  | part => part

/-- A mark that may end a sentence. -/
def isStop (c : Char) : Bool := c == '.' || c == '!' || c == '?'

/-- The text up to the end of its first sentence. -/
def untilStop : List Char → List Char
  | [] => []
  | c :: rest => if isStop c && rest.head?.all isBlank then [c] else c :: untilStop rest

/-- The first sentence of a body, with single spaces between its words. -/
def sentence (cs : List Char) : List Char :=
  Chars.collapse (untilStop (paragraph (Chars.trim cs)))

/-- The first sentence of a body. -/
def firstSentence (body : String) : String := .ofList (sentence body.toList)

/-- What `untilBreak` keeps is a start of the text. -/
theorem untilBreak_prefix (cs : List Char) : untilBreak cs <+: cs := by
  induction cs with
  | nil => exact List.prefix_rfl
  | cons c rest ih =>
    unfold untilBreak
    split
    · exact List.nil_prefix
    · exact (List.prefix_cons_inj c).2 ih

/-- What `untilStop` keeps is a start of the text. -/
theorem untilStop_prefix (cs : List Char) : untilStop cs <+: cs := by
  induction cs with
  | nil => exact List.prefix_rfl
  | cons c rest ih =>
    unfold untilStop
    split
    · exact (List.prefix_cons_inj c).2 List.nil_prefix
    · exact (List.prefix_cons_inj c).2 ih

end TypePages.Comment
