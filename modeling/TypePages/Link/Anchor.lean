import TypePages.Element.Basic

/-!
Anchors of members on their page.

An anchor is the text in lowercase, with a hyphen for every run of characters that are no ASCII
letters or digits, and no hyphen at its ends.
-/

namespace TypePages.Anchor

/-- A character that an anchor keeps. -/
def isKept (c : Char) : Bool := c.isLower || c.isDigit

/-- One hyphen for every run of characters that the class does not keep. -/
def hyphenate (kept : Char → Bool) : List Char → List Char
  | [] => []
  | c :: cs =>
    if kept c then c :: hyphenate kept cs
    else match hyphenate kept cs with
      | '-' :: rest => '-' :: rest
      | rest => '-' :: rest

/-- The anchor of a text; a text with nothing to keep has a common one. -/
def slug (cs : List Char) : List Char :=
  match Chars.strip '-' (hyphenate isKept (Chars.lower (Chars.trim cs))) with
  | [] => ['s', 'e', 'c', 't', 'i', 'o', 'n']
  | cs => cs

/-- The anchor of a heading. -/
def ofText (s : String) : String := .ofList (slug s.toList)

/-- The anchor of a member; that of an executable tells its parameter types. -/
def ofMember (e : Element) : String :=
  ofText (if e.isExecutable then e.name ++ e.signature else e.name)

end TypePages.Anchor
