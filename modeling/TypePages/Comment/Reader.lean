import TypePages.Comment.Basic
import TypePages.Text.Word
import TypePages.Value.Prose
import TypePages.Value.Read

/-!
Reading a comment from a document.

A comment is a mapping with a body and tags, or prose in which every line that starts with an at
sign and a name opens a block tag.  The lines before the first tag are the body; a line after it
that opens no tag goes on with the text of the tag before it.  A comment that says nothing is none.
-/

namespace TypePages.Comment

/-! ### Prose -/

/-- The name and the text of the tag that a line opens. -/
def openedTag? (line : List Char) : Option (List Char × List Char) :=
  match Chars.trimStart line with
  | '@' :: rest =>
    let name := rest.takeWhile Text.isWord
    if name.isEmpty then none else some (name, Chars.trim (rest.dropWhile Text.isWord))
  | _ => none

/-- The tags that lines open and go on with, after a tag with the given name and text. -/
def tagsFrom (name text : List Char) : List (List Char) → List (List Char × List Char)
  | [] => [(name, text)]
  | line :: rest =>
    match openedTag? line with
    | some (name', text') => (name, text) :: tagsFrom name' text' rest
    | none => tagsFrom name (Chars.trim (text ++ '\n' :: Chars.trim line)) rest

/-- The lines of the body, and the tags after them. -/
def sections : List (List Char) → List (List Char) × List (List Char × List Char)
  | [] => ([], [])
  | line :: rest =>
    match openedTag? line with
    | some (name, text) => ([], tagsFrom name text rest)
    | none => (line :: (sections rest).1, (sections rest).2)

/-- The comment that prose stands for. -/
def ofProse (text : String) : Comment :=
  let (body, tags) := sections (Chars.lines text.toList)
  { body := .ofList (Chars.trim (['\n'].intercalate body))
    tags := tags.map fun (name, text) => { name := .ofList name, text := .ofList text } }

/-! ### Mappings -/

/-- The tag that an item of a tag list stands for: a mapping that gives a name. -/
def tagOf? : Value → Except Fault (Option Tag)
  | .mapping entries => do
    match ← (Value.fieldOf entries "name").readGiven? with
    | none => return none
    | some name =>
      let text ← (Value.fieldOf entries "text").readProse
      return some { name, text, reference := ← (Value.fieldOf entries "ref").readGiven? }
  | _ => .ok none

/-- The comment that the fields of a mapping stand for. -/
def ofFields (entries : List (Scalar × Value)) : Except Fault Comment := do
  let tags ← (← (Value.fieldOf entries "tags").givenItems).mapM tagOf?
  return { body := ← (Value.fieldOf entries "body").readProse, tags := tags.filterMap id }

/-- The comment of an element, if it says anything. -/
def ofValue? (v : Value) : Except Fault (Option Comment) :=
  match v with
  | .null => .ok none
  | .mapping entries => do return (← ofFields entries).nonempty?
  | v => do return (ofProse (← v.readProse)).nonempty?

/-! ### Writing a comment -/

/-- The prose of a comment: its body, then each tag on a line of its own. -/
def render (c : Comment) : String :=
  let body := if c.body = "" then [] else [c.body]
  Text.join "\n" (body ++ c.tags.map fun t => "@" ++ t.name ++ " " ++ t.text)

end TypePages.Comment
