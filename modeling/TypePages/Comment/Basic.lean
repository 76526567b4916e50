/-!
Documentation comments: a body of prose and block tags after it.

A block tag such as `@since 1.2` has a name and a text, and may point at an element.  Tags outside
the standard set are *custom*: the author made them up, and only they may say what a property's
default value is.
-/

namespace TypePages

/-- A block tag of a comment. -/
structure Tag where
  name : String
  text : String := ""
  /-- The uid of the element that the tag points at. -/
  reference : Option String := none
  deriving DecidableEq, Inhabited

/-- The names of the standard block tags. -/
def Tag.standardNames : List String :=
  ["author", "deprecated", "exception", "hidden", "param", "provides", "return", "see", "serial",
    "serialData", "serialField", "since", "throws", "uses", "version"]

/-- Whether the tag is none of the standard ones. -/
def Tag.isCustom (t : Tag) : Bool := !Tag.standardNames.contains t.name

/-- A comment of an element. -/
structure Comment where
  body : String := ""
  tags : List Tag := []
  deriving DecidableEq, Inhabited

namespace Comment

/-- The comment that says nothing. -/
def empty : Comment := {}

/-- Whether the comment has neither a body nor tags. -/
def isEmpty (c : Comment) : Bool := c.body == "" && c.tags.isEmpty

/-- The comment, unless it says nothing. -/
def nonempty? (c : Comment) : Option Comment := if c.isEmpty then none else some c

/-- The tags of a name, in the order in which they were written. -/
def tagsNamed (c : Comment) (name : String) : List Tag := c.tags.filter (·.name = name)

end Comment

end TypePages
