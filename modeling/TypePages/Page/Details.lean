import TypePages.Summary.Section

/-!
The details of a type's own members.

Each member has a heading, the body of its comment and some of its block tags.  The comments are
those that the summary has written; a member without a body shows that of the method from which its
first sentence was borrowed, and says so.
-/

namespace TypePages.Builder

/-- The labels of the block tags that details show. -/
def tagLabels : List (String × String) :=
  [("propertyDescription", "Property description"), ("defaultValue", "Default value"),
    ("since", "Since"), ("see", "See also")]

/-- A link to a type of which only the uid may be known. -/
def typeLink (m : Model) (targets : Targets) (uid : String) : String :=
  match targets.find? uid with
  | some t => link t.title t.page
  | none => code (((m.find? uid).map (·.name)).getD ((Text.splitAt '.' uid).getLastD ""))

/-- The line of a block tag, if it is shown. -/
def tagLine? (b : Builder) (member : Element) (tag : Tag) : Option String := do
  let label ← tagLabels.lookup tag.name
  guard (tag.text ≠ "")
  let text :=
    if tag.name = "see" then
      match tag.reference.bind b.targets.find? with
      | some t => link tag.text t.page
      | none => code tag.text
    else Inline.markdown b.model b.targets (b.model.enclosing? member) tag.text
  return "**" ++ label ++ ":** " ++ text

/-- The heading of a member. -/
def detailHeading (member : Element) : String :=
  "### " ++ member.name ++ (if member.isExecutable then member.signature else "")

/-- The body that details show for a member, and the method it comes from if it is borrowed. -/
def shownBody (o : Overlay) (member : Element) : String × Option Element :=
  match o.body member, o.donor? member with
  | "", some donor => (o.body donor, some donor)
  | body, _ => (body, none)

/-- The note that a body is borrowed. -/
def borrowedNote (b : Builder) (donor : Element) : String :=
  "*Description copied from " ++ typeLink b.model b.targets (donor.parent.getD "") ++ "*"

/-- Each line with an empty one after it. -/
def spaced (lines : List String) : List String := lines.flatMap fun l => [l, ""]

/-- The lines on one member. -/
def memberDetails (b : Builder) (o : Overlay) (member : Element) : List String :=
  let (body, borrowed) := shownBody o member
  let context := b.model.enclosing? ((o.donor? member).getD member)
  let text := Inline.markdown b.model b.targets context body
  let tags := ((o.comment? member).map (·.tags)).getD []
  spaced ([detailHeading member] ++ (borrowed.map b.borrowedNote).toList
    ++ (if text = "" then [] else [text]) ++ tags.filterMap (b.tagLine? member))

/-- The lines on all own members. -/
def details (b : Builder) (o : Overlay) : List String :=
  match (b.kinds.flatMap b.members).flatMap (b.memberDetails o) with
  | [] => []
  | lines => spaced ["## Member Details"] ++ lines

end TypePages.Builder
