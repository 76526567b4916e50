import TypePages.Summary.Builder

/-!
The documentation shown for a member.

The accessors of a property are documented from the property's source: a getter and a setter say
what they do and describe the property, and the property method takes over the text and refers to
both.  Only the source's comment in the documents counts, so writing a comment again changes
nothing.  A method that then has no first sentence borrows one from the method it overrides.
-/

namespace TypePages

/-- The documentation of a member as its summary shows it. -/
structure Record where
  member : Element
  firstSentence : String
  body : String
  tags : List Tag
  /-- The method from which the first sentence was borrowed. -/
  donor : Option Element
  deriving DecidableEq

namespace Builder

/-- The name of the tags that describe a property. -/
def descriptionTag : String := "propertyDescription"

/-- The name of the tags that say what value a property has at first. -/
def defaultValueTag : String := "defaultValue"

/-- The reference of a property method to its getter. -/
def getterTag (getter : Element) : Tag :=
  { name := "see", text := "#" ++ getter.name ++ "()", reference := some getter.uid }

/-- The reference of a property method to its setter; a free type variable is not worth naming. -/
def setterTag (setter : Element) : Except Fault Tag :=
  match setter.parameters with
  | [] => .error .noParameter
  | p :: _ =>
    let signature := "#" ++ setter.name ++ (if p.isVariable then "" else "(" ++ p.type ++ ")")
    .ok { name := "see", text := signature, reference := some setter.uid }

/-- The references of a property method to its accessors. -/
def accessorTags (b : Builder) (property : Element) : Except Fault (List Tag) := do
  let setter ← (b.table.setter? property).toList.mapM setterTag
  return (b.table.getter? property).toList.map getterTag ++ setter

/-- The tags that an accessor takes over from its source. -/
def keptTags (source : Comment) : List Tag :=
  source.tagsNamed "since" ++ source.tags.filter fun t => t.isCustom && t.name == defaultValueTag

/-- The comment of a getter or setter, whose sentence is the message of a key. -/
def accessorComment (b : Builder) (key : String) (member : Element) (source : Comment) :
    Except Fault Comment := do
  let sentence ← b.message key [← b.naming.propertyName member]
  let description : List Tag :=
    if (source.tagsNamed descriptionTag).isEmpty then
      [{ name := descriptionTag, text := source.body }]
    else []
  return { body := Text.collapse sentence, tags := description ++ keptTags source }

/-- The comment that is written over a member documented from a source. -/
def propertyComment (b : Builder) (member source : Element) : Except Fault Comment := do
  let own := source.comment.getD .empty
  match ← b.naming.role member with
  | .getter => b.accessorComment "property_getter_with_name" member own
  | .setter => b.accessorComment "property_setter_with_name" member own
  | .property =>
    return { body := own.body, tags := keptTags own ++ (← b.accessorTags member) }

/-- The overlay with the comment written that a member gets from its source, if it has one. -/
def document (b : Builder) (o : Overlay) (member : Element) : Except Fault Overlay :=
  match b.sources.find? member.uid with
  | some source => do return o.install member (← b.propertyComment member source)
  | none => .ok o

/-- Whether a member lacks a first sentence that it might borrow. -/
def borrows (o : Overlay) (member : Element) : Bool :=
  member.isExecutable && o.firstSentence member == ""

/-- The method from which a member borrows its first sentence. -/
def donorOf (b : Builder) (o : Overlay) (member : Element) : Option Element :=
  if borrows o member then b.model.donor? o member else none

/-- The record of a member whose comment has been written. -/
def recordOf (b : Builder) (o : Overlay) (member : Element) : Record :=
  let donor := b.donorOf o member
  let comment := (o.comment? member).getD .empty
  { member
    firstSentence := match donor with
      | some d => o.firstSentence d
      | none => o.firstSentence member
    body := comment.body, tags := comment.tags, donor }

/-- The record of a member, and the overlay after its comment has been written. -/
def synthesize (b : Builder) (o : Overlay) (member : Element) :
    Except Fault (Record × Overlay) := do
  let o ← b.document o member
  let r := b.recordOf o member
  return (r, match r.donor with
    | some d => o.borrow member d
    | none => o)

/-- What the synthesis of a record reports, given the overlay after it. -/
def recordNotes (b : Builder) (o : Overlay) (member : Element) : List Note :=
  if borrows o member then DonorSearch.notes b.model o member else []

/-- The record of a member, with its comment written into the draft. -/
def recordStep (b : Builder) (member : Element) : Work Record := do
  let (r, o) ← Work.of (b.synthesize (← get).overlay member)
  modify fun d => { d with overlay := o, notes := d.notes ++ b.recordNotes o member }
  return r

end Builder

end TypePages
