import TypePages.Comment.Donor
import TypePages.Element.Order
import TypePages.Link.Inline
import TypePages.Member.Sources
import TypePages.Message.Text

/-!
The summary of one type: what it is made from, and the state that its parts share.

A `Builder` holds what stays the same while the sections of a type are written.  A `Draft` holds
what has been written: the overlay of comments, the rows that wait for their table, the lines of the
page and the notes.  `Work` is a step that may be refused; what it changed before stays changed.
-/

namespace TypePages

/-- What the summary of a type is made from. -/
structure Builder where
  model : Model
  targets : Targets
  /-- The message templates, which are a setting and may be anything. -/
  messages : Value
  naming : Naming
  table : Table
  sources : Sources

/-- The cells of a row. -/
abbrev Row := List String

/-- What has been written for a type. -/
structure Draft where
  overlay : Overlay := {}
  /-- The rows that wait for the next table of a kind. -/
  rows : Member.Kind → List Row := fun _ => []
  /-- The lines of the page. -/
  tree : List String := []
  notes : List Note := []

/-- A step that changes a draft and may be refused. -/
abbrev Work := ExceptT Fault (StateM Draft)

/-- A computation that changes nothing, as a step. -/
def Work.of {α : Type} (r : Except Fault α) : Work α := ExceptT.mk (pure r)

namespace Builder

/-- The type that is summarised. -/
def owner (b : Builder) : Element := b.table.owner

/-- The text of a message. -/
def message (b : Builder) (key : String) (args : List String) : Except Fault String :=
  Template.message b.messages key (args.map .text)

/-- A kind has a writer when the type shows members of it. -/
def hasWriter (b : Builder) (k : Member.Kind) : Bool := b.table.has k

/-- The kinds that a type summarises, in the order of their sections. -/
def kinds (b : Builder) : List Member.Kind :=
  if b.owner.kind = .annotationType then [.annotationFields, .requiredElements, .optionalElements]
  else [.properties, .nestedTypes, .enumConstants, .fields, .constructors, .methods]

/-- Whether a section shows inherited members as well. -/
def showsInherited (b : Builder) (k : Member.Kind) : Bool :=
  b.owner.kind ≠ .annotationType && k.isHandedDown

/-- Whether there is anything to summarise. -/
def hasMembers (b : Builder) : Bool :=
  if b.owner.kind = .annotationType then !(b.model.annotationMembers b.owner).isEmpty
  else b.table.hasAny

/-- The members of a kind that the type declares and shows, in order. -/
def members (b : Builder) (k : Member.Kind) : List Element := Element.sorted (b.table.visible k)

/-- The builder of a type. -/
def ofType (m : Model) (targets : Targets) (messages : Value) (rules : Table.Rules)
    (owner : Element) : Except Fault Builder := do
  let table ← Table.read rules m owner
  return {
    model := m, targets, messages, naming := rules.naming, table
    sources := Sources.ofTable table }

end Builder

end TypePages
