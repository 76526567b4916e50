import TypePages.Summary.Record
import TypePages.Summary.Row

/-!
Sections of a summary.

The section of a kind shows the type's own members in a table, and then for each supertype the
members that are inherited from it.  Nothing of a section is added to the page before all of it is
written, so a refusal leaves the page as it was.
-/

namespace TypePages

/-- Members of one kind that one type declares, as a section shows them. -/
structure RowGroup where
  kind : Member.Kind
  /-- The type that declares the members. -/
  origin : Element
  /-- The type on whose page the members are linked. -/
  attributedTo : Element
  members : List Element
  /-- The documentation of own members, in the order of the members. -/
  records : List Record := []
  isInherited : Bool := false
  deriving DecidableEq

namespace Builder

/-- A group with the lines that show it. -/
abbrev Shown := RowGroup × String

/-- Writes the row of an own member. -/
def memberStep (b : Builder) (k : Member.Kind) (member : Element) : Work Record := do
  let r ← b.recordStep member
  b.addRow k member r.firstSentence
  return r

/-- The group of own members of a kind, with their table. -/
def ownGroup (b : Builder) (k : Member.Kind) : Work (List Shown) := do
  let members := b.members k
  if members.isEmpty then return []
  let records ← members.mapM (b.memberStep k)
  let table ← takeTable k
  return [({ kind := k, origin := b.owner, attributedTo := b.owner, members, records }, table)]

/-- Whether inherited members of a supertype are shown at all. -/
def isShownAncestor (b : Builder) (ancestor : Element) : Except Fault Bool :=
  if Model.isPublic ancestor then .ok true else b.model.isLinkable ancestor

/-- The type on whose page members of a supertype are linked: the supertype itself, but for one that
is only known in its package and has no page. -/
def attributedTo (b : Builder) (ancestor : Element) : Except Fault Element :=
  if b.model.isPackagePrivate ancestor then do
    return if ← b.model.isLinkable ancestor then ancestor else b.owner
  else .ok ancestor

/-- The links to members, of which only the last has no comma. -/
def inheritedLinks (b : Builder) (k : Member.Kind) (type : Element) :
    List Element → Except Fault (List String)
  | [] => .ok []
  | e :: es => do
    let first ← b.inheritedLink k type e es.isEmpty
    return first :: (← inheritedLinks b k type es)

/-- The group of members of a kind that are inherited from a supertype, if there are any. -/
def inheritedGroup? (b : Builder) (k : Member.Kind) (ancestor : Element) :
    Except Fault (Option Shown) := do
  if !(← b.isShownAncestor ancestor) then return none
  let members := (Element.sorted (b.table.allVisible k)).filter (·.parent == some ancestor.uid)
  if members.isEmpty then return none
  let heading ← b.inheritedHeading k ancestor
  let attributedTo ← b.attributedTo ancestor
  let links ← b.inheritedLinks k attributedTo members
  return some ({ kind := k, origin := ancestor, attributedTo, members, isInherited := true },
    block (heading ++ [Text.join " " links]))

/-- The groups of inherited members of a kind. -/
def inheritedGroups (b : Builder) (k : Member.Kind) : Except Fault (List Shown) :=
  (b.table.ancestors.map (·.1)).filterMapM (b.inheritedGroup? k)

/-- Adds the section of a kind to the page, if there is anything to show. -/
def addSection (b : Builder) (k : Member.Kind) (inherited : Bool) : Work (List RowGroup) := do
  let own ← b.ownGroup k
  let others ← if inherited then Work.of (b.inheritedGroups k) else pure []
  let shown := own ++ others
  if shown.isEmpty then return []
  let heading ← Work.of (b.heading k)
  let lines := heading ++ shown.flatMap (fun (_, text) => [text, ""]) ++ [""]
  modify fun d => { d with tree := d.tree ++ lines }
  return shown.map (·.1)

/-- Adds all sections to the page. -/
def build (b : Builder) : Work (List RowGroup) := do
  let groups ← (b.kinds.filter b.hasWriter).mapM fun k => b.addSection k (b.showsInherited k)
  return groups.flatten

end Builder

end TypePages
