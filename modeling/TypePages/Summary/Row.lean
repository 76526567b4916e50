import TypePages.Markdown.Table
import TypePages.Summary.Builder

/-!
Rows, headings and links of a summary.

A row shows a member by a link to its details, in most kinds behind its modifiers and type, and in
front of its first sentence.  An inherited member is a link to the page of the type that it is
attributed to, or code where that type has no page.
-/

namespace TypePages

namespace Member.Kind

/-- The headers of a kind's table. -/
def headers : Member.Kind → List String
  | .nestedTypes => ["Modifier and Type", "Class", "Description"]
  | .enumConstants => ["Enum Constant", "Description"]
  | .fields => ["Modifier and Type", "Field", "Description"]
  | .properties => ["Type", "Property", "Description"]
  | .constructors => ["Constructor", "Description"]
  | .methods => ["Modifier and Type", "Method", "Description"]
  | .annotationFields => ["Modifier and Type", "Field", "Description"]
  | .requiredElements => ["Modifier and Type", "Required Element", "Description"]
  | .optionalElements => ["Modifier and Type", "Optional Element", "Description"]

/-- Whether a kind's table starts with a column for modifiers and types. -/
def hasTypeColumn (k : Member.Kind) : Bool := k.headers.length == 3

end Member.Kind

namespace Builder

/-- The modifiers that are shown, in this order. -/
def shownModifiers : List String := ["static", "abstract", "final", "default"]

/-- A text as code. -/
def code (text : String) : String := "`" ++ text ++ "`"

/-- A Markdown link. -/
def link (title page : String) : String := "[" ++ title ++ "](" ++ page ++ ")"

/-- The name by which a member is shown: a property method by its property. -/
def displayName (b : Builder) (k : Member.Kind) (member : Element) : Except Fault String :=
  if k = .properties then b.naming.baseName member else .ok member.name

/-- The modifiers and the type of a member. -/
def typeColumn (member : Element) : String :=
  let type := if member.isType then [member.kind.name] else member.returnType.toList
  match shownModifiers.filter member.modifiers.contains ++ type with
  | [] => ""
  | parts => code (Text.join " " parts)

/-- The parameters of a member, with their names. -/
def parameterList (member : Element) : String :=
  Text.join ", " (member.parameters.map fun p => Text.trim (p.type ++ " " ++ p.name))

/-- The link of a member to its details. -/
def memberLink (b : Builder) (k : Member.Kind) (member : Element) : Except Fault String := do
  let title ← b.displayName k member
  let link := link title ("#" ++ Anchor.ofMember member)
  return if member.isExecutable ∧ k ≠ .properties then link ++ "(" ++ parameterList member ++ ")"
    else link

/-- The row of a member.  A borrowed sentence is read in the context of the type that it comes from.
-/
def rowOf (b : Builder) (o : Overlay) (k : Member.Kind) (member : Element) (sentence : String) :
    Except Fault Row := do
  let context := (o.donor? member).getD member
  let description := Inline.markdown b.model b.targets (b.model.enclosing? context) sentence
  let link ← b.memberLink k member
  return (if k.hasTypeColumn then [typeColumn member] else []) ++ [link, description]

/-- Puts the row of a member with the rows that wait. -/
def addRow (b : Builder) (k : Member.Kind) (member : Element) (sentence : String) : Work Unit := do
  let row ← Work.of (b.rowOf (← get).overlay k member sentence)
  modify fun d => { d with rows := fun k' => if k' = k then d.rows k ++ [row] else d.rows k' }

/-- The table of the rows that wait, after which none wait. -/
def takeTable (k : Member.Kind) : Work String := do
  let rows := (← get).rows k
  modify fun d => { d with rows := fun k' => if k' = k then [] else d.rows k' }
  return Markdown.table k.headers rows

/-- The heading of a kind's section. -/
def heading (b : Builder) (k : Member.Kind) : Except Fault (List String) := do
  return ["## " ++ (← b.message (k.key ++ "_summary") []), ""]

/-- The heading of the members that are inherited from a type. -/
def inheritedHeading (b : Builder) (k : Member.Kind) (ancestor : Element) :
    Except Fault (List String) := do
  let label := if ancestor.kind.isInterfaceLike then "interface" else "class"
  let name := match b.targets.find? ancestor.uid with
    | some t => link ancestor.name t.page
    | none => code ancestor.name
  return ["### " ++ (← b.message (k.key ++ "_inherited_from") [label, name]), ""]

/-- The link to a member on the page of a type; all but the last of a list have a comma. -/
def inheritedLink (b : Builder) (k : Member.Kind) (type member : Element) (isLast : Bool) :
    Except Fault String := do
  let title ← b.displayName k member
  let shown := match b.targets.find? type.uid with
    | some t => link title (t.ofMember member).page
    | none => code title
  return if isLast then shown else shown ++ ","

/-- Lines as one text without blanks at its end. -/
def block (lines : List String) : String := Text.trimEnd (Text.join "\n" lines)

end Builder

end TypePages
