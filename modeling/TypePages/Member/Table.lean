import TypePages.Member.Kind
import TypePages.Model.Ancestry
import TypePages.Naming

/-!
The members of a type that are documented, its own and those it inherits.

Members are sorted into kinds.  A type shows what it declares itself, and of its supertypes what it
inherits and nothing nearer hides: a declaration hides the farther ones with the same hiding key.  A
member that the type itself declares hides whether it is shown or not; a member of a supertype hides
only if it is inherited and shown.

Reading a table is refused when a setting that is needed for it makes no sense.  What was read is
kept in `Table`, and everything that is asked of a table is computed from it without further
refusals.
-/

namespace TypePages

/-- A member with the kind that it is summarised under. -/
abbrev Classified := Member.Kind × Element

/-- The field, getter and setter of a property. -/
structure Accessors where
  field : Option Element
  getter : Option Element
  setter : Option Element
  deriving DecidableEq

/-- What is known about the members of a type. -/
structure Table where
  model : Model
  naming : Naming
  owner : Element
  /-- The least level that is documented. -/
  level : Access
  /-- The members that the type declares. -/
  own : List Classified
  /-- The supertypes with the members that they declare. -/
  ancestors : List (Element × List Classified)
  /-- The accessors of the property methods that the type shows. -/
  accessors : List (Element × Accessors)

/-- Whether property methods are told apart, and by which names. -/
structure Table.Rules where
  naming : Naming
  properties : Bool

namespace Table

/-! ### Kinds of members -/

/-- The kind under which a type summarises a member that it declares, if any. -/
def classify (rules : Rules) (owner member : Element) : Except Fault (Option Member.Kind) :=
  match member.kind with
  | .classType | .interfaceType | .enumType | .annotationType | .recordType =>
    .ok (some .nestedTypes)
  | .enumConstant => .ok (some .enumConstants)
  | .field => .ok (some (if owner.kind = .annotationType then .annotationFields else .fields))
  | .constructor => .ok (some .constructors)
  | .annotationElement =>
    .ok (some (if member.defaultValue.isNone then .requiredElements else .optionalElements))
  | .method =>
    if rules.properties then do
      return some (if ← rules.naming.isPropertyMethod member then .properties else .methods)
    else .ok (some .methods)
  | .other _ => .ok none

/-- The members that a type declares, with their kinds. -/
def classifyAll (rules : Rules) (m : Model) (owner : Element) : Except Fault (List Classified) :=
  (m.membersOf owner).filterMapM fun e => do return (← classify rules owner e).map (·, e)

/-- The members of a kind. -/
def ofKind (k : Member.Kind) (members : List Classified) : List Element :=
  (members.filter (·.1 == k)).map (·.2)

/-! ### Inheritance -/

/-- Whether a type hands a member down to another one. -/
def handsDown (ancestor owner member : Element) : Bool :=
  member.access != "private"
    && !(member.access == "package" && ancestor.package != owner.package)
    && !(ancestor.kind == .interfaceType && member.kind == .method && member.isStatic)

/-- The elements that no key in a list and no earlier element hides. -/
def unhidden (keys : List (List String)) : List Element → List Element
  | [] => []
  | e :: es =>
    if keys.contains e.hidingKey then unhidden keys es
    else e :: unhidden (e.hidingKey :: keys) es

/-! ### What is shown -/

/-- Whether a member's own access level is documented. -/
def shows (t : Table) (e : Element) : Bool := t.level ≤ e.level

/-- The members of a kind that the type declares and shows. -/
def visible (t : Table) (k : Member.Kind) : List Element := (ofKind k t.own).filter t.shows

/-- The members of a kind that supertypes hand down, nearest supertype first. -/
def handedDown (t : Table) (k : Member.Kind) : List Element :=
  t.ancestors.flatMap fun (a, members) => (ofKind k members).filter (handsDown a t.owner)

/-- The members of a kind that the type inherits and shows. -/
def inherited (t : Table) (k : Member.Kind) : List Element :=
  if k.isHandedDown then
    unhidden ((ofKind k t.own).map (·.hidingKey)) ((t.handedDown k).filter t.shows)
  else []

/-- The members of a kind that the type shows, its own before those it inherits. -/
def allVisible (t : Table) (k : Member.Kind) : List Element := t.visible k ++ t.inherited k

/-- Whether the type shows members of a kind. -/
def has (t : Table) (k : Member.Kind) : Bool := !(t.allVisible k).isEmpty

/-- Whether the type shows any members. -/
def hasAny (t : Table) : Bool := Member.Kind.all.any t.has

/-- The type and its supertypes. -/
def family (t : Table) : List Element := t.owner :: t.ancestors.map (·.1)

/-- The accessors of a property method that the type shows. -/
def accessorsOf? (t : Table) (property : Element) : Option Accessors :=
  (t.accessors.find? (·.1.uid == property.uid)).map (·.2)

/-- The getter of a property method. -/
def getter? (t : Table) (property : Element) : Option Element :=
  (t.accessorsOf? property).bind (·.getter)

/-- The setter of a property method. -/
def setter? (t : Table) (property : Element) : Option Element :=
  (t.accessorsOf? property).bind (·.setter)

/-- The field behind a property method. -/
def field? (t : Table) (property : Element) : Option Element :=
  (t.accessorsOf? property).bind (·.field)

/-! ### Reading a table -/

/-- The first of the methods of a type that has one of the names, earlier names first, and the given
number of parameters. -/
def findMethod? (members : List Element) (names : List String) (arity : Nat) : Option Element :=
  names.findSome? fun name =>
    members.find? fun e => e.kind == .method && e.name == name && e.parameters.length == arity

/-- The accessors of a property method of a type with the given members. -/
def findAccessors (naming : Naming) (members : List Element) (property : Element) :
    Except Fault Accessors := do
  let base ← naming.baseName property
  let getters ← naming.getterNames base
  let setters ← naming.setterNames base
  return {
    field := members.find? fun e => e.kind == .field && e.name == base
    getter := findMethod? members getters 0
    setter := findMethod? members setters 1 }

/-- Refuses a least level that makes no sense, if there is something to compare with it. -/
def needLevel (m : Model) (needed : Bool) : Except Fault Unit :=
  if needed then discard m.threshold else .ok ()

/-- The members that a supertype of a type declares. -/
def readAncestor (rules : Rules) (m : Model) (owner ancestor : Element) :
    Except Fault (Element × List Classified) := do
  let members ← classifyAll rules m ancestor
  needLevel m ((ofKind .nestedTypes members).any (handsDown ancestor owner))
  return (ancestor, members)

/-- Whether a supertype hands anything down. -/
def handsAnythingDown (owner : Element) (ancestor : Element × List Classified) : Bool :=
  ancestor.2.any fun (k, e) => k.isHandedDown && handsDown ancestor.1 owner e

/-- The table of a type, but for the accessors. -/
def readMembers (rules : Rules) (m : Model) (owner : Element) : Except Fault Table := do
  let own ← classifyAll rules m owner
  needLevel m (!own.isEmpty)
  let ancestors ← (m.ancestors owner).mapM (readAncestor rules m owner)
  needLevel m (ancestors.any (handsAnythingDown owner))
  return {
    model := m, naming := rules.naming, owner, own, ancestors, accessors := []
    level := m.threshold.toOption.getD .package }

/-- The table of a type. -/
def read (rules : Rules) (m : Model) (owner : Element) : Except Fault Table := do
  let t ← readMembers rules m owner
  let accessors ← (t.visible .properties).mapM fun p => do
    return (p, ← findAccessors rules.naming (m.membersOf owner) p)
  return { t with accessors }

end Table

end TypePages
