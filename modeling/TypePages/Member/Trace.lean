import TypePages.Member.Table

/-!
What the reading of a table reports.

Reading goes step by step, and a refusal ends it; the notes of the steps before are kept.  A trace
lists for each step its notes or its refusal, in the order in which `Table.read` takes them.
-/

namespace TypePages.Table

/-- The notes of steps up to the first that is refused. -/
def notesOfSteps : List (Except Fault (List Note)) → List Note
  | .ok notes :: rest => notes ++ notesOfSteps rest
  | _ => []

/-- The step of sorting a member into a kind. -/
def classifyStep (rules : Rules) (owner member : Element) : Except Fault (List Note) := do
  match ← classify rules owner member with
  | some _ => return []
  | none => return [.unknownKind member.uid member.kind.name]

/-- The steps of sorting the members of a type. -/
def classifySteps (rules : Rules) (m : Model) (owner : Element) : List (Except Fault (List Note)) :=
  (m.membersOf owner).map (classifyStep rules owner)

/-- The step of reading a table's members, after which nothing is noted but on properties. -/
def membersStep (rules : Rules) (m : Model) (owner : Element) : Except Fault (List Note) := do
  discard (readMembers rules m owner)
  return []

/-- The step of finding the accessors of a property method. -/
def accessorsStep (rules : Rules) (m : Model) (owner property : Element) :
    Except Fault (List Note) := do
  let found ← findAccessors rules.naming (m.membersOf owner) property
  return if found = ⟨none, none, none⟩ then [.bareProperty property.uid] else []

/-- The steps on the properties that a type shows. -/
def propertySteps (rules : Rules) (m : Model) (owner : Element) : List (Except Fault (List Note)) :=
  match readMembers rules m owner with
  | .ok t => (t.visible .properties).map (accessorsStep rules m owner)
  | .error _ => []

/-- The steps on a supertype. -/
def ancestorSteps (rules : Rules) (m : Model) (owner ancestor : Element) :
    List (Except Fault (List Note)) :=
  classifySteps rules m ancestor ++ [do discard (readAncestor rules m owner ancestor); return []]

/-- The step of refusing a least level that makes no sense before the supertypes are looked at. -/
def ownStep (rules : Rules) (m : Model) (owner : Element) : Except Fault (List Note) := do
  needLevel m (!(← classifyAll rules m owner).isEmpty)
  return []

/-- What the reading of a table reports, up to where it is refused. -/
def notes (rules : Rules) (m : Model) (owner : Element) : List Note :=
  m.ancestryNotes owner ++ notesOfSteps (
    classifySteps rules m owner ++ [ownStep rules m owner]
      ++ (m.ancestors owner).flatMap (ancestorSteps rules m owner)
      ++ [membersStep rules m owner] ++ propertySteps rules m owner)

end TypePages.Table
