import TypePages.Model.Basic
import TypePages.Note

/-!
The supertypes of a type, in the order in which they are searched for members.

First come the superclasses, nearest first, then the interfaces by their distance from the type and
its superclasses.  No type occurs twice, and what is not in the model is left out.
-/

namespace TypePages.Model

/-- The elements that are reached from pending uids along interfaces, nearest first.  Only uids that
have not been visited are followed. -/
def spread (m : Model) (unvisited : List String) (pending : List String) : List Element :=
  match pending with
  | [] => []
  | uid :: rest =>
    if _h : uid ∈ unvisited then
      match m.find? uid with
      | some e => e :: spread m (unvisited.erase uid) (rest ++ e.interfaces)
      | none => spread m unvisited rest
    else spread m unvisited rest
termination_by (unvisited.length, pending.length)
decreasing_by
  · have := List.length_erase_of_mem _h
    have := List.length_pos_of_mem _h
    exact Prod.Lex.left _ _ (by omega)
  · exact Prod.Lex.right _ (by simp)
  · exact Prod.Lex.right _ (by simp)

/-- The type and its superclasses. -/
def classLine (m : Model) (e : Element) : List Element := e :: m.superclassChain e

/-- The interfaces of the type and its superclasses, and theirs in turn. -/
def allInterfaces (m : Model) (e : Element) : List Element :=
  let line := m.classLine e
  m.spread (m.uids.filter (!(line.map (·.uid)).contains ·)) (line.flatMap (·.interfaces))

/-- The supertypes of a type. -/
def ancestors (m : Model) (e : Element) : List Element := m.superclassChain e ++ m.allInterfaces e

/-- The type and its supertypes. -/
def family (m : Model) (e : Element) : List Element := e :: m.ancestors e

/-! ### Notes on what is missing -/

/-- The superclass at the end of a type's class line that is not in the model. -/
def missingSuperclass? (m : Model) (e : Element) : Option (String × Element) :=
  (m.classLine e).getLast?.bind fun last =>
    last.superclass.bind fun uid => if m.contains uid then none else some (uid, last)

/-- The notes on the supertypes that are not in the model. -/
def ancestryNotes (m : Model) (e : Element) : List Note :=
  let superclass := m.missingSuperclass? e
  let named := (m.classLine e ++ m.allInterfaces e).flatMap (·.interfaces)
  let missing := (named.filter fun uid =>
    !m.contains uid && superclass.all fun (s, _) => s != uid).eraseDups
  (superclass.map fun (uid, last) => Note.superclassMissing uid last.uid).toList
    ++ missing.map fun uid => Note.interfaceMissing uid e.uid

end TypePages.Model
