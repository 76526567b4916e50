import TypePages.Comment.Basic
import TypePages.Element.Access
import TypePages.Element.Kind

/-!
Program elements: types and their members.

An element is known by its uid.  It names the elements it depends on (its enclosing type,
superclass, interfaces and the methods it overrides) by uid too, and nothing promises that they are
in the model.
-/

namespace TypePages

/-- A parameter of a method or constructor. -/
structure Parameter where
  name : String
  type : String
  /-- Whether the type is a free type variable. -/
  isVariable : Bool := false
  deriving DecidableEq, Inhabited

/-- A documented element. -/
structure Element where
  uid : String
  kind : Element.Kind
  name : String
  fullName : String
  /-- The uid of the enclosing type. -/
  parent : Option String := none
  package : String := ""
  /-- The access level as the document words it, in lowercase. -/
  access : String := "package"
  /-- Whether the document says anything about access. -/
  statesAccess : Bool := true
  modifiers : List String := []
  parameters : List Parameter := []
  returnType : Option String := none
  superclass : Option String := none
  interfaces : List String := []
  /-- The uids of the methods that the element overrides, nearest first. -/
  overrides : List String := []
  defaultValue : Option String := none
  comment : Option Comment := none
  deriving DecidableEq, Inhabited

namespace Element

/-- Whether the element is a type. -/
def isType (e : Element) : Bool := e.kind.isType

/-- Whether the element takes parameters. -/
def isExecutable (e : Element) : Bool := e.kind.isExecutable

/-- Whether the element belongs to its type and not to the type's instances. -/
def isStatic (e : Element) : Bool := e.modifiers.contains "static"

/-- The access level of the element itself. -/
def level (e : Element) : Access := .ofWord e.access

/-- The types of the parameters. -/
def parameterTypes (e : Element) : List String := e.parameters.map (·.type)

/-- The parameter types in parentheses. -/
def signature (e : Element) : String := "(" ++ Text.join ", " e.parameterTypes ++ ")"

/-- What a nearer declaration hides a farther one by: the name, and for executables the types. -/
def hidingKey (e : Element) : List String :=
  if e.isExecutable then e.name :: e.parameterTypes else [e.name]

end Element

end TypePages
