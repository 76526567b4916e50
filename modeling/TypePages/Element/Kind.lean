import TypePages.Text.Basic

/-!
Kinds of elements.

An element is a type, an executable member, a plain member, or of a kind of its own that the
summaries do not know.  Documents write kinds in any case.
-/

namespace TypePages

/-- What an element is. -/
inductive Element.Kind
  | classType
  | interfaceType
  | enumType
  | annotationType
  | recordType
  | field
  | enumConstant
  | constructor
  | method
  | annotationElement
  /-- A kind that the summaries do not know, in lowercase. -/
  | other (name : String)
  deriving DecidableEq, Inhabited

namespace Element.Kind

/-- The kinds that have a name of their own. -/
def named : List (String × Element.Kind) :=
  [("class", .classType), ("interface", .interfaceType), ("enum", .enumType),
    ("annotation", .annotationType), ("record", .recordType), ("field", .field),
    ("enum_constant", .enumConstant), ("constructor", .constructor), ("method", .method),
    ("annotation_element", .annotationElement)]

/-- The kind of a name in lowercase. -/
def ofLowercase (name : String) : Element.Kind := (named.lookup name).getD (.other name)

/-- The kind of a name in any case. -/
def ofName (name : String) : Element.Kind := ofLowercase (Text.lower name)

/-- The name of a kind. -/
def name : Element.Kind → String
  | .classType => "class"
  | .interfaceType => "interface"
  | .enumType => "enum"
  | .annotationType => "annotation"
  | .recordType => "record"
  | .field => "field"
  | .enumConstant => "enum_constant"
  | .constructor => "constructor"
  | .method => "method"
  | .annotationElement => "annotation_element"
  | .other name => name

/-- Whether elements of the kind are types. -/
def isType : Element.Kind → Bool
  | .classType | .interfaceType | .enumType | .annotationType | .recordType => true
  | _ => false

/-- Whether elements of the kind take parameters. -/
def isExecutable : Element.Kind → Bool
  | .method | .constructor | .annotationElement => true
  | _ => false

/-- Whether elements of the kind are members of a type. -/
def isMember : Element.Kind → Bool
  | .field | .enumConstant => true
  | k => k.isExecutable

/-- Whether the kind is declared like an interface. -/
def isInterfaceLike : Element.Kind → Bool
  | .interfaceType | .annotationType => true
  | _ => false

/-- The place of a kind among elements that differ in nothing else. -/
def rank : Element.Kind → Nat
  | .field => 0
  | .enumConstant => 1
  | .constructor => 2
  | .method => 3
  | .annotationElement => 4
  | .classType => 5
  | .interfaceType => 6
  | .enumType => 7
  | .annotationType => 8
  | .recordType => 9
  | .other _ => 10

/-- A kind that has a name of its own is found by it. -/
theorem ofLowercase_name {k : Element.Kind} (h : ∀ n, k ≠ .other n) : ofLowercase k.name = k := by
  cases k with
  | other name => exact absurd rfl (h name)
  | _ => rfl

end Element.Kind

end TypePages
