import TypePages.Value.Basic

/-!
Kinds of things that a field of a template can come to.

A field starts at an argument, which is a value, and may go on from there: to the kind of the value,
to the operations and quantities that the kind has under names, and to what these have in turn.
Everything that is reached has a kind, the kinds included.
-/

namespace TypePages.Template

/-- A kind of things. -/
inductive Kind
  | value (form : Value.Form)
  /-- The kind that everything is of. -/
  | anything
  /-- The kind of kinds. -/
  | kind
  /-- A fixed sequence of things. -/
  | sequence
  /-- An operation that stands for a sign, such as a sum. -/
  | operator
  /-- An operation that is called by its name. -/
  | method
  /-- A quantity that every thing of some kind has. -/
  | quantity
  /-- An operator together with the thing it works on. -/
  | boundOperator
  /-- A method together with the thing it works on. -/
  | boundMethod
  /-- A kind that is narrowed by an argument. -/
  | application
  deriving DecidableEq

namespace Kind

/-- The name of a kind in messages. -/
def title : Kind → String
  | .value form => form.name
  | .anything => "object"
  | .kind => "type"
  | .sequence => "tuple"
  | .operator => "wrapper_descriptor"
  | .method => "method_descriptor"
  | .quantity => "getset_descriptor"
  | .boundOperator => "method-wrapper"
  | .boundMethod => "builtin_function_or_method"
  | .application => "types.GenericAlias"

/-- The place where a kind is known by its name. -/
def home : Kind → String
  | .application => "types"
  | _ => "builtins"

/-- The name of a kind within its home. -/
def name : Kind → String
  | .application => "GenericAlias"
  | k => k.title

/-- A kind as it is displayed. -/
def text (k : Kind) : String := "<class '" ++ k.title ++ "'>"

/-- A kind and the kinds it inherits from, the nearest first. -/
def ancestry : Kind → List Kind
  | .anything => [.anything]
  | .value .bool => [.value .bool, .value .int, .anything]
  | k => [k, .anything]

/-- Whether a kind can be narrowed by an argument. -/
def isApplicable : Kind → Bool
  | .value .list | .value .mapping | .sequence | .kind => true
  | _ => false

end Kind

end TypePages.Template
