import TypePages.Fault

/-!
Kinds of members.

Each kind has a summary table of its own.  Members of four of the kinds are handed down to subtypes.
-/

namespace TypePages

/-- The kinds of members that are summarised together. -/
inductive Member.Kind
  | nestedTypes
  | enumConstants
  | fields
  | properties
  | constructors
  | methods
  | annotationFields
  | requiredElements
  | optionalElements
  deriving DecidableEq, Inhabited

namespace Member.Kind

/-- All kinds, in order. -/
def all : List Member.Kind :=
  [.nestedTypes, .enumConstants, .fields, .properties, .constructors, .methods, .annotationFields,
    .requiredElements, .optionalElements]

/-- The name of a kind in settings. -/
def key : Member.Kind → String
  | .nestedTypes => "nested_types"
  | .enumConstants => "enum_constants"
  | .fields => "fields"
  | .properties => "properties"
  | .constructors => "constructors"
  | .methods => "methods"
  | .annotationFields => "annotation_fields"
  | .requiredElements => "annotation_required_elements"
  | .optionalElements => "annotation_optional_elements"

/-- The kind of a name. -/
def ofKey (key : String) : Except Fault Member.Kind :=
  match all.find? (·.key == key) with
  | some k => .ok k
  | none => .error (.missingKey (.text key))

/-- Whether members of the kind are handed down to subtypes. -/
def isHandedDown : Member.Kind → Bool
  | .nestedTypes | .fields | .properties | .methods => true
  | _ => false

theorem mem_all (k : Member.Kind) : k ∈ all := by cases k <;> decide

theorem ofKey_key (k : Member.Kind) : ofKey k.key = .ok k := by cases k <;> rfl

end Member.Kind

end TypePages
