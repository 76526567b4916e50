import TypePages.Element.Basic
import TypePages.Value.Read

/-!
The naming convention that ties accessors to properties.

A property `width` is a method `widthProperty()` with a getter `getWidth()` and a setter
`setWidth(x)`.  The prefixes and the suffix are settings and may be anything; a prefix or suffix
that is no text is refused where it is first used, so a model without property methods never notices
it.

A prefix counts only at a word boundary: `set` starts `setX`, and not `settings`.  Of several
prefixes the longest is tried first.
-/

namespace TypePages

/-- The settings of a naming convention. -/
structure Naming where
  getterPrefixes : List Value
  setterPrefixes : List Value
  propertySuffix : Value

namespace Naming

/-- The convention with texts as prefixes and suffix. -/
def ofTexts (getters setters : List String) (suffix : String) : Naming where
  getterPrefixes := getters.map .text
  setterPrefixes := setters.map .text
  propertySuffix := .text suffix

/-- The convention that holds where no other is set. -/
def standard : Naming := ofTexts ["get", "is"] ["set"] "Property"

/-- The convention of a configuration. -/
def ofConfig (config : Value) : Except Fault Naming := do
  let naming := (← config.field? "naming").getD (.mapping [])
  let prefixes (name : String) (standard : List Value) : Except Fault (List Value) := do
    match ← naming.field? name with
    | none => return standard
    | some v => v.items
  let getters ← prefixes "getter_prefixes" standard.getterPrefixes
  let setters ← prefixes "setter_prefixes" standard.setterPrefixes
  let suffix ← naming.field? "property_suffix"
  return ⟨getters, setters, suffix.getD standard.propertySuffix⟩

/-! ### Prefixes -/

/-- The rest of a name at a word boundary: nothing is left, or no lowercase letter follows. -/
def boundary? (rest : String) : Option String :=
  match rest.toList with
  | c :: _ => if Text.isLowercase c then none else some rest
  | [] => some rest

/-- The rest of a name after the first of the prefixes that fits. -/
def stripFirst? (name : String) : List Value → Except Fault (Option String)
  | [] => .ok none
  | .text p :: ps =>
    match (Text.afterStart? p name).bind boundary? with
    | some rest => .ok (some rest)
    | none => stripFirst? name ps
  | v :: _ => .error (.affixNotText .start v.form)

/-- Prefixes with their lengths. -/
def measured (prefixes : List Value) : Except Fault (List (Nat × Value)) :=
  prefixes.mapM fun p => do return (← p.length, p)

/-- The prefixes, longest first; those of one length in the order in which they are listed. -/
def longestFirst (prefixes : List Value) : Except Fault (List Value) := do
  return ((← measured prefixes).mergeSort fun a b => b.1 ≤ a.1).map (·.2)

/-- The rest of a name after the longest prefix that fits. -/
def stripPrefix? (name : String) (prefixes : List Value) : Except Fault (Option String) := do
  stripFirst? name (← longestFirst prefixes)

/-! ### Roles -/

/-- What a method is to its property. -/
inductive Role
  | getter
  | setter
  | property
  deriving DecidableEq

/-- The role that a method's name gives it. -/
def role (n : Naming) (e : Element) : Except Fault Role := do
  if (← stripPrefix? e.name n.setterPrefixes).isSome then return .setter
  if (← stripPrefix? e.name n.getterPrefixes).isSome then return .getter
  return .property

/-- The property that an accessor belongs to: `getFooBar` belongs to `fooBar`. -/
def propertyName (n : Naming) (e : Element) : Except Fault String := do
  let rest ← match ← stripPrefix? e.name n.setterPrefixes with
    | some rest => pure (some rest)
    | none => stripPrefix? e.name n.getterPrefixes
  return .ofList (Chars.lowerFirst ((rest.getD "").toList))

/-- Whether a name ends in the suffix. -/
def endsInSuffix (n : Naming) (name : String) : Except Fault Bool :=
  match n.propertySuffix with
  | .text s => .ok (Text.beforeEnd? s name).isSome
  | v => .error (.affixNotText .ending v.form)

/-- Whether an element is a property method: no parameters, and a name that goes on before the
suffix. -/
def isPropertyMethod (n : Naming) (e : Element) : Except Fault Bool := do
  if e.kind ≠ .method ∨ e.parameters ≠ [] then return false
  if e.name.length ≤ (← n.propertySuffix.length) then return false
  n.endsInSuffix e.name

/-- The name of the property of a property method: `fooProperty` is the method of `foo`.  With an
empty suffix nothing is left of the name. -/
def baseName (n : Naming) (e : Element) : Except Fault String :=
  match n.propertySuffix with
  | .text s => .ok (if s = "" then "" else (Text.beforeEnd? s e.name).getD e.name)
  | v => .error (.affixNotText .ending v.form)

/-- A name behind each of the prefixes. -/
def prefixed (prefixes : List Value) (base : String) : Except Fault (List String) :=
  let capital := String.ofList (Chars.upperFirst base.toList)
  prefixes.mapM fun
    | .text p => .ok (p ++ capital)
    | v => .error (.notAddable v.form)

/-- The names that a getter of a property may have, in the order of the prefixes. -/
def getterNames (n : Naming) (base : String) : Except Fault (List String) :=
  prefixed n.getterPrefixes base

/-- The names that a setter of a property may have, in the order of the prefixes. -/
def setterNames (n : Naming) (base : String) : Except Fault (List String) :=
  prefixed n.setterPrefixes base

end Naming

end TypePages
