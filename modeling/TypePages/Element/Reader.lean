import TypePages.Comment.Reader
import TypePages.Element.Basic

/-!
Reading an element from a document.

Absent fields have defaults: the name falls back to the full name and both to the uid, the kind is
unknown and the access is package access.  Fields that hold lists accept whatever can be gone
through item by item, and supertypes and overridden methods may be given alone instead of in a list.
-/

namespace TypePages.Element

/-- A parameter: a mapping, or the bare text of its type. -/
def parameterOf : Value → Except Fault Parameter
  | .mapping entries => do
    let name ← (Value.fieldOf entries "name").readProse
    let type ← (Value.fieldOf entries "type").readProse
    return { name, type, isVariable := (Value.fieldOf entries "typeVariable").isGiven }
  | v => do return { name := "", type := ← v.readProse }

/-- The uid that an item of a uid list stands for. -/
def uidOf : Value → Except Fault String
  | .mapping entries => (Value.fieldOf entries "uid").readText
  | v => v.readText

/-- The uids of a list, of a single text or of a single mapping. -/
def uidsOf (v : Value) : Except Fault (List String) :=
  match v with
  | .text s => .ok (if s = "" then [] else [s])
  | .mapping entries => if entries.isEmpty then .ok [] else do return [← uidOf v]
  | v => do (← v.givenItems).mapM uidOf

/-- The text, unless it is empty. -/
def nonempty? (s : String) : Option String := if s = "" then none else some s

/-- The text of a field whose default is null. -/
def defaultOf : Value → Except Fault (Option String)
  | .null => .ok none
  | v => v.readText.map some

/-- The element that the fields of a mapping describe. -/
def ofFields (entries : List (Scalar × Value)) : Except Fault Element := do
  let get := Value.fieldOf entries
  let uid ← (get "uid").readText
  let kind := Text.lower (Text.trim ((← (get "type").readGiven?).getD ""))
  let name ← ((get "name").orElse (get "fullName")).readGiven?
  let fullName ← ((get "fullName").orElse (get "name")).readGiven?
  let parent ← (get "parent").readGiven?
  let package ← (get "package").readProse
  let access ← (get "access").readProse
  let modifiers ← (← (get "modifiers").givenItems).mapM (·.readText)
  let parameters ← (← (get "parameters").givenItems).mapM parameterOf
  let returnType ← (get "returns").readProse
  let superclass ← (get "superclass").readProse
  let interfaces ← uidsOf (get "interfaces")
  let overrides ← uidsOf (get "overrides")
  let defaultValue ← defaultOf (get "defaultValue")
  let comment ← Comment.ofValue? (get "comment")
  return {
    uid
    kind := .ofLowercase ((nonempty? kind).getD "unknown")
    name := name.getD uid
    fullName := fullName.getD uid
    parent
    package
    access := (nonempty? (Text.lower access)).getD "package"
    statesAccess := (entryAt? (.text "access") entries).isSome
    modifiers
    parameters
    returnType := nonempty? returnType
    superclass := nonempty? superclass
    interfaces
    overrides
    defaultValue
    comment }

/-- The element that a value describes, which has to be a mapping. -/
def ofValue (v : Value) : Except Fault Element :=
  match v with
  | .mapping entries => ofFields entries
  | v => .error (.noAttribute v.form "get")

end TypePages.Element
