import TypePages.Fault
import TypePages.Value.Prose

/-!
Reading a value whose form is not promised.

An optional field is asked of anything that should be a mapping, and is null where it is absent.  A
required entry is looked up by name.  The text of a value is refused where an integer in it has too
many digits.  Going through a value item by item yields the items of a list,
the characters of a text or the keys of a mapping.
-/

namespace TypePages.Value

/-- The optional fields of a value, which has to be a mapping. -/
def field? (v : Value) (name : String) : Except Fault (Option Value) :=
  match v with
  | .mapping entries => .ok (entryAt? (.text name) entries)
  | v => .error (.noAttribute v.form "get")

/-- A field of a mapping; null where it is absent. -/
def fieldOf (entries : List (Scalar × Value)) (name : String) : Value :=
  (entryAt? (.text name) entries).getD .null

/-- A required entry of a value. -/
def entry (v : Value) (name : String) : Except Fault Value :=
  match v with
  | .mapping entries =>
    match entryAt? (.text name) entries with
    | some w => .ok w
    | none => .error (.missingKey (.text name))
  | v => .error (.ofNamedLookup v.form)

/-- The items that a value is gone through by. -/
def items : Value → Except Fault (List Value)
  | .list items => .ok items
  | .text s => .ok (s.toList.map fun c => .text (.ofList [c]))
  | .mapping entries => .ok (entries.map fun (k, _) => .scalar k)
  | v => .error (.notIterable v.form)

/-- The items of a value that may be left out. -/
def givenItems (v : Value) : Except Fault (List Value) := if v.isGiven then v.items else .ok []

/-- The number of items of a value. -/
def length : Value → Except Fault Nat
  | .list items => .ok items.length
  | .text s => .ok s.length
  | .mapping entries => .ok entries.length
  | v => .error (.noLength v.form)

/-- The value, or another one where it is not given. -/
def orElse (v w : Value) : Value := if v.isGiven then v else w

/-- Refuses values whose integers are too long to be written. -/
def checkLength (v : Value) : Except Fault Unit :=
  if v.isTooLong then .error .integerTooLong else .ok ()

/-- The text of a value. -/
def readText (v : Value) : Except Fault String := v.checkLength.map fun _ => v.display

/-- The plain text of a value. -/
def readProse (v : Value) : Except Fault String := v.checkLength.map fun _ => v.prose

/-- The text of a value that is given. -/
def readGiven? (v : Value) : Except Fault (Option String) :=
  if v.isGiven then v.readText.map some else .ok none

end TypePages.Value
