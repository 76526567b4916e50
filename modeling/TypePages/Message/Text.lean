import TypePages.Message.Numeral
import TypePages.Message.Subject

/-!
The text of a message.

The pieces of a template are written in order: literal text as it stands, and for each field its
argument, converted and laid out.  A layout may hold fields of its own, but these no further ones.
-/

namespace TypePages.Template

/-- A subject in its layout; without one it stands as it is displayed. -/
def lay (spec : List Char) (s : Subject) : Except TemplateFault (List Char) :=
  if spec.isEmpty then .ok s.display.toList
  else match s with
    | .value (.text t) => layText spec t.toList
    | .value (.int n) => layInt .int spec n
    | .value (.bool b) => layInt .bool spec (Scalar.ofBool b)
    | .value (.real x) => layReal spec x
    | s => .error (.noSpecAllowed s.kindOf)

/-- Writes pieces, given how to expand the fields in a layout. -/
def writePieces (expand : Numbering → List Char → Except Fault (List Char × Numbering))
    (args : List Value) : Numbering → List Piece → Except Fault (List Char × Numbering)
  | numbering, [] => .ok ([], numbering)
  | numbering, .literal text :: rest => do
    let (done, numbering) ← writePieces expand args numbering rest
    return (text ++ done, numbering)
  | _, .refused fault :: _ => .error (.template fault)
  | numbering, .field f :: rest => do
    let (subject, numbering) ← argument args numbering f.name
    let subject ← lift (convert subject f.conversion)
    let (spec, numbering) ←
      if f.spec.contains '\x7b' then expand numbering f.spec else pure (f.spec, numbering)
    let text ← lift (lay spec subject)
    let (done, numbering) ← writePieces expand args numbering rest
    return (text ++ done, numbering)

/-- The text of a template whose layouts may hold fields down to a given depth. -/
def expand (args : List Value) : Nat → Numbering → List Char → Except Fault (List Char × Numbering)
  | 0, _, _ => .error (.template .tooDeep)
  | depth + 1, numbering, cs => writePieces (expand args depth) args numbering (pieces cs)

/-- The text of a template for its arguments. -/
def format (template : String) (args : List Value) : Except Fault String := do
  return .ofList (← expand args 2 .unset template.toList).1

/-- The message of a catalog under a key, with its arguments filled in.  The catalog and its entries
are settings and may be anything; only a text in a mapping is a template. -/
def message (catalog : Value) (key : String) (args : List Value) : Except Fault String := do
  match ← catalog.entry key with
  | .text template => format template args
  | v => .error (.noAttribute v.form "format")

end TypePages.Template
