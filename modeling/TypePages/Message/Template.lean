import TypePages.Text.Basic
import TypePages.Text.Digit
import TypePages.Value.Read

/-!
Message templates.

A template is literal text with fields in braces; a doubled brace stands for itself.  A field names
an argument by position, or takes the next one, and may go into it by attributes and items, ask for
a quoted form, and give a layout.  A template is cut into pieces first; a piece that cannot be read
is kept as a refusal, which counts only when everything before it has been written.
-/

namespace TypePages.Template

/-- A field: the name of the argument, the conversion asked for, and the layout. -/
structure Field where
  name : List Char
  conversion : Option Char := none
  spec : List Char := []
  deriving DecidableEq

/-- A piece of a template. -/
inductive Piece
  | literal (text : List Char)
  | field (f : Field)
  | refused (fault : TemplateFault)
  deriving DecidableEq

/-! ### Cutting a template into pieces -/

/-- The name of a field up to the character that ends it, that character, and the rest.  Between
brackets nothing ends a name. -/
def scanName (inBrackets : Bool) : List Char → Except TemplateFault (List Char × Char × List Char)
  | [] => .error .unclosedField
  | c :: cs =>
    if inBrackets then consTo c (scanName (c ≠ ']') cs)
    else if c = '\x7b' then .error .braceInFieldName
    else if c = '\x7d' ∨ c = ':' ∨ c = '!' then .ok ([], c, cs)
    else consTo c (scanName (c = '[') cs)
where
  /-- Puts a character before a scanned name. -/
  consTo (c : Char) (r : Except TemplateFault (List Char × Char × List Char)) :
      Except TemplateFault (List Char × Char × List Char) :=
    r.map fun (name, ending, rest) => (c :: name, ending, rest)

/-- A layout up to the brace that closes its field, with `depth` braces open in it, and the rest. -/
def scanSpec (depth : Nat) : List Char → Except TemplateFault (List Char × List Char)
  | [] => .error .unclosedSpec
  | c :: cs =>
    if c = '\x7d' ∧ depth = 0 then .ok ([], cs)
    else
      let depth := if c = '\x7b' then depth + 1 else if c = '\x7d' then depth - 1 else depth
      (scanSpec depth cs).map fun (spec, rest) => (c :: spec, rest)

/-- The field that follows an opening brace, and the rest. -/
def scanField (cs : List Char) : Except TemplateFault (Field × List Char) := do
  let (name, ending, rest) ← scanName false cs
  if ending = ':' then
    let (spec, rest) ← scanSpec 0 rest
    return ({ name, spec }, rest)
  else if ending = '!' then
    match rest with
    | [] => .error .noConversion
    | [_] => .error .unclosedSpec
    | c :: d :: rest =>
      if d = '\x7d' then return ({ name, conversion := some c }, rest)
      else if d = ':' then
        let (spec, rest) ← scanSpec 0 rest
        return ({ name, conversion := some c, spec }, rest)
      else .error .colonExpected
  else return ({ name }, rest)

/-- The pieces of a template, of which at most as many as given are looked for. -/
def piecesWithin : Nat → List Char → List Piece
  | 0, _ => []
  | n + 1, cs =>
    let text := cs.takeWhile fun c => c != '\x7b' && c != '\x7d'
    match cs.drop text.length with
    | [] => [.literal text]
    | [c] => [.literal text, .refused (.loneBrace c)]
    | c :: d :: rest =>
      if c = d then .literal (text ++ [c]) :: piecesWithin n rest
      else if c = '\x7d' then [.literal text, .refused (.loneBrace c)]
      else match scanField (d :: rest) with
        | .ok (f, rest) => .literal text :: .field f :: piecesWithin n rest
        | .error fault => [.literal text, .refused fault]

/-- The pieces of a template.  Every round takes a character, so the rounds suffice. -/
def pieces (cs : List Char) : List Piece := piecesWithin (cs.length + 1) cs

/-! ### Arguments -/

/-- How fields without a position are numbered: not at all yet, or all by themselves, or never. -/
inductive Numbering
  | unset
  | automatic (next : Nat)
  | manual
  deriving DecidableEq

/-- The number that digits stand for.  Digits that make too large a number are refused even if
something else follows them. -/
def number? (cs : List Char) : Except TemplateFault (Option Nat) :=
  let digits := cs.takeWhile Text.isDigit
  if Nat.pow 2 63 ≤ Text.numberOf digits then .error .tooManyDigits
  else if cs.isEmpty ∨ digits.length < cs.length then .ok none
  else .ok (some (Text.numberOf digits))

/-- The position of the argument that the start of a field name stands for, if it is no word. -/
def position? (numbering : Numbering) (first : List Char) :
    Except TemplateFault (Option Nat × Numbering) := do
  match ← number? first with
  | some n =>
    match numbering with
    | .automatic _ => .error .manualAfterAutomatic
    | _ => return (some n, .manual)
  | none =>
    if first.isEmpty then
      match numbering with
      | .manual => .error .automaticAfterManual
      | .unset => return (some 0, .automatic 1)
      | .automatic n => return (some n, .automatic (n + 1))
    else return (none, numbering)

/-- A step into an argument. -/
inductive Access
  | attribute (name : List Char)
  | item (name : List Char)

/-- The steps that follow the start of a field name, of which at most as many as given are read. -/
def accessesWithin : Nat → List Char → List (Except TemplateFault Access)
  | 0, _ | _, [] => []
  | n + 1, c :: cs =>
    if c = '.' then
      let name := cs.takeWhile fun c => c != '.' && c != '['
      if name.isEmpty then [.error .emptyAttribute]
      else .ok (.attribute name) :: accessesWithin n (cs.drop name.length)
    else if c = '[' then
      match Chars.cut ']' cs with
      | (_, none) => [.error .bracketUnclosed]
      | ([], some _) => [.error .emptyAttribute]
      | (name, some rest) => .ok (.item name) :: accessesWithin n rest
    else [.error .junkAfterBracket]

/-- A refusal of a template as a refusal of the request. -/
def lift {α : Type} (r : Except TemplateFault α) : Except Fault α := r.mapError .template

end TypePages.Template
