import TypePages.Message.Template

/-!
Layouts of template fields.

A layout sets the width that a value is padded to, the character it is padded with and the side on
which it stands.  It may cut texts short, and it may choose how numbers are written.  Texts stand on
the left by default and numbers on the right.
-/

namespace TypePages.Template

/-- A layout. -/
structure Layout where
  fill : Char := ' '
  /-- One of `<`, `>`, `^` and `=`, the last of which pads between sign and digits. -/
  align : Char
  sign : Option Char := none
  zeroCoercion : Bool := false
  alternate : Bool := false
  width : Nat := 0
  separator : Option Char := none
  precision : Option Nat := none
  code : Char

/-- The digits that a text starts with, as a number, and the rest. -/
def leadingNumber (cs : List Char) : Except TemplateFault (Option Nat × List Char) := do
  let digits := cs.takeWhile Text.isDigit
  return (← number? digits, cs.drop digits.length)

/-- Whether a character sets the side. -/
def isAlign (c : Char) : Bool := c == '<' || c == '>' || c == '^' || c == '='

/-- Takes a character off the front if it is the given one. -/
def takeChar (c : Char) : List Char → Bool × List Char
  | [] => (false, [])
  | d :: cs => if c = d then (true, cs) else (false, d :: cs)

/-- The fill character and the side that a layout starts with, and the rest. -/
def scanAlign : List Char → Option Char × Option Char × List Char
  | c :: d :: cs =>
    if isAlign d then (some c, some d, cs)
    else if isAlign c then (none, some c, d :: cs)
    else (none, none, c :: d :: cs)
  | [c] => if isAlign c then (none, some c, []) else (none, none, [c])
  | [] => (none, none, [])

/-- Whether a separator of digit groups may go with a code. -/
def separatorAllowed (separator code : Char) : Bool :=
  ['d', 'e', 'f', 'g', 'E', 'G', '%', 'F', '\x00'].contains code
    || (separator == '_' && ['b', 'o', 'x', 'X'].contains code)

/-- Reads a layout of a value of the given form. -/
def scanLayout (form : Value.Form) (align code : Char) (spec : List Char) :
    Except TemplateFault Layout := do
  let (fill, side, cs) := scanAlign spec
  let (sign, cs) := match cs with
    | c :: rest => if c = ' ' ∨ c = '+' ∨ c = '-' then (some c, rest) else (none, cs)
    | [] => (none, [])
  let (zeroCoercion, cs) := takeChar 'z' cs
  let (alternate, cs) := takeChar '#' cs
  let (zero, cs) := if fill.isNone then takeChar '0' cs else (false, cs)
  let side := side.getD (if zero ∧ align = '>' then '=' else align)
  let fill := fill.getD (if zero then '0' else ' ')
  let (width, cs) ← leadingNumber cs
  let (comma, cs) := takeChar ',' cs
  let (underscore, cs) := takeChar '_' cs
  if comma ∧ underscore then throw .bothSeparators
  if underscore ∧ cs.head? = some ',' then throw .bothSeparators
  let separator := if comma then some ',' else if underscore then some '_' else none
  let (point, cs) := takeChar '.' cs
  let (precision, cs) ← if point then leadingNumber cs else pure (none, cs)
  if point ∧ precision.isNone then throw .missingPrecision
  let code ← match cs with
    | [] => pure code
    | [c] => pure c
    | _ => throw (.invalidSpec (.ofList spec) form)
  if let some s := separator then
    unless separatorAllowed s code do throw (.separatorNotAllowed s code)
  return {
    fill, align := side, sign, zeroCoercion, alternate, width := width.getD 0, separator, precision
    code }

/-- Text on its side of the width. -/
def Layout.pad (l : Layout) (cs : List Char) : List Char :=
  let missing := l.width - cs.length
  let left := if l.align = '<' then 0 else if l.align = '^' then missing / 2 else missing
  List.replicate left l.fill ++ cs ++ List.replicate (missing - left) l.fill

/-- A text in its layout. -/
def layText (spec cs : List Char) : Except TemplateFault (List Char) := do
  let l ← scanLayout .text '<' 's' spec
  if l.code ≠ 's' then throw (.unknownCode l.code .text)
  if l.sign = some ' ' then throw .spaceNotAllowed
  if l.sign.isSome then throw .signNotAllowed
  if l.zeroCoercion then throw (.zeroCoercionNotAllowed true)
  if l.alternate then throw .alternateNotAllowed
  if l.align = '=' then throw .alignNotAllowed
  return l.pad (cs.take (l.precision.getD cs.length))

end TypePages.Template
