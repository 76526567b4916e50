import TypePages.Message.Layout
import TypePages.Number.Rounded

/-!
Numbers in template fields.

The code of a layout chooses the base of an integer, or with how many digits and in which way a
number is rounded.  The digits before the point may be set off in groups, and a layout that pads
with zeros between sign and digits groups these zeros too.
-/

namespace TypePages.Template

/-- The mark in front of a number that is or is not negative. -/
def Layout.signOf (l : Layout) (negative : Bool) : List Char :=
  if negative then ['-']
  else match l.sign with
    | some '-' | none => []
    | some c => [c]

/-- Digits in groups, counted from the right. -/
def groupDigits (size : Nat) (separator : Char) (digits : List Char) : List Char :=
  (digits.reverse.zipIdx.flatMap fun (c, i) =>
    if i ≠ 0 ∧ i % size = 0 then [separator, c] else [c]).reverse

/-- Digits in the groups of a layout, with as many zeros in front as fill the room; the zeros are
grouped too, and no separator comes first. -/
def Layout.group (l : Layout) (size room : Nat) (digits : List Char) : List Char :=
  match l.separator with
  | none => digits
  | some separator =>
    let count := if digits.isEmpty then 0 else room - (room - 1) / (size + 1)
    groupDigits size separator (List.replicate (count - digits.length) '0' ++ digits)

/-- A number in its layout: its sign and a mark, the digits that may be grouped, and what follows.
-/
def Layout.number (l : Layout) (lead : List Char) (size : Nat) (whole rest : List Char) :
    List Char :=
  let zeroed := l.align = '=' ∧ l.fill = '0'
  let room := if zeroed then l.width - (lead.length + rest.length) else 0
  let body := l.group size room whole ++ rest
  let missing := l.width - (lead.length + body.length)
  if l.align = '=' then lead ++ List.replicate missing l.fill ++ body else l.pad (lead ++ body)

/-! ### Floating-point numbers -/

/-- The quantity of a number as the code of a layout asks for it.  By default it has as many digits
as read back, or the given number of significant ones. -/
def Layout.written (l : Layout) (x : Binary64) : Binary64.Written :=
  match if l.code = '%' then x.percent else x with
  | .undefined => { whole := [], rest := ['n', 'a', 'n'] }
  | .infinite _ => { whole := [], rest := ['i', 'n', 'f'] }
  | .finite _ m e =>
    let (num, den) := Binary64.fraction m e
    let places := l.precision.getD 6
    if l.code = 'f' ∨ l.code = 'F' ∨ l.code = '%' then Binary64.fixed l.alternate places num den
    else if l.code = 'e' ∨ l.code = 'E' then Binary64.scientific l.alternate places num den
    else if l.code ≠ '\x00' then Binary64.general ⟨l.alternate, false⟩ (max 1 places) num den
    else match l.precision with
      | some count => Binary64.general ⟨l.alternate, true⟩ (max 1 count) num den
      | none =>
        let text := Binary64.quantityText m e
        let rest := text.dropWhile (·.isDigit)
        { whole := text.takeWhile (·.isDigit)
          rest := if l.alternate && !rest.contains '.' then '.' :: rest else rest }

/-- Whether no digit but zero is written. -/
def isZeroText (w : Binary64.Written) : Bool :=
  (w.whole ++ w.rest.takeWhile (· != 'e')).all fun c => c == '0' || c == '.'

/-- A floating-point number in a layout. -/
def Layout.real (l : Layout) (x : Binary64) : List Char :=
  let w := l.written x
  let negative := x.isNegative && !(l.zeroCoercion && isZeroText w)
  let rest := if l.code = '%' then w.rest ++ ['%'] else w.rest
  l.number (l.signOf negative) 3 w.whole
    (if l.code.isUpper then rest.map (·.toUpper) else rest)

/-- The codes that round a number. -/
def roundingCodes : List Char := ['e', 'E', 'f', 'F', 'g', 'G', '%']

/-- The codes of floating-point numbers, the last of which stands for none. -/
def realCodes : List Char := roundingCodes ++ ['n', '\x00']

/-- The greatest number of digits that may be asked for. -/
def maxPrecision : Nat := 2147483647

/-- A floating-point number in its layout. -/
def layReal (spec : List Char) (x : Binary64) : Except TemplateFault (List Char) := do
  let l ← scanLayout .real '>' '\x00' spec
  if !realCodes.contains l.code then throw (.unknownCode l.code .real)
  if maxPrecision < l.precision.getD 0 then throw .precisionTooBig
  return l.real x

/-! ### Integers -/

/-- The base that a code of integers stands for, and the mark in front of its digits. -/
def baseOf? (code : Char) : Option (Nat × List Char) :=
  if code = 'd' ∨ code = 'n' then some (10, [])
  else if code = 'b' then some (2, ['0', 'b'])
  else if code = 'o' then some (8, ['0', 'o'])
  else if code = 'x' then some (16, ['0', 'x'])
  else if code = 'X' then some (16, ['0', 'X'])
  else none

/-- The character of a code point. -/
def characterOf (n : Int) : Except TemplateFault Char :=
  if n < -Nat.pow 2 63 ∨ Nat.pow 2 63 ≤ n then .error .codeTooWide
  else if n < 0 ∨ 0x110000 ≤ n then .error .codeOutOfRange else .ok (Char.ofNat n.toNat)

/-- An integer in a layout that shows it as a character. -/
def Layout.character (l : Layout) (n : Int) : Except TemplateFault (List Char) := do
  if l.sign.isSome then throw .signWithCharacter
  if l.alternate then throw .alternateWithCharacter
  return l.number [] 3 [] [← characterOf n]

/-- An integer in a layout that shows it in a base. -/
def Layout.integer (l : Layout) (base : Nat) (mark : List Char) (n : Int) : List Char :=
  let digits := Nat.toDigits base n.natAbs
  let digits := if l.code = 'X' then digits.map (·.toUpper) else digits
  let lead := l.signOf (n < 0) ++ (if l.alternate then mark else [])
  l.number lead (if base = 10 then 3 else 4) digits []

/-- An integer in a layout of floating-point numbers. -/
def Layout.integerAsReal (l : Layout) (n : Int) : Except TemplateFault (List Char) :=
  match Binary64.ofDecimal (n < 0) n.natAbs 0 with
  | .infinite _ => .error .integerTooLarge
  | x => if maxPrecision < l.precision.getD 0 then .error .precisionTooBig else .ok (l.real x)

/-- An integer in its layout. -/
def layInt (form : Value.Form) (spec : List Char) (n : Int) : Except TemplateFault (List Char) := do
  let l ← scanLayout form '>' 'd' spec
  if roundingCodes.contains l.code then l.integerAsReal n
  else if l.code ≠ 'c' ∧ (baseOf? l.code).isNone then throw (.unknownCode l.code form)
  else
    if l.precision.isSome then throw .precisionNotAllowed
    if l.zeroCoercion then throw (.zeroCoercionNotAllowed false)
    match baseOf? l.code with
    | some (base, mark) => return l.integer base mark n
    | none => l.character n

end TypePages.Template
