import TypePages.Number.Shortest

/-!
The decimal text of a floating-point number with a chosen number of digits.

The number is rounded once, from its exact value, to the nearest decimal with that many digits; a
half goes to the even digit.  The text comes in two parts, the digits before the point and all that
follows them, because a layout may still group the former.
-/

namespace TypePages.Binary64

/-- The text of a number without its sign. -/
structure Written where
  whole : List Char
  rest : List Char := []
  deriving DecidableEq

/-- Numerator and denominator of `m * 2 ^ e`. -/
def fraction (m : Nat) (e : Int) : Nat × Nat := scale m 1 (-e)

/-- A point and the digits after it; without digits the point stands only if it is to be kept. -/
def pointed (keepPoint : Bool) (digits : List Char) : List Char :=
  if digits.isEmpty ∧ !keepPoint then [] else '.' :: digits

/-- A fraction with a number of digits after the point. -/
def fixed (keepPoint : Bool) (places num den : Nat) : Written :=
  let digits := Nat.toDigits 10 (roundDiv (num * Nat.pow 10 places) den)
  let digits := List.replicate (places + 1 - digits.length) '0' ++ digits
  let size := digits.length - places
  { whole := digits.take size, rest := pointed keepPoint (digits.drop size) }

/-- The first `count` digits of a fraction, and the power of ten that the first of them counts. -/
def significant (count num den : Nat) : List Char × Int :=
  if num = 0 then (List.replicate count '0', 0)
  else
    let power := magnitude num den - 1
    let shift := (count : Int) - 1 - power
    let n := roundDiv (num * Nat.pow 10 shift.toNat) (den * Nat.pow 10 (-shift).toNat)
    if n = Nat.pow 10 count then (Nat.toDigits 10 (n / 10), power + 1)
    else (Nat.toDigits 10 n, power)

/-- A fraction as a digit, a number of digits after the point, and a power of ten. -/
def scientific (keepPoint : Bool) (places num den : Nat) : Written :=
  let (digits, power) := significant (places + 1) num den
  { whole := digits.take 1, rest := pointed keepPoint (digits.drop 1) ++ exponentText power }

/-- How a fraction is written with a number of significant digits. -/
structure GeneralStyle where
  /-- Whether zeros at the end of the digits stay. -/
  keepZeros : Bool
  /-- Whether a text without exponent shows a digit after the point in any case. -/
  keepPlace : Bool

/-- Digits without zeros at their end. -/
def dropZeros (digits : List Char) : List Char := Chars.dropWhileEnd (· == '0') digits

/-- A fraction with a number of significant digits: positional where the digits reach the point and
the number is not too small, else with a power of ten. -/
def general (style : GeneralStyle) (count num den : Nat) : Written :=
  let (digits, power) := significant count num den
  let kept (digits : List Char) := if style.keepZeros then digits else dropZeros digits
  let limit : Int := if style.keepPlace then (count : Int) - 1 else count
  if -4 ≤ power ∧ power < limit then
    let digits := List.replicate (-power).toNat '0' ++ digits
    let size := power.toNat + 1
    let part := kept (digits.drop size)
    { whole := digits.take size
      rest := if part.isEmpty && style.keepPlace && !style.keepZeros then ['.', '0']
        else pointed style.keepZeros part }
  else
    { whole := digits.take 1
      rest := pointed style.keepZeros (kept (digits.drop 1)) ++ exponentText power }

/-- The number with a hundredfold quantity. -/
def percent : Binary64 → Binary64
  | .finite negative m e =>
    if m = 0 then .finite negative m e
    else
      let (num, den) := fraction m e
      ofFraction negative (100 * num) den
  | x => x

/-- Whether a number is written with a sign in front. -/
def isNegative : Binary64 → Bool
  | .finite negative _ _ => negative
  | .infinite negative => negative
  | .undefined => false

end TypePages.Binary64
