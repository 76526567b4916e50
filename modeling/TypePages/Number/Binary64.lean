/-!
Binary floating-point numbers of 64 bits, as exact data.

A finite number is a sign, a significand and an exponent of two, so equality, rounding and printing
are questions about natural numbers.  A decimal numeral stands for the number nearest to it; of two
equally near ones, for the one with the even significand.
-/

namespace TypePages

/-- A floating-point number: `significand * 2 ^ exponent` with a sign, or a value that is not
finite. -/
inductive Binary64
  | finite (negative : Bool) (significand : Nat) (exponent : Int)
  | infinite (negative : Bool)
  | undefined
  deriving DecidableEq, Inhabited

namespace Binary64

/-- The least exponent, which the numbers near zero share. -/
def minExponent : Int := -1074

/-- The greatest exponent. -/
def maxExponent : Int := 971

/-- Zero with a sign. -/
def zero (negative : Bool) : Binary64 := .finite negative 0 minExponent

/-- The quotient rounded to the nearest natural number, halves to the even one. -/
def roundDiv (num den : Nat) : Nat :=
  let q := num / den
  let r := num % den
  if 2 * r < den then q
  else if den < 2 * r then q + 1
  else if q % 2 = 0 then q else q + 1

/-- Numerator and denominator of `num / den * 2 ^ (- e)`. -/
def scale (num den : Nat) (e : Int) : Nat × Nat :=
  if 0 ≤ e then (num, den * Nat.pow 2 e.toNat) else (num * Nat.pow 2 (-e).toNat, den)

/-- The number nearest to a positive fraction. -/
def ofFraction (negative : Bool) (num den : Nat) : Binary64 :=
  let guess : Int := (num.log2 : Int) - den.log2 - 53
  let (n, d) := scale num den guess
  let e := max (if n / d < Nat.pow 2 53 then guess else guess + 1) minExponent
  let (n, d) := scale num den e
  let m := roundDiv n d
  let (m, e) := if m = Nat.pow 2 53 then (Nat.pow 2 52, e + 1) else (m, e)
  if maxExponent < e then .infinite negative else .finite negative m e

/-- The number that the numeral `digits * 10 ^ power` stands for. -/
def ofDecimal (negative : Bool) (digits : Nat) (power : Int) : Binary64 :=
  let size : Int := (Nat.toDigits 10 digits).length + power
  if digits = 0 ∨ size < -340 then zero negative
  else if 320 < size then .infinite negative
  else if 0 ≤ power then ofFraction negative (digits * Nat.pow 10 power.toNat) 1
  else ofFraction negative digits (Nat.pow 10 (-power).toNat)

/-- Neither positive nor negative zero counts as a quantity. -/
def isZero : Binary64 → Bool
  | .finite _ 0 _ => true
  | _ => false

/-- A significand with its sign. -/
def signed (negative : Bool) (m : Nat) : Int := if negative then -m else m

/-- Equality of quantities: both zeros are equal.  There is one undefined value, which is found
where it is looked for although it stands for no quantity. -/
def equal : Binary64 → Binary64 → Bool
  | .finite s m e, .finite s' m' e' =>
    signed s m * Nat.pow 2 (e - min e e').toNat == signed s' m' * Nat.pow 2 (e' - min e e').toNat
  | .infinite s, .infinite s' => s == s'
  | .undefined, .undefined => true
  | _, _ => false

/-- Equality with an integer. -/
def equalInt : Binary64 → Int → Bool
  | .finite s m e, n =>
    if 0 ≤ e then n == signed s m * Nat.pow 2 e.toNat
    else n * Nat.pow 2 (-e).toNat == signed s m
  | _, _ => false

end Binary64

end TypePages
