import TypePages.Number.Binary64

/-!
Sums and products of floating-point numbers that are not negative.

The exact result is formed first and rounded once.
-/

namespace TypePages.Binary64

/-- The number nearest to `m * 2 ^ e`. -/
def ofScaled (m : Nat) (e : Int) : Binary64 :=
  if m = 0 then zero false
  else
    let (num, den) := scale m 1 (-e)
    ofFraction false num den

/-- The number nearest to a natural number. -/
def ofNat (n : Nat) : Binary64 := ofScaled n 0

/-- The number without its sign, or with the other one. -/
def withSign (negative : Bool) : Binary64 → Binary64
  | .finite _ m e => .finite negative m e
  | .infinite _ => .infinite negative
  | .undefined => .undefined

/-- The sum of two numbers that are not negative. -/
def plus : Binary64 → Binary64 → Binary64
  | .finite _ m e, .finite _ m' e' =>
    let least := min e e'
    ofScaled (m * Nat.pow 2 (e - least).toNat + m' * Nat.pow 2 (e' - least).toNat) least
  | .undefined, _ | _, .undefined => .undefined
  | _, _ => .infinite false

/-- The product of two numbers that are not negative. -/
def times : Binary64 → Binary64 → Binary64
  | .finite _ m e, .finite _ m' e' => ofScaled (m * m') (e + e')
  | .undefined, _ | _, .undefined => .undefined
  | .finite _ 0 _, _ | _, .finite _ 0 _ => .undefined
  | _, _ => .infinite false

end TypePages.Binary64
