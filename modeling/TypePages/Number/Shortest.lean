import TypePages.Number.Binary64
import TypePages.Text.Chars

/-!
The shortest decimal text of a floating-point number.

The decimals that read back as a number form an interval around it, whose ends belong to it exactly
when the significand is even.  For one digit, two digits and so on, the two decimals next to the
number are tried; the first grid with a decimal in the interval gives the digits, and of two the
nearer one is taken.  Seventeen digits always suffice.
-/

namespace TypePages.Binary64

/-- The fractions from which and up to which decimals read back as `m * 2 ^ e`, as numerators over
the common denominator, with the number itself in between. -/
structure Interval where
  low : Nat
  value : Nat
  high : Nat
  den : Nat
  closed : Bool

/-- The interval of a positive number. -/
def interval (m : Nat) (e : Int) : Interval :=
  let f := e - 2
  let up := Nat.pow 2 f.toNat
  let low := if m = Nat.pow 2 52 ∧ minExponent < e then 4 * m - 1 else 4 * m - 2
  { low := low * up, value := 4 * m * up, high := (4 * m + 2) * up
    den := Nat.pow 2 (-f).toNat, closed := m % 2 = 0 }

/-- Whether `c * 10 ^ p` lies in the interval. -/
def Interval.holds (i : Interval) (c : Nat) (p : Int) : Bool :=
  let x := c * Nat.pow 10 p.toNat * i.den
  let s := Nat.pow 10 (-p).toNat
  if i.closed then i.low * s ≤ x && x ≤ i.high * s else i.low * s < x && x < i.high * s

/-- The number of digits before the point, or minus the number of zeros right after it. -/
def magnitude (num den : Nat) : Int :=
  if den ≤ num then (Nat.toDigits 10 (num / den)).length
  else match (List.range 400).find? fun k => den ≤ num * Nat.pow 10 (k + 1) with
    | some k => -(k : Int)
    | none => 0

/-- The decimal of the grid `10 ^ p` that reads back and is nearest to the number. -/
def Interval.onGrid? (i : Interval) (p : Int) : Option Nat :=
  let num := i.value * Nat.pow 10 (-p).toNat
  let den := i.den * Nat.pow 10 p.toNat
  let below := num / den
  let rest := num % den
  match i.holds below p, i.holds (below + 1) p with
  | true, false => some below
  | false, true => some (below + 1)
  | false, false => none
  | true, true =>
    if 2 * rest < den then some below
    else if den < 2 * rest then some (below + 1)
    else if below % 2 = 0 then some below else some (below + 1)

/-- Digits and power of ten of the shortest decimal that reads back. -/
def shortest (m : Nat) (e : Int) : Nat × Int :=
  let i := interval m e
  let size := magnitude i.value i.den
  let found := (List.range 17).findSome? fun (k : Nat) =>
    let p := size - ((k : Int) + 1)
    (i.onGrid? p).map (·, p)
  found.getD (m, e)

/-- A power of ten behind a number, signed and with at least two digits. -/
def exponentText (power : Int) : List Char :=
  let size := Nat.toDigits 10 power.natAbs
  let shown := if size.length < 2 then '0' :: size else size
  'e' :: (if power < 0 then '-' else '+') :: shown

/-- How numbers are written: positional below `10 ^ 16` and from `10 ^ -4` on, always with a point;
otherwise with a power of ten. -/
def digitsText (digits : List Char) (point : Int) : List Char :=
  if -4 < point ∧ point ≤ 16 then
    if point ≤ 0 then '0' :: '.' :: (List.replicate (-point).toNat '0' ++ digits)
    else
      let whole := digits.take point.toNat ++ List.replicate (point.toNat - digits.length) '0'
      let part := digits.drop point.toNat
      whole ++ '.' :: (if part.isEmpty then ['0'] else part)
  else
    let lead := digits.take 1 ++ (if digits.length ≤ 1 then [] else '.' :: digits.drop 1)
    lead ++ exponentText (point - 1)

/-- The text of a quantity `m * 2 ^ e`. -/
def quantityText (m : Nat) (e : Int) : List Char :=
  if m = 0 then ['0', '.', '0']
  else
    let (c, p) := shortest m e
    let digits := Nat.toDigits 10 c
    digitsText (Chars.dropWhileEnd (· == '0') digits) (digits.length + p)

/-- The text of a number. -/
def toText : Binary64 → String
  | .undefined => "nan"
  | .infinite negative => if negative then "-inf" else "inf"
  | .finite negative m e =>
    .ofList (if negative then '-' :: quantityText m e else quantityText m e)

end TypePages.Binary64
