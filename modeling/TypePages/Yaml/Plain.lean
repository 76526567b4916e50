import TypePages.Fault
import TypePages.Number.Arithmetic
import TypePages.Value.Basic

/-!
What a plain scalar stands for.

A scalar without quotes may be null, a truth value, an integer in one of five notations or a
floating-point number; anything else is a text.
-/

namespace TypePages.Yaml

/-! ### Numerals -/

/-- The sign of a numeral, and the rest. -/
def takeSign : List Char → Bool × List Char
  | '-' :: cs => (true, cs)
  | '+' :: cs => (false, cs)
  | cs => (false, cs)

/-- An integer with a sign. -/
def signed (negative : Bool) (n : Nat) : Int := if negative then -(n : Int) else n

/-- The value of a digit in bases up to sixteen. -/
def digitValue? (c : Char) : Option Nat :=
  if c.isDigit then some (c.toNat - '0'.toNat)
  else if 'a' ≤ c ∧ c ≤ 'f' then some (c.toNat - 'a'.toNat + 10)
  else if 'A' ≤ c ∧ c ≤ 'F' then some (c.toNat - 'A'.toNat + 10)
  else none

/-- Whether characters are digits of a base or underscores. -/
def areDigits (base : Nat) (cs : List Char) : Bool :=
  cs.all fun c => c == '_' || (digitValue? c).any (· < base)

/-- The number that digits stand for; underscores do not count. -/
def numeral (base : Nat) (cs : List Char) : Nat :=
  cs.foldl (fun n c => match digitValue? c with
    | some d => base * n + d
    | none => n) 0

/-- The number of digits of a numeral. -/
def digitCount (cs : List Char) : Nat := (cs.filter (·.isDigit)).length

/-- Whether a numeral is decimal digits and underscores and starts with a digit. -/
def startsWithDigit (cs : List Char) : Bool := cs.head?.any (·.isDigit) && areDigits 10 cs

/-- Whether characters are a part of a numeral in base sixty: one digit, or two below sixty. -/
def isSixtieth : List Char → Bool
  | [a] => a.isDigit
  | [a, b] => '0' ≤ a && a ≤ '5' && b.isDigit
  | _ => false

/-- The number of decimal digits, of which there may be only so many. -/
def decimalNat (cs : List Char) : Except Fault Nat :=
  if digitLimit < digitCount cs then .error (.numeralTooLong (digitCount cs))
  else .ok (numeral 10 cs)

/-- The number that parts in base sixty stand for. -/
def sixtieths (parts : List (List Char)) : Except Fault Nat := do
  return (← parts.mapM decimalNat).foldl (fun n p => 60 * n + p) 0

/-- The number of digits and underscores of a base.  Without a digit it is refused. -/
def basedNat? (base : Nat) (cs : List Char) : Option (Except Fault Nat) :=
  if cs.isEmpty || !areDigits base cs then none
  else if cs.all (· == '_') then some (.error (.emptyNumeral base))
  else some (.ok (numeral base cs))

/-- The natural number of an integer's digits, if they are that. -/
def natOf? (cs : List Char) : Option (Except Fault Nat) :=
  match cs with
  | ['0'] => some (.ok 0)
  | '0' :: 'b' :: rest => basedNat? 2 rest
  | '0' :: 'x' :: rest => basedNat? 16 rest
  | '0' :: rest => if areDigits 8 rest then some (.ok (numeral 8 rest)) else none
  | _ =>
    match cs.splitOn ':' with
    | [whole] => if startsWithDigit whole then some (decimalNat whole) else none
    | first :: rest =>
      if startsWithDigit first && rest.all isSixtieth then some (sixtieths (first :: rest))
      else none
    | [] => none

/-- The integer of a plain scalar, if it is one. -/
def intOf? (cs : List Char) : Option (Except Fault Int) :=
  let (negative, body) := takeSign cs
  (natOf? body).map fun r => r.map (signed negative)

/-- The power of ten after a floating-point numeral: nothing, or a letter and a signed number. -/
def powerOf? : List Char → Option Int
  | [] => some 0
  | e :: sign :: digits =>
    if (e == 'e' || e == 'E') && (sign == '+' || sign == '-') && !digits.isEmpty
        && digits.all (·.isDigit) then
      some (signed (sign == '-') (numeral 10 digits))
    else none
  | _ => none

/-- The number of digits around a point, with a power of ten. -/
def decimal (negative : Bool) (whole part : List Char) (power : Int) : Binary64 :=
  .ofDecimal negative (numeral 10 (whole ++ part)) (power - digitCount part)

/-- The floating-point number of parts in base sixty, the last part first: each counts `unit` times,
and every product and every sum is rounded. -/
def sumSixtieths (sum : Binary64) (unit : Nat) : List Binary64 → Except Fault Binary64
  | [] => .ok sum
  | x :: xs =>
    match Binary64.ofNat unit with
    | .infinite _ => .error .quantityTooLarge
    | u => sumSixtieths (sum.plus (x.times u)) (60 * unit) xs

/-- The floating-point number of parts in base sixty, the last of which goes on after a point. -/
def realSixtieths (parts : List (List Char)) (part : List Char) : Except Fault Binary64 :=
  let last := decimal false (parts.getLastD []) part 0
  sumSixtieths (.zero false) 1 (last :: parts.dropLast.reverse.map (decimal false · [] 0))

/-- The floating-point number of a numeral with a point, in which `whole` stands before it. -/
def pointed? (signedForm negative : Bool) (whole rest : List Char) :
    Option (Except Fault Binary64) :=
  let part := rest.takeWhile fun c => c.isDigit || c == '_'
  let after := rest.drop part.length
  match whole.splitOn ':' with
  | [[]] =>
    if signedForm || !part.head?.any (·.isDigit) then none
    else (powerOf? after).map fun power => .ok (decimal negative [] part power)
  | [whole] =>
    if startsWithDigit whole then
      (powerOf? after).map fun power => .ok (decimal negative whole part power)
    else none
  | first :: parts =>
    if startsWithDigit first && parts.all isSixtieth && after.isEmpty then
      some ((realSixtieths (first :: parts) part).map (·.withSign negative))
    else none
  | [] => none

/-- The floating-point number of a plain scalar, if it is one. -/
def realOf? (cs : List Char) : Option (Except Fault Binary64) :=
  let (negative, body) := takeSign cs
  let word := String.ofList body
  if word = ".inf" ∨ word = ".Inf" ∨ word = ".INF" then some (.ok (.infinite negative))
  else if [".nan", ".NaN", ".NAN"].contains (String.ofList cs) then some (.ok .undefined)
  else
    let whole := body.takeWhile (· != '.')
    match body.drop whole.length with
    | _ :: rest => pointed? (body.length < cs.length) negative whole rest
    | [] => none

/-! ### Scalars -/

/-- The words for null. -/
def nullWords : List String := ["", "~", "null", "Null", "NULL"]

/-- The words for true. -/
def trueWords : List String := ["yes", "Yes", "YES", "true", "True", "TRUE", "on", "On", "ON"]

/-- The words for false. -/
def falseWords : List String := ["no", "No", "NO", "false", "False", "FALSE", "off", "Off", "OFF"]

/-- The words that are set aside for uses that documents of this kind have none of. -/
def reservedWords : List String := ["=", "<<"]

/-- What a plain scalar stands for. -/
def plainScalar (s : String) : Except Fault Scalar :=
  if reservedWords.contains s then .error .malformed
  else if nullWords.contains s then .ok .null
  else if trueWords.contains s then .ok (.bool true)
  else if falseWords.contains s then .ok (.bool false)
  else match realOf? s.toList with
    | some x => x.map .real
    | none =>
      match intOf? s.toList with
      | some n => n.map .int
      | none => .ok (.text s)

end TypePages.Yaml
