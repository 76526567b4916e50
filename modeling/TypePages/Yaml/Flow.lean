import TypePages.Value.Display
import TypePages.Yaml.Mark

/-!
Scalars that flow over lines: quoted texts and plain ones.

A line break in such a scalar is folded: with the blanks around it, it counts as one space, unless
empty lines follow, which then count as they are.
-/

namespace TypePages.Yaml.Flow

open Marks

/-! ### Folding -/

/-- What a line break and the empty lines after it stand for. -/
def fold (first : Char) (breaks : List Char) : List Char :=
  if breakChar first != '\n' then breakChar first :: breaks
  else if breaks.isEmpty then [' ']
  else breaks

/-- The breaks of the empty lines that come next; none of the lines may start or end a document. -/
def quotedBreaks? : Nat → Marks → Option (List Char × Marks)
  | 0, _ => none
  | n + 1, ms =>
    if isDocumentRule ms then none
    else
      let (_, ms) := take (fun c => c == ' ' || c == '\t') ms
      if isBreak (peek ms) then do
        let (breaks, rest) ← quotedBreaks? n ms.tail
        return (breakChar (peek ms) :: breaks, rest)
      else some ([], ms)

/-- The blanks that come next in a quoted text, folded if a line is broken. -/
def quotedBlanks? (ms : Marks) : Option (List Char × Marks) :=
  let (blanks, ms) := take (fun c => c == ' ' || c == '\t') ms
  if isBreak (peek ms) then do
    let (breaks, rest) ← quotedBreaks? ms.length ms.tail
    return (fold (peek ms) breaks, rest)
  else some (blanks, ms)

/-! ### Quoted texts -/

/-- The characters that a backslash and a letter stand for. -/
def escapes : List (Char × Nat) :=
  [('0', 0x00), ('a', 0x07), ('b', 0x08), ('t', 0x09), ('\t', 0x09), ('n', 0x0A), ('v', 0x0B),
    ('f', 0x0C), ('r', 0x0D), ('e', 0x1B), (' ', 0x20), ('"', 0x22), ('\\', 0x5C), ('/', 0x2F),
    ('N', 0x85), ('_', 0xA0), ('L', 0x2028), ('P', 0x2029)]

/-- The letters that announce a code point, with the number of its digits. -/
def codeEscapes : List (Char × Nat) := [('x', 2), ('u', 4), ('U', 8)]

/-- The value of a digit in base sixteen. -/
def hexValue? (c : Char) : Option Nat :=
  if c.isDigit then some (c.toNat - '0'.toNat)
  else if 'a' ≤ c ∧ c ≤ 'f' then some (c.toNat - 'a'.toNat + 10)
  else if 'A' ≤ c ∧ c ≤ 'F' then some (c.toNat - 'A'.toNat + 10)
  else none

/-- The character of a code point with the given number of digits. -/
def codePoint? (size : Nat) (ms : Marks) : Option (Char × Marks) := do
  let digits ← (List.take size ms).mapM fun m => hexValue? m.char
  let n := digits.foldl (fun n d => 16 * n + d) 0
  if digits.length = size ∧ n.isValidChar then return (Char.ofNat n, List.drop size ms) else none

/-- What stands behind a backslash. -/
def escape? (ms : Marks) : Option (List Char × Marks) :=
  let c := peek ms
  match escapes.lookup c, codeEscapes.lookup c with
  | some n, _ => some ([Char.ofNat n], ms.tail)
  | none, some size => (codePoint? size ms.tail).map fun (c, rest) => ([c], rest)
  | none, none => if isBreak c then quotedBreaks? ms.length ms.tail else none

/-- A piece of a quoted text, which ends with `none`. -/
def quotedPiece? (double : Bool) (ms : Marks) : Option (Option (List Char) × Marks) :=
  let c := peek ms
  if c == endChar then none
  else if c == ' ' || c == '\t' || isBreak c then
    (quotedBlanks? ms).map fun (cs, rest) => (some cs, rest)
  else if double then
    if c == '"' then some (none, ms.tail)
    else if c == '\\' then (escape? ms.tail).map fun (cs, rest) => (some cs, rest)
    else some (some [c], ms.tail)
  else if c == '\'' then
    if peekSecond ms == '\'' then some (some [c], ms.tail.tail) else some (none, ms.tail)
  else some (some [c], ms.tail)

/-- The rest of a quoted text, of which at most as many pieces as given are read. -/
def quotedWithin? (double : Bool) : Nat → Marks → Option (List Char × Marks)
  | 0, _ => none
  | n + 1, ms => do
    match ← quotedPiece? double ms with
    | (none, rest) => return ([], rest)
    | (some cs, rest) =>
      let (text, rest) ← quotedWithin? double n rest
      return (cs ++ text, rest)

/-- The text whose opening quote has been read. -/
def quoted? (double : Bool) (ms : Marks) : Option (List Char × Marks) :=
  quotedWithin? double (ms.length + 1) ms

/-! ### Plain texts -/

/-- Whether a plain text ends before a character that another one follows.  Inside brackets commas
and brackets end it too. -/
def endsPlain (inBrackets : Bool) (c next : Char) : Bool :=
  isGap c
    || (c == ':' && (isGap next || (inBrackets && [',', '[', ']', '\x7b', '\x7d'].contains next)))
    || (inBrackets && [',', '?', '[', ']', '\x7b', '\x7d'].contains c)

/-- The characters of a plain text up to the next gap or end. -/
def plainWord (inBrackets : Bool) : Marks → List Char × Marks
  | [] => ([], [])
  | m :: ms =>
    if endsPlain inBrackets m.char (peek ms) then ([], m :: ms)
    else
      let (word, rest) := plainWord inBrackets ms
      (m.char :: word, rest)

/-- The breaks of empty lines in a plain text; nothing if a document starts or ends. -/
def plainBreaks? : Nat → Marks → Option (List Char) × Marks
  | 0, ms => (none, ms)
  | n + 1, ms =>
    if isDocumentRule ms then (none, ms)
    else
      let (_, ms) := take (· == ' ') ms
      if isBreak (peek ms) then
        let (breaks, rest) := plainBreaks? n ms.tail
        (breaks.map (breakChar (peek ms) :: ·), rest)
      else (some [], ms)

/-- The spaces that come next in a plain text, folded if a line is broken, and whether one is. -/
def plainBlanks (ms : Marks) : List Char × Bool × Marks :=
  let (blanks, ms) := take (· == ' ') ms
  if isBreak (peek ms) then
    match plainBreaks? ms.length ms.tail with
    | (some breaks, rest) => (fold (peek ms) breaks, true, rest)
    | (none, rest) => ([], true, rest)
  else (blanks, false, ms)

/-- A plain text after the given blanks, of which at most as many words as given are read; and
whether a line is broken behind its last word. -/
def plainWithin (inBrackets : Bool) (indentation : Int) :
    Nat → Bool → List Char → Marks → List Char × Bool × Marks
  | 0, broke, _, ms => ([], broke, ms)
  | n + 1, broke, blanks, ms =>
    if peek ms == '#' then ([], broke, ms)
    else
      match plainWord inBrackets ms with
      | ([], _) => ([], broke, ms)
      | (word, rest) =>
        let (following, broke, rest) := plainBlanks rest
        if following.isEmpty || peek rest == '#'
            || (!inBrackets && (column rest : Int) < indentation) then
          (blanks ++ word, broke, rest)
        else
          let (text, broke, rest) := plainWithin inBrackets indentation n broke following rest
          (blanks ++ word ++ text, broke, rest)

/-- The plain text that starts here, inside a collection of the given indentation. -/
def plain (inBrackets : Bool) (outer : Int) (ms : Marks) : List Char × Bool × Marks :=
  plainWithin inBrackets (outer + 1) ms.length false [] ms

end TypePages.Yaml.Flow
