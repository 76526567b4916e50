import TypePages.Yaml.Mark

/-!
Block scalars: texts whose lines are set off by their indentation.

A literal block keeps its line breaks.  A folded one turns a break between two lines that start with
text into a space.  The break after the last line is kept once, dropped, or kept with all empty
lines after it, as the header says.
-/

namespace TypePages.Yaml

/-- What becomes of the line breaks at the end of a block. -/
inductive Chomping
  | clip
  | strip
  | keep
  deriving DecidableEq

/-- The header of a block: what becomes of the breaks at its end, and its indentation if it says. -/
structure BlockHeader where
  chomping : Chomping := .clip
  indentation : Option Nat := none

namespace Block

open Marks

/-- The chomping that a sign stands for. -/
def chompingOf? (c : Char) : Option Chomping :=
  if c == '+' then some .keep else if c == '-' then some .strip else none

/-- The indentation that a digit stands for. -/
def indentationOf? (c : Char) : Option Nat :=
  if c.isDigit && c != '0' then some (c.toNat - '0'.toNat) else none

/-- The header of a block, whose two parts may come in either order. -/
def scanHeader : Marks → BlockHeader × Marks
  | [] => ({}, [])
  | m :: ms =>
    match chompingOf? m.char with
    | some chomping =>
      match indentationOf? (peek ms) with
      | some n => ({ chomping, indentation := some n }, ms.tail)
      | none => ({ chomping }, ms)
    | none =>
      match indentationOf? m.char with
      | some n =>
        match chompingOf? (peek ms) with
        | some chomping => ({ chomping, indentation := some n }, ms.tail)
        | none => ({ indentation := some n }, ms)
      | none => ({}, m :: ms)

/-- Drops the rest of the header's line, on which only a comment may stand. -/
def endHeader? (ms : Marks) : Option Marks := do
  guard (peek ms == ' ' || isLineClose (peek ms))
  let (_, ms) := take (· == ' ') ms
  let (_, ms) := if peek ms == '#' then take (!isLineClose ·) ms else ([], ms)
  if isBreak (peek ms) then some ms.tail
  else if peek ms == endChar then some ms
  else none

/-- The line breaks of empty lines, each of which may have up to the given number of spaces. -/
def scanBreaks (indentation : Nat) : Marks → List Char × Marks
  | [] => ([], [])
  | m :: ms =>
    if m.char == ' ' && m.column < indentation then scanBreaks indentation ms
    else if isBreak m.char then
      let (breaks, rest) := scanBreaks indentation ms
      (breakChar m.char :: breaks, rest)
    else ([], m :: ms)

/-- The line breaks of empty lines before the first text, and the column up to which spaces go. -/
def scanIndentation (deepest : Nat) : Marks → List Char × Nat × Marks
  | [] => ([], deepest, [])
  | m :: ms =>
    if m.char == ' ' then scanIndentation (max deepest (m.column + 1)) ms
    else if isBreak m.char then
      let (breaks, deepest, rest) := scanIndentation deepest ms
      (breakChar m.char :: breaks, deepest, rest)
    else ([], deepest, m :: ms)

/-- What has been read of a block: its text, the break after its last line, and the breaks of the
empty lines after that. -/
structure Lines where
  text : List Char
  lastBreak : List Char
  breaks : List Char
  rest : Marks

/-- The line break that comes next. -/
def takeBreak (ms : Marks) : List Char × Marks :=
  if isBreak (peek ms) then ([breakChar (peek ms)], ms.tail) else ([], ms)

/-- Whether a line starts with text. -/
def startsWithText (ms : Marks) : Bool := peek ms != ' ' && peek ms != '\t'

/-- The lines of a block, of which at most as many as given are read. -/
def scanLines (folded : Bool) (indentation : Nat) : Nat → List Char → Marks → Lines
  | 0, breaks, ms => ⟨[], [], breaks, ms⟩
  | n + 1, breaks, ms =>
    if column ms == indentation && peek ms != endChar then
      let (text, after) := take (!isLineClose ·) ms
      let (lastBreak, after) := takeBreak after
      let (following, after) := scanBreaks indentation after
      if column after == indentation && peek after != endChar then
        let joint :=
          if folded && lastBreak == ['\n'] && startsWithText ms && startsWithText after then
            if following.isEmpty then [' '] else []
          else lastBreak
        let l := scanLines folded indentation n following after
        { l with text := breaks ++ text ++ joint ++ l.text }
      else ⟨breaks ++ text, lastBreak, following, after⟩
    else ⟨[], [], breaks, ms⟩

/-- The text of a block whose mark has been read, inside a collection of the given indentation. -/
def scan? (folded : Bool) (outer : Int) (ms : Marks) : Option (List Char × Marks) := do
  let (header, ms) := scanHeader ms
  let ms ← endHeader? ms
  let least := max 1 (outer + 1).toNat
  let (breaks, indentation, ms) := match header.indentation with
    | some n =>
      let indentation := least + n - 1
      let (breaks, rest) := scanBreaks indentation ms
      (breaks, indentation, rest)
    | none =>
      let (breaks, deepest, rest) := scanIndentation 0 ms
      (breaks, max least deepest, rest)
  let l := scanLines folded indentation ms.length breaks ms
  let ending := match header.chomping with
    | .strip => []
    | .clip => l.lastBreak
    | .keep => l.lastBreak ++ l.breaks
  return (l.text ++ ending, l.rest)

end Block

end TypePages.Yaml
