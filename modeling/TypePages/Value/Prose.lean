import TypePages.Text.Basic
import TypePages.Value.Display

/-!
The plain text of a value.

A field that should hold prose may hold a list of lines, a number or nothing.  Its plain text joins
the non-empty trimmed texts of its leaves by newlines; a leaf is anything but a list, so the
grouping of lines into nested lists makes no difference.
-/

namespace TypePages.Value

/-- The trimmed text of a value that is not a list; nothing for null. -/
def leafText : Value → String
  | .null => ""
  | .text s => Text.trim s
  | v => Text.trim v.display

mutual

/-- The plain text of a value. -/
def prose : Value → String
  | .list items => Text.join "\n" ((proseItems items).filter (· ≠ ""))
  | .scalar s => leafText (.scalar s)
  | .mapping entries => leafText (.mapping entries)

/-- The plain texts of the items of a list. -/
def proseItems : List Value → List String
  | [] => []
  | x :: xs => x.prose :: proseItems xs

end

mutual

/-- The leaves of a value, in depth-first order. -/
def leaves : Value → List Value
  | .list items => leavesOfItems items
  | .scalar s => [.scalar s]
  | .mapping entries => [.mapping entries]

/-- The leaves of the items of a list. -/
def leavesOfItems : List Value → List Value
  | [] => []
  | x :: xs => x.leaves ++ leavesOfItems xs

end

end TypePages.Value
