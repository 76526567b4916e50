import TypePages.Text.Basic
import TypePages.Value.Read

/-!
Markdown tables.

A table has a line of headers, a line that rules it off, and a line for each row.  A cell holds one
line of text in which a vertical bar is escaped, so that it closes no cell.
-/

namespace TypePages.Markdown

/-- The text of a cell: its words on one line, with bars escaped. -/
def cellChars (cs : List Char) : List Char := Chars.replace '|' ['\\', '|'] (Chars.collapse cs)

/-- The text of a cell. -/
def cell (text : String) : String := .ofList (cellChars text.toList)

/-- A line of cells. -/
def line (cells : List String) : String := "| " ++ Text.join " | " cells ++ " |"

/-- The line under a number of headers. -/
def rule (columns : Nat) : String := "|" ++ Text.join "|" (List.replicate columns "---") ++ "|"

/-- A table; without rows there is none. -/
def table (headers : List String) (rows : List (List String)) : String :=
  if rows.isEmpty then ""
  else Text.join "\n" (line headers :: rule headers.length :: rows.map fun r => line (r.map cell))

/-! ### Tables of values -/

/-- The texts among parts to be joined, the first of which has the given position. -/
def textsFrom (position : Nat) : List Value → Except Fault (List String)
  | [] => .ok []
  | .text s :: rest => do return s :: (← textsFrom (position + 1) rest)
  | v :: _ => .error (.partNotText position v.form)

/-- The texts of a value that holds parts to be joined. -/
def textsOf (v : Value) : Except Fault (List String) :=
  match v.items with
  | .ok items => textsFrom 0 items
  | .error _ => .error .notJoinable

/-- The texts of the cells of a row. -/
def cellsOf (row : Value) : Except Fault (List String) := do
  (← row.items).mapM fun
    | .text s => .ok s
    | v => .error (.noAttribute v.form "split")

/-- The table of headers and rows that are values. -/
def tableOf (headers rows : Value) : Except Fault String := do
  if !rows.isGiven then return ""
  let headers ← textsOf headers
  return table headers (← (← rows.items).mapM cellsOf)

end TypePages.Markdown
