import TypePages.Proofs.Lines
import TypePages.Summary.Row

/-!
Reading the text of a table back.

A cell holds whatever a name or a comment does, so bars and line ends have to be kept from it.  Its
words are put on one line, and a backslash stands in front of each of its bars; in front of a bar
that closes a cell there is always a space.  So a reader who cuts a row at the bars that have no
backslash in front finds the cells (`readRow_line`), and as no line of a table has a line end of its
own, each row is one line (`lines_table`).

What is said of a text that was written as a table is therefore said of its lines: `ReadsAs`.
-/

namespace TypePages

namespace Text

theorem join_eq (separator : String) (parts : List String) :
    join separator parts = separator.intercalate parts := by
  rw [join, ← String.toList_intercalate, String.ofList_toList]

end Text

namespace Chars

open Text (isBlank isLineEnd)

variable {c : Char} {cs l : List Char}

/-! ### Words on one line -/

theorem isLine_of_notBlank (h : ∀ c ∈ cs, isBlank c = false ∨ c = ' ') : IsLine cs := by
  intro c hc
  by_contra hend
  rcases h c hc with hblank | rfl
  · rw [Text.isBlank_of_isLineEnd (by simpa using hend)] at hblank
    cases hblank
  · exact hend rfl

theorem isLine_collapse (cs : List Char) : IsLine (collapse cs) := by
  refine isLine_of_notBlank fun c hc => ?_
  rcases mem_intercalate hc with hc | ⟨word, hword, hc⟩
  · exact .inr (List.mem_singleton.mp hc)
  · exact .inl (isBlank_of_mem_words hword hc)

/-- The spaces around a tight text are trimmed. -/
theorem Tight.trim_spaced (h : Tight cs) : trim (' ' :: (cs ++ [' '])) = cs := by
  rw [trim_cons_of_blank rfl, trim_concat_of_blank rfl, h.trim_eq]

/-! ### Escaped bars -/

/-- A text with a backslash in front of each bar. -/
def escapeBars (cs : List Char) : List Char := replace '|' ['\\', '|'] cs

theorem escapeBars_cons (c : Char) (cs : List Char) :
    escapeBars (c :: cs) = (if c = '|' then ['\\', '|'] else [c]) ++ escapeBars cs := by
  unfold escapeBars replace
  rw [List.flatMap_cons]
  simp only [beq_iff_eq]

theorem escapeBars_append (cs ds : List Char) :
    escapeBars (cs ++ ds) = escapeBars cs ++ escapeBars ds :=
  List.flatMap_append

theorem mem_escapeBars (h : c ∈ escapeBars cs) : c = '\\' ∨ c ∈ cs := by
  obtain ⟨x, hx, hc⟩ := List.mem_flatMap.mp h
  split at hc
  next hbar =>
    rcases List.mem_pair.mp hc with rfl | rfl
    · exact .inl rfl
    · exact .inr (beq_iff_eq.mp hbar ▸ hx)
  · exact .inr (List.mem_singleton.mp hc ▸ hx)

theorem isLine_escapeBars (h : IsLine cs) : IsLine (escapeBars cs) := by
  intro c hc
  rcases mem_escapeBars hc with rfl | hc
  · rfl
  · exact h c hc

theorem tight_escapeBars (h : Tight cs) : Tight (escapeBars cs) := by
  refine ⟨fun c hc => ?_, fun c hc => ?_⟩
  · cases cs with
    | nil => cases hc
    | cons x cs =>
        rw [escapeBars_cons] at hc
        split at hc
        · cases hc
          rfl
        · exact h.head c hc
  · cases cs using List.reverseRecOn with
    | nil => cases hc
    | append_singleton cs x =>
        rw [escapeBars_append, escapeBars_cons] at hc
        have hx := h.last x List.getLast?_concat
        split at hc
        · have hbar : c = '|' := by simpa [escapeBars, replace] using hc.symm
          rw [hbar]
          rfl
        · have hself : c = x := by simpa [escapeBars, replace] using hc.symm
          rw [hself]
          exact hx

end Chars

namespace Markdown

open Chars (IsLine escapeBars)

variable {c : Char} {cs : List Char} {headers : List String} {rows : List (List String)}

/-! ### A reader of rows -/

/-- The parts of a text between the bars that have no backslash right in front.  It is told whether
there is one in front of the text. -/
def partsFrom (escaped : Bool) : List Char → List (List Char)
  | [] => [[]]
  | c :: cs =>
    if c = '|' ∧ escaped = false then [] :: partsFrom false cs
    else (partsFrom (c == '\\') cs).modifyHead (c :: ·)

/-- A text with a bar for each bar behind a backslash. -/
def unescape : List Char → List Char
  | '\\' :: '|' :: cs => '|' :: unescape cs
  | c :: cs => c :: unescape cs
  | [] => []

/-- The cells that a row of a table is read as: the parts between its bars, but for those outside of
the first and the last one. -/
def readRow (line : String) : List String :=
  (partsFrom false line.toList).tail.dropLast.map fun part => .ofList (unescape (Chars.trim part))

theorem unescape_cons (h : cs.head? ≠ some '|') (c : Char) :
    unescape (c :: cs) = c :: unescape cs := by
  rw [unescape.eq_def]
  split
  next heq =>
    obtain ⟨-, rfl⟩ := List.cons.inj heq
    exact absurd rfl h
  next heq =>
    obtain ⟨rfl, rfl⟩ := List.cons.inj heq
    rfl
  next heq => cases heq

/-- With its bars escaped, a text starts with none. -/
theorem head?_escapeBars (cs : List Char) : (escapeBars cs).head? ≠ some '|' := by
  cases cs with
  | nil => simp [escapeBars, Chars.replace]
  | cons c cs =>
      rw [Chars.escapeBars_cons]
      split
      · simp
      next hne => simpa using hne

/-- What is escaped is read as it was. -/
theorem unescape_escapeBars (cs : List Char) : unescape (escapeBars cs) = cs := by
  induction cs with
  | nil => rfl
  | cons c cs ih =>
      rw [Chars.escapeBars_cons]
      split
      next hbar =>
        show '|' :: unescape (escapeBars cs) = c :: cs
        rw [ih, hbar]
      · rw [List.singleton_append, unescape_cons (head?_escapeBars cs), ih]

/-- An escaped text is cut where the bar behind it closes its cell, whatever it ends in. -/
theorem partsFrom_escapeBars (escaped : Bool) (cs rest : List Char) :
    partsFrom escaped (escapeBars cs ++ ' ' :: '|' :: rest) =
      (escapeBars cs ++ [' ']) :: partsFrom false rest := by
  -- Behind a backslash of the text the reader goes on as if it were to escape a bar, but neither
  -- the rest of the text nor the space that ends it starts with one.
  induction cs generalizing escaped with
  | nil => rfl
  | cons c cs ih =>
      rw [Chars.escapeBars_cons]
      split
      · show ((partsFrom false (escapeBars cs ++ ' ' :: '|' :: rest)).modifyHead
          ('|' :: ·)).modifyHead ('\\' :: ·) = _
        rw [ih]
        rfl
      next hne =>
        rw [List.singleton_append, List.cons_append, partsFrom, if_neg fun hbar => hne hbar.1, ih]
        rfl

/-! ### Cells of a line -/

/-- Counted to the cell in front of it, each separator ends a cell. -/
theorem cons_flatMap_separator (s : String) (cells : List String) :
    ' ' :: (s.toList ++ cells.flatMap (" | ".toList ++ ·.toList) ++ " |".toList) =
      (s :: cells).flatMap fun s => ' ' :: (s.toList ++ [' ', '|']) := by
  induction cells generalizing s with
  | nil => simp
  | cons s' cells ih =>
      rw [List.flatMap_cons, List.flatMap_cons, ← ih]
      simp

theorem toList_line {cells : List String} (h : cells ≠ []) : (line cells).toList =
    '|' :: cells.flatMap fun s => ' ' :: (s.toList ++ [' ', '|']) := by
  obtain ⟨s, cells, rfl⟩ := List.exists_cons_of_ne_nil h
  rw [← cons_flatMap_separator, line, String.toList_append, String.toList_append, Text.join,
    List.map_cons, Chars.intercalate_cons, List.flatMap_map]
  simp only [String.toList_ofList]
  rfl

/-- Behind a bar that ends no cell, the parts of a line of cells are the cells with their spaces,
and what stands behind the last bar. -/
theorem partsFrom_cells (cells : List (List Char)) :
    partsFrom false (cells.flatMap fun cs => ' ' :: (escapeBars cs ++ [' ', '|'])) =
      cells.map (fun cs => ' ' :: (escapeBars cs ++ [' '])) ++ [[]] := by
  induction cells with
  | nil => rfl
  | cons cs cells ih =>
      have hcut := partsFrom_escapeBars false cs
        (cells.flatMap fun cs => ' ' :: (escapeBars cs ++ [' ', '|']))
      rw [ih] at hcut
      rw [List.flatMap_cons, List.cons_append, List.append_assoc, partsFrom,
        if_neg fun hbar => absurd hbar.1 (by decide)]
      exact congrArg (List.modifyHead (' ' :: ·)) hcut

theorem toList_line_cell {cells : List String} (h : cells ≠ []) : (line (cells.map cell)).toList =
    '|' :: (cells.map fun s => Chars.collapse s.toList).flatMap
      fun cs => ' ' :: (escapeBars cs ++ [' ', '|']) := by
  rw [toList_line (by simpa using h), List.flatMap_map, List.flatMap_map]
  simp only [cell, String.toList_ofList]
  rfl

/-- **A row is read as its cells**, each with its words on one line. -/
theorem readRow_line {cells : List String} (h : cells ≠ []) :
    readRow (line (cells.map cell)) = cells.map Text.collapse := by
  rw [readRow, toList_line_cell h, partsFrom, if_pos ⟨rfl, rfl⟩, partsFrom_cells, List.tail_cons,
    List.dropLast_concat, List.map_map, List.map_map]
  refine List.map_congr_left fun s _ => ?_
  have htight := Chars.tight_escapeBars (Chars.tight_collapse s.toList)
  show String.ofList (unescape (Chars.trim (' ' :: (_ ++ [' '])))) = _
  rw [htight.trim_spaced, unescape_escapeBars]
  rfl

example : readRow "| a\\|b |  | \\ |" = ["a|b", "", "\\"] := by decide +kernel

/-! ### The lines of a table -/

theorem isLine_join {separator : String} {parts : List String}
    (hseparator : IsLine separator.toList) (h : ∀ s ∈ parts, IsLine s.toList) :
    IsLine (Text.join separator parts).toList := by
  intro c hc
  rw [Text.join, String.toList_ofList] at hc
  rcases Chars.mem_intercalate hc with hc | ⟨part, hpart, hc⟩
  · exact hseparator c hc
  · obtain ⟨s, hs, rfl⟩ := List.mem_map.mp hpart
    exact h s hs c hc

theorem isLine_line {cells : List String} (h : ∀ s ∈ cells, IsLine s.toList) :
    IsLine (line cells).toList := by
  rw [line, String.toList_append, String.toList_append]
  have hcells := isLine_join (by decide +kernel : IsLine " | ".toList) h
  exact ((by decide +kernel : IsLine "| ".toList).append hcells).append (by decide +kernel)

theorem isLine_rule (columns : Nat) : IsLine (rule columns).toList := by
  have hdashes : ∀ s ∈ List.replicate columns "---", IsLine s.toList := fun s hs => by
    rw [List.eq_of_mem_replicate hs]
    decide +kernel
  have hbar : IsLine "|".toList := by decide +kernel
  rw [rule, String.toList_append, String.toList_append]
  exact (hbar.append (isLine_join hbar hdashes)).append hbar

theorem isLine_cell (s : String) : IsLine (cell s).toList := by
  rw [cell, String.toList_ofList]
  exact Chars.isLine_escapeBars (Chars.isLine_collapse _)

/-- The lines that a table is joined from. -/
def tableLines (headers : List String) (rows : List (List String)) : List String :=
  line headers :: rule headers.length :: rows.map fun r => line (r.map cell)

theorem mem_tableLines {s : String} (h : s ∈ tableLines headers rows) :
    s = line headers ∨ s = rule headers.length ∨ ∃ r ∈ rows, s = line (r.map cell) := by
  rcases List.mem_cons.mp h with rfl | h
  · exact .inl rfl
  · rcases List.mem_cons.mp h with rfl | h
    · exact .inr (.inl rfl)
    · obtain ⟨r, hr, rfl⟩ := List.mem_map.mp h
      exact .inr (.inr ⟨r, hr, rfl⟩)

/-- No line of a table has a line end of its own, and none is empty. -/
theorem isLine_of_mem_tableLines (hheaders : ∀ s ∈ headers, IsLine s.toList) {s : String}
    (h : s ∈ tableLines headers rows) : IsLine s.toList ∧ s.toList ≠ [] := by
  rcases mem_tableLines h with rfl | rfl | ⟨r, -, rfl⟩
  · exact ⟨isLine_line hheaders, by simp [line]⟩
  · exact ⟨isLine_rule _, by simp [rule]⟩
  · refine ⟨isLine_line fun s hs => ?_, by simp [line]⟩
    obtain ⟨text, -, rfl⟩ := List.mem_map.mp hs
    exact isLine_cell text

theorem toList_table (hrows : rows ≠ []) : (table headers rows).toList =
    Chars.joined ((tableLines headers rows).map (·.toList)) := by
  rw [table, if_neg (by simpa [List.isEmpty_iff] using hrows), Text.join, String.toList_ofList]
  rfl

/-- **Each row of a table is one line**, whatever its cells hold. -/
theorem lines_table (hheaders : ∀ s ∈ headers, IsLine s.toList) (hrows : rows ≠ []) :
    Text.lines (table headers rows) = tableLines headers rows ∧
      Text.splitAt '\n' (table headers rows) = tableLines headers rows := by
  have hlines : ∀ l ∈ (tableLines headers rows).map (·.toList), IsLine l ∧ l ≠ [] := by
    intro l hl
    obtain ⟨s, hs, rfl⟩ := List.mem_map.mp hl
    exact isLine_of_mem_tableLines hheaders hs
  have hback : ((tableLines headers rows).map (·.toList)).map .ofList =
      tableLines headers rows := by
    rw [List.map_map]
    exact (List.map_congr_left fun s _ => String.ofList_toList).trans (List.map_id _)
  constructor
  · rw [Text.lines, toList_table hrows, Chars.lines_joined (fun l hl => (hlines l hl).1)
      fun hlast => (hlines [] (List.mem_of_getLast? hlast)).2 rfl, hback]
  · rw [Text.splitAt, toList_table hrows, Chars.joined, List.splitOn_intercalate, hback]
    · intro l hl hmem
      exact absurd ((hlines l hl).1 '\n' hmem) (by decide)
    · exact List.cons_ne_nil _ _

/-- A text is read as a table: a line of headers, one that rules them off, lines for rows that waited
before, and then a line for each row, which is read as its cells. -/
def ReadsAs (headers : List String) (waiting : Nat) (rows : List (List String)) (text : String) :
    Prop :=
  ∃ before lines, Text.lines text =
      ("| " ++ " | ".intercalate headers ++ " |") ::
        ("|" ++ "|".intercalate (List.replicate headers.length "---") ++ "|") ::
          (before ++ lines) ∧
    before.length = waiting ∧ lines.map readRow = rows.map (·.map Text.collapse)

theorem readsAs_table {waiting : List (List String)} (hheaders : ∀ s ∈ headers, IsLine s.toList)
    (hne : waiting ++ rows ≠ []) (hcells : ∀ r ∈ rows, r ≠ []) :
    ReadsAs headers waiting.length rows (table headers (waiting ++ rows)) := by
  refine ⟨waiting.map fun r => line (r.map cell), rows.map fun r => line (r.map cell), ?_,
    List.length_map _, ?_⟩
  · rw [(lines_table hheaders hne).1, tableLines, line, rule, Text.join_eq, Text.join_eq,
      List.map_append]
  · rw [List.map_map]
    exact List.map_congr_left fun r hr => readRow_line (hcells r hr)

theorem ReadsAs.length_lines {waiting : Nat} {text : String} (h : ReadsAs headers waiting rows text) :
    (Text.lines text).length = 2 + (waiting + rows.length) := by
  obtain ⟨before, lines, htext, hbefore, hread⟩ := h
  have hlines : lines.length = rows.length := by
    rw [← List.length_map readRow, hread, List.length_map]
  rw [htext, List.length_cons, List.length_cons, List.length_append, hbefore, hlines]
  omega

/-- Behind the lines that waited before, the lines of the text are read as the rows. -/
theorem ReadsAs.map_readRow {waiting : Nat} {text : String}
    (h : ReadsAs headers waiting rows text) :
    ((Text.lines text).drop (2 + waiting)).map readRow = rows.map (·.map Text.collapse) := by
  obtain ⟨before, lines, htext, rfl, hread⟩ := h
  rw [htext, ← List.drop_drop, List.drop_succ_cons, List.drop_succ_cons, List.drop_zero,
    List.drop_left, hread]

end Markdown

namespace Member.Kind

theorem length_headers (k : Member.Kind) : k.headers.length = if k.hasTypeColumn then 3 else 2 := by
  cases k <;> rfl

theorem isLine_headers (k : Member.Kind) : ∀ s ∈ k.headers, Chars.IsLine s.toList := by
  cases k <;> decide +kernel

end Member.Kind

end TypePages
