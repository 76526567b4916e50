import TypePages.Proofs.TableText
import TypePages.Proofs.WaitingRows

/-!
The tables of a page have as many columns as headers, whatever calls have been refused before.

A row is put with the rows of its kind only, and so with a cell for each header of the kind.  This is
kept by every call (`Fits`), and a table that takes the rows reads as it was put together.
-/

namespace TypePages

namespace Builder

open Work
open Chars (IsLine)
open Markdown (readRow)

variable {b : Builder} {k : Member.Kind} {d d' : Draft} {groups : List RowGroup}

/-- Every row that waits has as many cells as its kind has headers. -/
def Fits (rows : Member.Kind → List Row) : Prop :=
  ∀ k, ∀ row ∈ rows k, row.length = k.headers.length

theorem stable_fits (b : Builder) (k : Member.Kind) : b.Stable k Fits where
  put := by
    intro o e sentence row rows hrow hfits k' row' hmem
    dsimp only at hmem
    split at hmem
    next hk =>
      rw [List.mem_append, List.mem_singleton] at hmem
      rcases hmem with hmem | rfl
      · exact hfits k' row' (hk ▸ hmem)
      · exact hk ▸ (isRow_of_rowOf hrow).length_eq
    · exact hfits k' row' hmem
  take := by
    intro rows hfits k' row' hmem
    dsimp only at hmem
    split at hmem
    · exact absurd hmem List.not_mem_nil
    · exact hfits k' row' hmem

theorem Called.fits (h : b.Called d) : Fits d.rows :=
  h.rows (stable_fits b) fun _ _ hmem => absurd hmem List.not_mem_nil

/-- A table that shows a group: it has a row for each member, and in each row, as it was put in and
as it is read, a cell for each header. -/
def IsTableOf (g : RowGroup) (text : String) : Prop :=
  ∃ rows, text = Markdown.table g.kind.headers rows ∧ g.members.length ≤ rows.length ∧
    (∀ row ∈ rows, row.length = g.kind.headers.length) ∧
    ∀ line ∈ (Text.lines text).drop 2, (readRow line).length = g.kind.headers.length

theorem length_readRow_of_mem {rows : List Row}
    (hrows : ∀ row ∈ rows, row.length = k.headers.length) {line : String}
    (h : line ∈ (Text.lines (Markdown.table k.headers rows)).drop 2) :
    (readRow line).length = k.headers.length := by
  by_cases hnone : rows = []
  · rw [hnone] at h
    cases h
  · rw [(Markdown.lines_table k.isLine_headers hnone).1] at h
    obtain ⟨row, hrow, rfl⟩ := List.mem_map.mp h
    have hne : row ≠ [] := by
      rintro rfl
      have hlength := hrows [] hrow
      rw [k.length_headers] at hlength
      split at hlength <;> cases hlength
    rw [Markdown.readRow_line hne, List.length_map, hrows row hrow]

theorem isTableOf_table {g : RowGroup} {rows : List Row} (hmembers : g.members.length ≤ rows.length)
    (hrows : ∀ row ∈ rows, row.length = g.kind.headers.length) :
    IsTableOf g (Markdown.table g.kind.headers rows) :=
  ⟨rows, rfl, hmembers, hrows, fun _ => length_readRow_of_mem hrows⟩

/-- After the steps for own members, what waits for the table fits and has a row for each. -/
theorem fits_of_memberSteps {es : List Element} {records : List Record} (hd : Fits d.rows)
    (h : Each (b.memberStep k) es d records d') : Fits d'.rows := by
  have hkeeps : Keeps (fun d => Fits d.rows) (es.mapM (b.memberStep k)) :=
    keeps_mapM fun e _ => (stable_fits b k).keeps_memberStep e
  exact after_of_returns (returns_mapM_iff.mpr h) ▸ hkeeps d hd

theorem isTableOf_of_addSection {inherited : Bool} (hd : b.Called d)
    (h : (b.addSection k inherited).Returns d groups d') :
    ∃ lines, d'.tree = d.tree ++ lines ∧
      ∀ g ∈ groups, g.isInherited = false → ∃ text ∈ lines, IsTableOf g text := by
  obtain ⟨lines, htree, ⟨-, hinherited⟩ |
    ⟨heading, own, text, others, rest, d₁, -, rfl, hown, -, rfl, hothers⟩⟩ := text_of_addSection h
  · refine ⟨lines, htree, fun g hg hown => ?_⟩
    rw [hinherited g hg] at hown
    cases hown
  · refine ⟨_, htree, fun g hg hnot => ?_⟩
    rcases List.mem_cons.mp hg with rfl | hg
    · refine ⟨text, List.mem_append_right _ List.mem_cons_self, ?_⟩
      rcases returns_ownGroup_iff.mp hown with ⟨-, hnil, -⟩ | ⟨-, records, d₂, hrecords, heq, -⟩
      · cases hnil
      · obtain ⟨rfl, rfl⟩ := Prod.mk.inj (List.singleton_inj.mp heq)
        refine isTableOf_table ?_ (fits_of_memberSteps hd.fits hrecords k)
        rw [length_rows_of_memberSteps hrecords]
        exact Nat.le_add_left _ _
    · rw [hothers g hg] at hnot
      cases hnot

theorem isTableOf_of_build (hd : b.Called d) (h : b.build.Returns d groups d') :
    ∃ lines, d'.tree = d.tree ++ lines ∧
      ∀ g ∈ groups, g.isInherited = false → ∃ text ∈ lines, IsTableOf g text :=
  lines_of_build (fun hd hreturns => ⟨after_of_returns hreturns ▸ hd.call _ _,
    isTableOf_of_addSection hd hreturns⟩) hd h

/-- **Tables decode to what was put in.**  A table has a line for the headers, one below them, and
one for each row, which is read as the cells of the row, each with its words on one line.  After any
calls, refused or not, the tables of own members that are added to a page have in each row as many
cells as headers. -/
theorem table_decodes :
    (∀ (headers : List String) (rows : List (List String)), (∀ s ∈ headers, IsLine s.toList) →
      rows ≠ [] → (∀ r ∈ rows, r ≠ []) → ∃ header rule lines,
        Text.lines (Markdown.table headers rows) = header :: rule :: lines ∧
        Text.splitAt '\n' (Markdown.table headers rows) = header :: rule :: lines ∧
        (Text.lines (Markdown.table headers rows)).length = 2 + rows.length ∧
        lines.map readRow = rows.map (·.map Text.collapse)) ∧
    ∀ (b : Builder) (d : Draft), b.Called d →
      (∀ k inherited groups d', (b.addSection k inherited).Returns d groups d' →
        ∃ lines, d'.tree = d.tree ++ lines ∧
          ∀ g ∈ groups, g.isInherited = false → ∃ text ∈ lines, IsTableOf g text) ∧
      ∀ groups d', b.build.Returns d groups d' →
        ∃ lines, d'.tree = d.tree ++ lines ∧
          ∀ g ∈ groups, g.isInherited = false → ∃ text ∈ lines, IsTableOf g text := by
  constructor
  · intro headers rows hheaders hrows hcells
    obtain ⟨hlines, hsplit⟩ := Markdown.lines_table hheaders hrows
    refine ⟨_, _, _, hlines, hsplit, ?_, ?_⟩
    · rw [hlines, Markdown.tableLines, List.length_cons, List.length_cons, List.length_map]
      omega
    · rw [List.map_map]
      exact List.map_congr_left fun r hr => Markdown.readRow_line (hcells r hr)
  · exact fun b d hd => ⟨fun k inherited groups d' => isTableOf_of_addSection hd,
      fun groups d' => isTableOf_of_build hd⟩

/-- Bars, backslashes and line ends in cells, and the table of the fields of points. -/
theorem table_decodes_point :
    (∃ header rule lines,
      Text.lines (Markdown.table ["Field", "Description"]
        [["a|b", "\\|\\"], ["|", " x\u2028y \n"], ["", "\\"]]) = header :: rule :: lines ∧
      lines.map readRow = [["a|b", "\\|\\"], ["|", "x y"], ["", "\\"]]) ∧
    ∃ groups d', pointBuilder.build.Returns {} groups d' ∧
      ∃ g ∈ groups, g.kind = .fields ∧ ∃ text ∈ d'.tree, IsTableOf g text := by
  constructor
  · obtain ⟨header, rule, lines, hlines, -, -, hread⟩ :=
      table_decodes.1 ["Field", "Description"]
        [["a|b", "\\|\\"], ["|", " x\u2028y \n"], ["", "\\"]] (by decide +kernel)
        (List.cons_ne_nil _ _) (by decide)
    refine ⟨header, rule, lines, hlines, hread.trans ?_⟩
    decide +kernel
  · have hgroups : (pointBuilder.build.run.run {}).run.1.toOption.map
        (List.map fun g => (g.kind, g.isInherited)) =
          some [(.fields, false), (.methods, true)] := by decide +kernel
    obtain ⟨groups, d', hbuild, hgroups⟩ := exists_returns hgroups
    obtain ⟨lines, htree, hall⟩ := (table_decodes.2 pointBuilder {} (.start rfl)).2 groups d' hbuild
    obtain ⟨g, hg, hkind⟩ : ∃ g ∈ groups, (g.kind, g.isInherited) = (.fields, false) :=
      List.mem_map.mp (hgroups ▸ List.mem_cons_self)
    rw [Prod.mk.injEq] at hkind
    obtain ⟨text, htext, htable⟩ := hall g hg hkind.2
    exact ⟨groups, d', hbuild, g, hg, hkind.1, text, by rw [htree]; exact htext, htable⟩

end Builder

end TypePages
