import TypePages.Proofs.Lines
import TypePages.Yaml.Document

/-!
What dropping the header line does to the rest of a metadata file.

The rest is cut into lines and put together again with newlines, so whatever ended a line in it is
spelled as a newline afterwards (`stripHeaderChars_eq`).  Nothing else is lost but newlines at the
start and one at the end.  The rest is therefore kept just in case it spells all its line ends as
newlines already, and a text with another separator is not the text that stood behind the header.
-/

namespace TypePages.Yaml

open Chars (IsLine Unified UpToNewline joined lines respelled)

variable {header body : List Char}

theorem stripHeaderChars_eq (hstart : headerStart <+: header) (hline : IsLine header)
    (body : List Char) : stripHeaderChars (header ++ '\n' :: body) =
      (joined (lines body)).dropWhile (· == '\n') := by
  obtain ⟨name, hname⟩ := hstart
  have hopens : (Chars.afterStart? headerStart header).isSome = true := by
    rw [Chars.afterStart?_eq_some_iff.mpr hname.symm]
    rfl
  rw [stripHeaderChars, Chars.lines_line_append hline]
  simp only [hopens, if_true]
  rfl

/-- What is left of a text when something is dropped from its start and a newline at its end spells
its line ends as the text does. -/
theorem unified_of_upToNewline {whole rest : List Char} (hwhole : UpToNewline whole (respelled body))
    (hrest : rest <:+ whole) (hbody : UpToNewline rest body) : Unified body := by
  have hunified : Unified rest := by
    intro c hc
    refine Chars.unified_respelled body c ?_
    rcases hwhole with heq | heq
    · rw [heq]
      exact hrest.subset hc
    · rw [heq]
      exact List.mem_append_left _ (hrest.subset hc)
  rcases hbody with heq | heq
  · rwa [heq]
  · rw [heq]
    exact hunified.append_newline fun c hc => absurd hc List.not_mem_nil

/-- A text that does not begin with a newline keeps its start. -/
theorem dropWhile_of_upToNewline {whole : List Char} (hfirst : body.head? ≠ some '\n')
    (h : UpToNewline whole body) : whole.dropWhile (· == '\n') = whole := by
  cases whole with
  | nil => rfl
  | cons c whole =>
      have hhead : body.head? = some c := by
        rcases h with heq | heq
        · rw [heq, List.head?_cons]
        · rw [heq, List.cons_append, List.head?_cons]
      refine List.dropWhile_cons_of_neg fun hc => hfirst ?_
      rw [hhead, beq_iff_eq.mp hc]

/-- **Behind a header, every line end is spelled as a newline.**  The text is kept, up to a newline at
its end, exactly when it has no other line end. -/
theorem stripHeader_keeps_iff {header body : String} (hstart : headerStart <+: header.toList)
    (hline : IsLine header.toList) (hreturn : '\r' ∉ body.toList)
    (hfirst : body.toList.head? ≠ some '\n') :
    (∃ whole, UpToNewline whole (respelled body.toList) ∧
      (stripHeader (header ++ "\n" ++ body)).toList = whole.dropWhile (· == '\n')) ∧
    (UpToNewline (stripHeader (header ++ "\n" ++ body)).toList body.toList ↔
      Unified body.toList) := by
  have hwhole := Chars.upToNewline_joined_lines hreturn
  have hstripped : (stripHeader (header ++ "\n" ++ body)).toList =
      (joined (lines body.toList)).dropWhile (· == '\n') := by
    rw [stripHeader, String.toList_ofList, ← stripHeaderChars_eq hstart hline]
    simp
  refine ⟨⟨_, hwhole, hstripped⟩, ?_⟩
  rw [hstripped]
  constructor
  · exact unified_of_upToNewline hwhole (List.dropWhile_suffix _)
  · intro hunified
    rw [hunified.respelled_eq] at hwhole
    rwa [dropWhile_of_upToNewline hfirst hwhole]

/-- The line that opens metadata files. -/
def metadataHeader : String := "### YamlMime:ManagedReference"

/-- Three lines, and a newline at the end that is lost. -/
theorem stripHeader_keeps_widget :
    headerStart <+: metadataHeader.toList ∧ IsLine metadataHeader.toList ∧
    stripHeader (metadataHeader ++ "\n" ++ "items:\n- uid: Widget\n  name: Widget\n") =
      "items:\n- uid: Widget\n  name: Widget" ∧
    UpToNewline (stripHeader (metadataHeader ++ "\n" ++
      "items:\n- uid: Widget\n  name: Widget\n")).toList
      "items:\n- uid: Widget\n  name: Widget\n".toList := by
  have hstart : headerStart <+: metadataHeader.toList := ⟨"ManagedReference".toList, rfl⟩
  have hline : IsLine metadataHeader.toList := by decide
  obtain ⟨-, hkeeps⟩ := stripHeader_keeps_iff hstart hline
    (by decide : '\r' ∉ "items:\n- uid: Widget\n  name: Widget\n".toList) (by decide)
  exact ⟨hstart, hline, by decide, hkeeps.mpr (by decide)⟩

/-- A line separator in a name is a newline behind a header, and itself without one. -/
theorem separator_respelled :
    headerStart <+: metadataHeader.toList ∧ IsLine metadataHeader.toList ∧
    '\r' ∉ "name: 'two\u2028lines'".toList ∧
    stripHeader (metadataHeader ++ "\n" ++ "name: 'two\u2028lines'") = "name: 'two\nlines'" ∧
    ¬UpToNewline (stripHeader (metadataHeader ++ "\n" ++ "name: 'two\u2028lines'")).toList
      "name: 'two\u2028lines'".toList ∧
    stripHeader "name: 'two\u2028lines'" = "name: 'two\u2028lines'" := by
  refine ⟨⟨"ManagedReference".toList, rfl⟩, by decide, by decide, by decide, by decide, by decide⟩

end TypePages.Yaml
