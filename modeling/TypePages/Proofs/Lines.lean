import TypePages.Proofs.Trimmed

/-!
Texts whose lines end in newlines.

A text may end its lines in ten ways, but what is put together from lines is joined by newlines, and
such a text is `Unified`.  Its lines are then those that it was put together from, as long as it
does not end in a newline, which the last line would lose.  A trimmed text never does, so it is the
same to speak of the text or of its lines.
-/

namespace TypePages.Chars

open Text (isBlank isLineEnd)

variable {c : Char} {cs l xs ys : List Char} {ls : List (List Char)}

/-- Lines with a newline between neighbours. -/
def joined (ls : List (List Char)) : List Char := ['\n'].intercalate ls

/-- No character of the text ends a line. -/
def IsLine (l : List Char) : Prop := ∀ c ∈ l, isLineEnd c = false

-- All characters of the list are looked at, not all characters that there are.
instance (l : List Char) : Decidable (IsLine l) :=
  List.decidableBAll (fun c => isLineEnd c = false) l

theorem IsLine.append (hx : IsLine xs) (hy : IsLine ys) : IsLine (xs ++ ys) := fun c hc =>
  (List.mem_append.mp hc).elim (hx c) (hy c)

/-- No line of the text ends in anything but a newline. -/
def Unified (cs : List Char) : Prop := ∀ c ∈ cs, isLineEnd c = true → c = '\n'

instance (cs : List Char) : Decidable (Unified cs) :=
  List.decidableBAll (fun c => isLineEnd c = true → c = '\n') cs

theorem IsLine.unified (h : IsLine l) : Unified l := fun c hc hend => by
  rw [h c hc] at hend
  cases hend

theorem Unified.append_newline (hx : Unified xs) (hy : Unified ys) :
    Unified (xs ++ '\n' :: ys) := by
  intro c hc hend
  rcases List.mem_append.mp hc with hc | hc
  · exact hx c hc hend
  · rcases List.mem_cons.mp hc with rfl | hc
    · rfl
    · exact hy c hc hend

theorem joined_cons_cons (l l' : List Char) (ls : List (List Char)) :
    joined (l :: l' :: ls) = l ++ '\n' :: joined (l' :: ls) := by
  rw [joined, List.intercalate_cons_cons, List.append_assoc]
  rfl

theorem joined_cons (h : ls ≠ []) (l : List Char) : joined (l :: ls) = l ++ '\n' :: joined ls := by
  obtain ⟨l', ls, rfl⟩ := List.exists_cons_of_ne_nil h
  exact joined_cons_cons l l' ls

theorem joined_singleton (l : List Char) : joined [l] = l := List.intercalate_singleton

/-! ### Lines of a text -/

/-- A line end in front of a text, unless it goes with a newline there, makes an empty line. -/
theorem lines_of_isLineEnd (h : isLineEnd c = true)
    (hpair : ∀ rest, c = '\r' → cs = '\n' :: rest → False) : lines (c :: cs) = [] :: lines cs := by
  rw [lines, if_pos h]
  exact hpair

theorem lines_newline (cs : List Char) : lines ('\n' :: cs) = [] :: lines cs :=
  lines_of_isLineEnd (by decide) fun _ heq _ => absurd heq (by decide)

/-- A character that ends no line is put before the first line. -/
theorem lines_cons (h : isLineEnd c = false) (cs : List Char) :
    lines (c :: cs) = (c :: (lines cs).headD []) :: (lines cs).tail := by
  rw [lines, if_neg (by simp [h])]
  · cases lines cs <;> rfl
  · rintro cs' rfl
    cases h

theorem lines_ne_nil (h : cs ≠ []) : lines cs ≠ [] := by
  fun_cases lines cs with
  | case1 => exact absurd rfl h
  | case2 => exact List.cons_ne_nil _ _
  | case3 => exact List.cons_ne_nil _ _
  | case4 => exact List.cons_ne_nil _ _
  | case5 => exact List.cons_ne_nil _ _

/-- What a text is cut into at its line ends holds none. -/
theorem isLine_of_mem_lines (h : l ∈ lines cs) : IsLine l := by
  fun_induction lines cs generalizing l with
  | case1 => cases h
  | case2 cs ih =>
      rcases List.mem_cons.mp h with rfl | h
      · exact fun c hc => absurd hc List.not_mem_nil
      · exact ih h
  | case3 c cs _ _ ih =>
      rcases List.mem_cons.mp h with rfl | h
      · exact fun c hc => absurd hc List.not_mem_nil
      · exact ih h
  | case4 c cs _ hc hnil =>
      rw [List.mem_singleton.mp h]
      exact fun d hd => List.mem_singleton.mp hd ▸ Bool.not_eq_true _ ▸ hc
  | case5 c cs _ hc l' ls hlines ih =>
      rcases List.mem_cons.mp h with rfl | h
      · intro d hd
        rcases List.mem_cons.mp hd with rfl | hd
        · exact Bool.not_eq_true _ ▸ hc
        · exact ih (hlines ▸ List.mem_cons_self) d hd
      · exact ih (hlines ▸ List.mem_cons_of_mem _ h)

/-- A text with a newline for every character that ends a line. -/
def respelled (cs : List Char) : List Char := cs.map fun c => if isLineEnd c then '\n' else c

theorem unified_respelled (cs : List Char) : Unified (respelled cs) := by
  intro c hc hend
  obtain ⟨d, -, rfl⟩ := List.mem_map.mp hc
  by_cases hd : isLineEnd d = true
  · exact if_pos hd
  · rw [if_neg hd] at hend
    exact absurd hend hd

theorem Unified.respelled_eq (h : Unified cs) : respelled cs = cs := by
  refine (List.map_congr_left fun c hc => ?_).trans (List.map_id cs)
  by_cases hend : isLineEnd c = true
  · rw [if_pos hend, h c hc hend, id]
  · rw [if_neg hend, id]

/-- The second text is the first one, or has one newline more at its end. -/
def UpToNewline (xs ys : List Char) : Prop := ys = xs ∨ ys = xs ++ ['\n']

instance (xs ys : List Char) : Decidable (UpToNewline xs ys) :=
  inferInstanceAs (Decidable (ys = xs ∨ ys = xs ++ ['\n']))

theorem UpToNewline.cons (h : UpToNewline xs ys) (c : Char) : UpToNewline (c :: xs) (c :: ys) :=
  h.imp (congrArg (c :: ·)) (congrArg (c :: ·))

theorem joined_cons_line (c : Char) (l : List Char) (ls : List (List Char)) :
    joined ((c :: l) :: ls) = c :: joined (l :: ls) := by
  cases ls with
  | nil => rw [joined_singleton, joined_singleton]
  | cons l' ls => rw [joined_cons_cons, joined_cons_cons, List.cons_append]

/-- The lines of a text put together again are the text, with all its line ends spelled alike, but
for one at its end. -/
theorem upToNewline_joined_lines (h : '\r' ∉ cs) : UpToNewline (joined (lines cs)) (respelled cs) := by
  induction cs with
  | nil => exact .inl rfl
  | cons c cs ih =>
      rw [List.mem_cons, not_or] at h
      obtain ⟨hc, hcs⟩ := h
      by_cases hend : isLineEnd c = true
      · have hspelled : respelled (c :: cs) = '\n' :: respelled cs := by
          rw [respelled, List.map_cons, if_pos hend, respelled]
        rw [lines_of_isLineEnd hend fun _ heq _ => hc heq.symm, hspelled]
        by_cases hnil : cs = []
        · rw [hnil]
          exact .inr rfl
        · rw [joined_cons (lines_ne_nil hnil), List.nil_append]
          exact (ih hcs).cons '\n'
      · have hspelled : respelled (c :: cs) = c :: respelled cs := by
          rw [respelled, List.map_cons, if_neg hend, respelled]
        rw [lines_cons (by simpa using hend), joined_cons_line, hspelled]
        by_cases hnil : cs = []
        · rw [hnil]
          exact .inl rfl
        · obtain ⟨l, ls, hlines⟩ := List.exists_cons_of_ne_nil (lines_ne_nil hnil)
          have ih := ih hcs
          rw [hlines] at ih ⊢
          exact ih.cons c

/-- The lines of a text put together again are the text, if it does not end in a newline. -/
theorem joined_lines (h : Unified cs) (hlast : cs.getLast? ≠ some '\n') :
    joined (lines cs) = cs := by
  have hreturn : '\r' ∉ cs := fun hmem => absurd (h '\r' hmem rfl) (by decide)
  rcases upToNewline_joined_lines hreturn with hsame | hclosed
  · rw [← hsame, h.respelled_eq]
  · rw [h.respelled_eq] at hclosed
    rw [hclosed, List.getLast?_concat] at hlast
    exact absurd rfl hlast

/-! ### Lines of a joined text -/

/-- A newline behind a line ends it. -/
theorem lines_line_append (h : IsLine l) (cs : List Char) :
    lines (l ++ '\n' :: cs) = l :: lines cs := by
  induction l with
  | nil => exact lines_newline cs
  | cons c l ih =>
      rw [List.cons_append, lines_cons (h c List.mem_cons_self),
        ih fun d hd => h d (List.mem_cons_of_mem _ hd)]
      rfl

theorem lines_joined_append (h : ∀ l ∈ ls, IsLine l) (hne : ls ≠ []) (cs : List Char) :
    lines (joined ls ++ '\n' :: cs) = ls ++ lines cs := by
  induction ls with
  | nil => exact absurd rfl hne
  | cons l ls ih =>
      have hl : IsLine l := h l List.mem_cons_self
      cases ls with
      | nil =>
          rw [joined_singleton]
          exact lines_line_append hl cs
      | cons l' ls =>
          rw [joined_cons_cons, List.append_assoc, List.cons_append, lines_line_append hl,
            ih (fun x hx => h x (List.mem_cons_of_mem _ hx)) (List.cons_ne_nil l' ls)]
          rfl

/-- A newline behind a text that does not end in one divides the lines. -/
theorem lines_append_newline (h : Unified xs) (hne : xs ≠ []) (hlast : xs.getLast? ≠ some '\n')
    (ys : List Char) : lines (xs ++ '\n' :: ys) = lines xs ++ lines ys := by
  have hsplit := lines_joined_append (fun l hl => isLine_of_mem_lines hl) (lines_ne_nil hne) ys
  rwa [joined_lines h hlast] at hsplit

/-- What stands on one line in front of a text stands in front of its first line. -/
theorem lines_isLine_append (h : IsLine l) (hne : l ≠ []) (cs : List Char) :
    lines (l ++ cs) = (l ++ (lines cs).headD []) :: (lines cs).tail := by
  induction l with
  | nil => exact absurd rfl hne
  | cons c l ih =>
      rw [List.cons_append, lines_cons (h c List.mem_cons_self)]
      cases l with
      | nil => rfl
      | cons d l =>
          rw [ih (fun x hx => h x (List.mem_cons_of_mem _ hx)) (List.cons_ne_nil d l)]
          rfl

theorem lines_of_isLine (h : IsLine l) (hne : l ≠ []) : lines l = [l] := by
  have happend := lines_isLine_append h hne []
  rwa [List.append_nil, lines_nil, List.headD_nil, List.append_nil] at happend

/-- Lines that are joined are found again, unless the last one is empty. -/
theorem lines_joined (h : ∀ l ∈ ls, IsLine l) (hlast : ls.getLast? ≠ some []) :
    lines (joined ls) = ls := by
  induction ls with
  | nil => rfl
  | cons l ls ih =>
      have hl : IsLine l := h l List.mem_cons_self
      cases ls with
      | nil =>
          have hne : l ≠ [] := fun hnil => hlast (by rw [hnil, List.getLast?_singleton])
          rw [joined_singleton, lines_of_isLine hl hne]
      | cons l' ls =>
          rw [joined_cons_cons, lines_line_append hl,
            ih (fun x hx => h x (List.mem_cons_of_mem _ hx))
              (by rwa [List.getLast?_cons_cons] at hlast)]

/-! ### Lines that are trimmed -/

theorem Tight.getLast?_ne (h : Tight cs) : cs.getLast? ≠ some '\n' := by
  intro hlast
  cases h.last _ hlast

theorem IsLine.trim (h : IsLine l) : IsLine (trim l) := fun c hc => h c (mem_of_mem_trim hc)

end TypePages.Chars
