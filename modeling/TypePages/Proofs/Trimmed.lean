import TypePages.Proofs.Collapse

/-!
Texts without blanks at their ends.

What has been trimmed is `Tight`: it neither starts nor ends with a blank.  Nothing more is trimmed
off such a text, and tight texts are tight together, whatever stands between them.  A text that is
read from its start needs to be `Flush` only, and nothing is lost of a flush text as a whole.
-/

namespace TypePages.Chars

open Text (isBlank)

variable {c : Char} {cs xs ys : List Char} {ls : List (List Char)}

/-! ### Texts that do not start with a blank -/

/-- A text that does not start with a blank. -/
def Flush (cs : List Char) : Prop := ∀ c rest, cs = c :: rest → isBlank c = false

theorem flush_nil : Flush [] := fun _ _ h => by cases h

theorem flush_cons_iff : Flush (c :: cs) ↔ isBlank c = false :=
  ⟨fun h => h c cs rfl, fun h _ _ heq => (List.cons.inj heq).1 ▸ h⟩

theorem flush_of_prefix {ds : List Char} (h : Flush cs) (hstart : ds <+: cs) : Flush ds := by
  rintro c rest rfl
  obtain ⟨tail, rfl⟩ := hstart
  exact h c (rest ++ tail) rfl

theorem flush_trimStart (cs : List Char) : Flush (trimStart cs) := by
  intro c rest h
  have hne : cs.dropWhile isBlank ≠ [] := fun hnil => by
    rw [trimStart, hnil] at h
    cases h
  have hhead := List.head_dropWhile_not isBlank hne
  have hc : (cs.dropWhile isBlank).head hne = c := by
    simp only [show cs.dropWhile isBlank = c :: rest from h, List.head_cons]
  rwa [hc] at hhead

/-- A trimmed text is flush. -/
theorem flush_trim (cs : List Char) : Flush (trim cs) :=
  flush_of_prefix (flush_trimStart cs) (List.rdropWhile_prefix _ _)

/-- Nothing but blanks is trimmed away, so nothing of a flush text is lost as a whole. -/
theorem Flush.eq_nil_of_trim (h : Flush cs) (htrim : trim cs = []) : cs = [] := by
  cases cs with
  | nil => rfl
  | cons c cs =>
      have hc := flush_cons_iff.mp h
      have hstart : trimStart (c :: cs) = c :: cs := List.dropWhile_cons_of_neg (by simp [hc])
      rw [trim, hstart] at htrim
      have hall := List.rdropWhile_eq_nil_iff.mp htrim c List.mem_cons_self
      rw [hc] at hall
      cases hall

/-! ### Tight texts -/

/-- The text neither starts nor ends with a blank. -/
structure Tight (cs : List Char) : Prop where
  head : ∀ c, cs.head? = some c → isBlank c = false
  last : ∀ c, cs.getLast? = some c → isBlank c = false

theorem tight_nil : Tight [] where
  head _ h := by cases h
  last _ h := by cases h

theorem tight_of_forall (h : ∀ c ∈ cs, isBlank c = false) : Tight cs where
  head c hc := h c (List.mem_of_head? hc)
  last c hc := h c (List.mem_of_getLast? hc)

theorem tight_of_ends {first last : Char} (hfirst : isBlank first = false)
    (hlast : isBlank last = false) (h : first :: cs = xs ++ [last]) : Tight (first :: cs) where
  head c hc := by
    cases hc
    exact hfirst
  last c hc := by
    rw [h, List.getLast?_concat] at hc
    cases hc
    exact hlast

theorem Tight.flush (h : Tight cs) : Flush cs := by
  rintro c rest rfl
  exact h.head c rfl

/-- What has been trimmed is tight. -/
theorem tight_trim (cs : List Char) : Tight (trim cs) := by
  refine ⟨fun c hc => ?_, fun c hc => ?_⟩
  · obtain ⟨rest, hrest⟩ := List.head?_eq_some_iff.mp hc
    exact flush_trim cs c rest hrest
  · have hne : trim cs ≠ [] := fun hnil => by
      rw [hnil] at hc
      cases hc
    have hlast := List.rdropWhile_last_not isBlank (trimStart cs) hne
    rw [List.getLast?_eq_some_getLast hne, Option.some.injEq] at hc
    rw [← hc]
    exact Bool.not_eq_true _ ▸ hlast

theorem tight_ofList_trim (cs : List Char) : Tight (String.ofList (trim cs)).toList := by
  rw [String.toList_ofList]
  exact tight_trim cs

/-- Nothing is trimmed at the start of a tight text, whatever stands behind it. -/
theorem Tight.trimStart_append (h : Tight xs) (hne : xs ≠ []) (ys : List Char) :
    trimStart (xs ++ ys) = xs ++ ys := by
  obtain ⟨first, rest, rfl⟩ := List.exists_cons_of_ne_nil hne
  exact List.dropWhile_cons_of_neg (by simp [h.head first rfl])

theorem Tight.trimEnd_eq (h : Tight cs) : trimEnd cs = cs := by
  rw [trimEnd, dropWhileEnd_eq, List.rdropWhile_eq_self_iff]
  intro hne
  simp [h.last _ (List.getLast?_eq_some_getLast hne)]

/-- Nothing is trimmed off a tight text. -/
theorem Tight.trim_eq (h : Tight cs) : trim cs = cs := by
  by_cases hne : cs = []
  · rw [hne]
    rfl
  · have hstart := h.trimStart_append hne []
    rw [List.append_nil] at hstart
    rw [trim, hstart, h.trimEnd_eq]

theorem mem_of_mem_trim (h : c ∈ trim cs) : c ∈ cs :=
  (List.dropWhile_sublist _).subset (mem_of_mem_dropWhileEnd h)

/-- A blank behind a text is dropped. -/
theorem trim_concat_of_blank (h : isBlank c = true) (cs : List Char) :
    trim (cs ++ [c]) = trim cs := by
  rw [trim, trim, trimStart, trimStart, List.dropWhile_append]
  split
  next hempty =>
    rw [List.isEmpty_iff.mp hempty, List.dropWhile_cons_of_pos h]
    rfl
  next => exact List.rdropWhile_concat_pos _ _ _ h

/-- Whatever stands between two tight texts is kept with them. -/
theorem Tight.append (hx : Tight xs) (hxne : xs ≠ []) (hy : Tight ys) (hyne : ys ≠ [])
    (cs : List Char) : Tight (xs ++ cs ++ ys) := by
  refine ⟨fun c hc => hx.head c ?_, fun c hc => hy.last c ?_⟩
  · rwa [List.append_assoc, List.head?_append_of_ne_nil _ hxne] at hc
  · rwa [List.getLast?_append_of_ne_nil _ hyne] at hc

/-- Tight parts with a separator between neighbours are tight together. -/
theorem tight_intercalate (separator : List Char) (h : ∀ l ∈ ls, Tight l ∧ l ≠ []) :
    Tight (separator.intercalate ls) := by
  induction ls with
  | nil => exact tight_nil
  | cons l ls ih =>
      obtain ⟨hl, hne⟩ := h l List.mem_cons_self
      have hrest : ∀ x ∈ ls, Tight x ∧ x ≠ [] := fun x hx => h x (List.mem_cons_of_mem l hx)
      cases ls with
      | nil => rwa [List.intercalate_singleton]
      | cons l' ls =>
          rw [List.intercalate_cons_cons]
          refine hl.append hne (ih hrest) ?_ separator
          rw [intercalate_cons]
          exact List.append_ne_nil_of_left_ne_nil (hrest l' List.mem_cons_self).2 _

/-! ### Words -/

theorem isBlank_of_mem_words {word : List Char} (h : word ∈ words cs) (hc : c ∈ word) :
    isBlank c = false :=
  of_mem_runs h hc

/-- Neither end of the words with single spaces between them is blank. -/
theorem tight_collapse (cs : List Char) : Tight (collapse cs) := by
  refine tight_intercalate [' '] fun word hword => ⟨tight_of_forall fun c hc => ?_, ?_⟩
  · exact isBlank_of_mem_words hword hc
  · simpa using (List.mem_filter.mp hword).2

/-- The words of a text with single spaces between them start with a word. -/
theorem flush_collapse (cs : List Char) : Flush (collapse cs) := (tight_collapse cs).flush

/-- A text that starts with a word has one. -/
theorem collapse_ne_nil (h : isBlank c = false) (cs : List Char) : collapse (c :: cs) ≠ [] := by
  rw [collapse_cons h]
  exact List.cons_ne_nil _ _

/-- Only what ends a text is trimmed at its end. -/
theorem trimEnd_append_cons (h : trimEnd ys ≠ []) (xs : List Char) (c : Char) :
    trimEnd (xs ++ c :: ys) = xs ++ c :: trimEnd ys := by
  have hne : (ys.reverse.dropWhile isBlank).isEmpty = false := by
    rw [List.isEmpty_eq_false_iff]
    exact fun hnil => h (congrArg List.reverse hnil)
  rw [trimEnd, trimEnd, dropWhileEnd, dropWhileEnd, List.append_cons, List.reverse_append,
    List.dropWhile_append, hne, if_neg Bool.false_ne_true, List.reverse_append,
    List.reverse_reverse, List.append_assoc, List.singleton_append]

end TypePages.Chars
