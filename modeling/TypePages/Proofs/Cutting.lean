import Mathlib.Data.List.DropRight
import Mathlib.Data.List.TakeWhile
import TypePages.Text.Basic

/-!
Texts that are cut.

What is written with a separator is read back by cutting at it, provided that no part holds the
separator itself; and what is dropped at an end belongs to the characters that are to be dropped
there.  Both are said here for lists of characters, once for every reader of a text.
-/

namespace TypePages.Chars

open Text (isBlank)

variable {c : Char} {cs xs ys : List Char} {p : Char → Bool}

/-! ### Cutting -/

/-- A text without the character is not cut. -/
theorem cut_of_notMem (h : c ∉ cs) : cut c cs = (cs, none) := by
  have hall : cs.dropWhile (· != c) = [] :=
    List.dropWhile_eq_nil_iff.mpr fun x hx => by simpa using fun heq : x = c => h (heq ▸ hx)
  unfold cut
  rw [hall]

/-- A text is cut at the first copy of the character. -/
theorem cut_append_cons (h : c ∉ xs) (ys : List Char) : cut c (xs ++ c :: ys) = (xs, some ys) := by
  have hall : ∀ x ∈ xs, (x != c) = true := fun x hx => by
    simpa using fun heq : x = c => h (heq ▸ hx)
  have hdrop : (xs ++ c :: ys).dropWhile (· != c) = c :: ys := by
    rw [List.dropWhile_append_of_pos hall, List.dropWhile_cons_of_neg (by simp)]
  have htake : (xs ++ c :: ys).takeWhile (· != c) = xs := by
    rw [List.takeWhile_append_of_pos hall, List.takeWhile_cons_of_neg (by simp), List.append_nil]
  unfold cut
  rw [hdrop, htake]

/-- The part in front of a cut holds no copy of the character. -/
theorem notMem_cut (c : Char) (cs : List Char) : c ∉ (cut c cs).1 := by
  by_cases h : c ∈ cs
  · obtain ⟨before, after, rfl, hbefore⟩ := List.eq_append_cons_of_mem h
    rwa [cut_append_cons hbefore]
  · rwa [cut_of_notMem h]

/-- Where the character is in the first part of a text, the text is cut in that part. -/
theorem cut_append_of_mem (h : c ∈ xs) (ys : List Char) : (cut c (xs ++ ys)).1 = (cut c xs).1 := by
  obtain ⟨before, after, rfl, hbefore⟩ := List.eq_append_cons_of_mem h
  rw [List.append_assoc, List.cons_append, cut_append_cons hbefore, cut_append_cons hbefore]

/-- A text has one part more than copies of the separator. -/
theorem length_splitOn (c : Char) (cs : List Char) : (cs.splitOn c).length = cs.count c + 1 := by
  induction cs with
  | nil => rfl
  | cons x cs ih =>
      rw [List.splitOn] at ih
      rw [List.splitOn, List.splitOnP_cons_eq_if_modifyHead, List.count_cons]
      split
      · rw [List.length_cons, ih]
      · rw [List.length_modifyHead, ih, Nat.add_zero]

/-! ### Trimming -/

/-- Dropping at the end is a function of the library. -/
theorem dropWhileEnd_eq (p : Char → Bool) (cs : List Char) : dropWhileEnd p cs = cs.rdropWhile p :=
  rfl

theorem dropWhileEnd_of_forall (h : ∀ c ∈ cs, ¬p c = true) : dropWhileEnd p cs = cs := by
  rw [dropWhileEnd_eq, List.rdropWhile_eq_self_iff]
  exact fun hne => h _ (List.getLast_mem hne)

/-- What is dropped at the end is in the class. -/
theorem exists_append_dropWhileEnd (p : Char → Bool) (cs : List Char) :
    ∃ tail, cs = dropWhileEnd p cs ++ tail ∧ ∀ c ∈ tail, p c = true := by
  refine ⟨(cs.reverse.takeWhile p).reverse, ?_, fun c hc => ?_⟩
  · rw [dropWhileEnd, ← List.reverse_append, List.takeWhile_append_dropWhile, List.reverse_reverse]
  · exact List.mem_takeWhile_imp (List.mem_reverse.mp hc)

theorem mem_of_mem_dropWhileEnd (h : c ∈ dropWhileEnd p cs) : c ∈ cs :=
  (List.rdropWhile_prefix p cs).subset h

theorem mem_of_mem_strip {d : Char} (h : c ∈ strip d cs) : c ∈ cs :=
  (List.dropWhile_sublist _).subset (mem_of_mem_dropWhileEnd h)

/-- What is left in front of a dropped end does not go on in the class. -/
theorem of_getLast?_dropWhileEnd (h : (dropWhileEnd p cs).getLast? = some c) : ¬p c = true := by
  rw [dropWhileEnd_eq, List.getLast?_eq_some_iff] at h
  obtain ⟨ys, hys⟩ := h
  have hne : cs.rdropWhile p ≠ [] := by simp [hys]
  have hlast := List.rdropWhile_last_not p cs hne
  simpa only [hys, List.getLast_concat] using hlast

/-- No copy of the stripped character is left at an end. -/
theorem ends_strip (c : Char) (cs : List Char) :
    (strip c cs).head? ≠ some c ∧ (strip c cs).getLast? ≠ some c := by
  constructor
  · intro h
    obtain ⟨tail, hstart, -⟩ := exists_append_dropWhileEnd (· == c) (cs.dropWhile (· == c))
    have hhead : (cs.dropWhile (· == c)).head? = some c := by
      rw [hstart, List.head?_append, ← strip, h, Option.some_or]
    have hnot := List.head?_dropWhile_not (· == c) cs
    rw [hhead] at hnot
    simp at hnot
  · exact fun h => of_getLast?_dropWhileEnd h (beq_self_eq_true c)

/-- Nothing is stripped from a text that has the character at neither end. -/
theorem strip_of_ends (hhead : cs.head? ≠ some c) (hlast : cs.getLast? ≠ some c) :
    strip c cs = cs := by
  have hstart : cs.dropWhile (· == c) = cs := by
    cases cs with
    | nil => rfl
    | cons x cs =>
        have hne : x ≠ c := fun heq => hhead (heq ▸ List.head?_cons)
        exact List.dropWhile_cons_of_neg (by simp [hne])
  rw [strip, hstart, dropWhileEnd_eq, List.rdropWhile_eq_self_iff]
  intro hne heq
  rw [beq_iff_eq] at heq
  exact hlast (List.getLast?_eq_some_getLast hne ▸ heq ▸ rfl)

/-- A blank before a text is dropped. -/
theorem trim_cons_of_blank (h : isBlank c = true) (cs : List Char) : trim (c :: cs) = trim cs := by
  rw [trim, trimStart, List.dropWhile_cons_of_pos h]
  rfl

/-! ### Joining -/

/-- In a joined text the separator stands before every part but the first. -/
theorem intercalate_cons (separator cs : List Char) (parts : List (List Char)) :
    separator.intercalate (cs :: parts) = cs ++ parts.flatMap (separator ++ ·) := by
  induction parts generalizing cs with
  | nil => rw [List.intercalate_singleton, List.flatMap_nil, List.append_nil]
  | cons part parts ih =>
      rw [List.intercalate_cons_cons, ih part, List.flatMap_cons, List.append_assoc,
        List.append_assoc]

/-- A character of a joined text is one of the separator or of a part. -/
theorem mem_intercalate {separator : List Char} {parts : List (List Char)}
    (h : c ∈ separator.intercalate parts) : c ∈ separator ∨ ∃ part ∈ parts, c ∈ part := by
  cases parts with
  | nil => cases h
  | cons part parts =>
      rw [intercalate_cons, List.mem_append, List.mem_flatMap] at h
      rcases h with h | ⟨part', hpart', h⟩
      · exact .inr ⟨part, List.mem_cons_self, h⟩
      · rcases List.mem_append.mp h with h | h
        · exact .inl h
        · exact .inr ⟨part', List.mem_cons_of_mem part hpart', h⟩

/-! ### Replacing -/

theorem replace_of_notMem (h : c ∉ cs) (by' : List Char) : replace c by' cs = cs := by
  induction cs with
  | nil => rfl
  | cons x cs ih =>
      rw [List.mem_cons, not_or] at h
      have hne : (x == c) = false := beq_eq_false_iff_ne.mpr fun heq => h.1 heq.symm
      show (if x == c then by' else [x]) ++ replace c by' cs = x :: cs
      rw [hne, ih h.2]
      rfl

/-- What is replaced by another character is gone. -/
theorem notMem_replace {d : Char} (h : c ≠ d) (cs : List Char) : c ∉ replace c [d] cs := by
  intro hmem
  obtain ⟨x, -, hx⟩ := List.mem_flatMap.mp hmem
  by_cases heq : x == c
  · rw [if_pos heq] at hx
    exact h (List.mem_singleton.mp hx)
  · rw [if_neg heq] at hx
    exact heq (beq_iff_eq.mpr (List.mem_singleton.mp hx).symm)

end TypePages.Chars

namespace TypePages.Text

variable {s : String}

/-! ### Starts and ends -/

/-- A text has the given start exactly when it is the start and what follows it. -/
theorem afterStart?_eq_some_iff {start rest : String} :
    afterStart? start s = some rest ↔ s = start ++ rest := by
  rw [afterStart?, Option.map_eq_some_iff]
  constructor
  · rintro ⟨cs, hcs, rfl⟩
    rw [← String.toList_inj, String.toList_append, String.toList_ofList]
    exact Chars.afterStart?_eq_some_iff.mp hcs
  · rintro rfl
    exact ⟨rest.toList, Chars.afterStart?_eq_some_iff.mpr String.toList_append,
      String.ofList_toList⟩

/-- A text has the given end exactly when it is what precedes the end, and the end. -/
theorem beforeEnd?_eq_some_iff {ending front : String} :
    beforeEnd? ending s = some front ↔ s = front ++ ending := by
  rw [beforeEnd?, Option.map_eq_some_iff]
  constructor
  · rintro ⟨cs, hcs, rfl⟩
    have hreverse := congrArg List.reverse (Chars.afterStart?_eq_some_iff.mp hcs)
    rw [List.reverse_reverse, List.reverse_append, List.reverse_reverse] at hreverse
    rw [← String.toList_inj, String.toList_append, String.toList_ofList, hreverse]
  · rintro rfl
    refine ⟨front.toList.reverse, Chars.afterStart?_eq_some_iff.mpr ?_, ?_⟩
    · rw [String.toList_append, List.reverse_append]
    · rw [List.reverse_reverse, String.ofList_toList]

end TypePages.Text
