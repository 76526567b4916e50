import TypePages.Proofs.Prose

/-!
Reading a comment loses nothing of it but blanks.

The *ink* of a text is what is left without its blanks.  Trimming, cutting into lines and joining
with newlines change blanks only, so the ink of every line that is read goes whole into the body or
into the tag that is open, and the at sign, the name and the text of a tag are the ink of the line
that opens it.  `ink_sections` puts these together along the lines; what a comment spells is then
the ink of the text that it was read from.

Tags are counted on the text as it is given.  It is trimmed before it is read, which may take a line
away and shorten another, but never one of which the first characters are an at sign and a name.
-/

namespace TypePages

namespace Chars

open Text (isBlank isLineEnd)

variable {c : Char} {cs : List Char} {ls : List (List Char)}

/-- The text without its blanks. -/
def ink (cs : List Char) : List Char := cs.filter (!isBlank ·)

@[simp] theorem ink_nil : ink [] = [] := rfl

@[simp] theorem ink_append (xs ys : List Char) : ink (xs ++ ys) = ink xs ++ ink ys :=
  List.filter_append xs ys

theorem ink_cons_of_blank (h : isBlank c = true) (cs : List Char) : ink (c :: cs) = ink cs :=
  List.filter_cons_of_neg (by simp [h])

theorem ink_cons_of_not_blank (h : isBlank c = false) (cs : List Char) :
    ink (c :: cs) = c :: ink cs :=
  List.filter_cons_of_pos (by simp [h])

theorem ink_trimStart (cs : List Char) : ink (trimStart cs) = ink cs := by
  induction cs with
  | nil => rfl
  | cons c cs ih =>
      by_cases hc : isBlank c = true
      · rw [trimStart, List.dropWhile_cons_of_pos hc, ink_cons_of_blank hc]
        exact ih
      · rw [trimStart, List.dropWhile_cons_of_neg hc]

theorem ink_reverse (cs : List Char) : ink cs.reverse = (ink cs).reverse := List.filter_reverse

theorem ink_trim (cs : List Char) : ink (trim cs) = ink cs := by
  have hend : ∀ xs, trimEnd xs = (trimStart xs.reverse).reverse := fun _ => rfl
  rw [trim, hend, ink_reverse, ink_trimStart, ink_reverse, List.reverse_reverse, ink_trimStart]

theorem ink_eq_nil_iff : ink cs = [] ↔ ∀ c ∈ cs, isBlank c = true := by
  rw [ink, List.filter_eq_nil_iff]
  simp

/-- Nothing is left of a text when it is trimmed just in case it is blank. -/
theorem trim_eq_nil_iff : trim cs = [] ↔ ∀ c ∈ cs, isBlank c = true := by
  rw [← ink_eq_nil_iff, ← ink_trim cs]
  constructor
  · intro h
    rw [h, ink_nil]
  · intro h
    cases htrim : trim cs with
    | nil => rfl
    | cons c rest =>
        rw [htrim, ink_cons_of_not_blank (flush_trim cs c rest htrim)] at h
        cases h

/-- The ends of lines are blank, so the lines hold all the ink. -/
theorem ink_lines (cs : List Char) : (lines cs).flatMap ink = ink cs := by
  fun_induction lines cs with
  | case1 => rfl
  | case2 cs ih =>
      rw [List.flatMap_cons, ink_nil, List.nil_append, ih, ink_cons_of_blank (by decide),
        ink_cons_of_blank (by decide)]
  | case3 c cs _ hend ih =>
      rw [List.flatMap_cons, ink_nil, List.nil_append, ih,
        ink_cons_of_blank (Text.isBlank_of_isLineEnd hend)]
  | case4 c cs _ _ hnil ih =>
      rw [hnil, List.flatMap_nil] at ih
      have hcons : c :: cs = [c] ++ cs := rfl
      rw [List.flatMap_singleton, hcons, ink_append, ← ih, List.append_nil]
  | case5 c cs _ _ l ls hlines ih =>
      rw [hlines, List.flatMap_cons] at ih
      have hcons : ∀ xs, c :: xs = [c] ++ xs := fun _ => rfl
      rw [List.flatMap_cons, hcons l, ink_append, List.append_assoc, ih, hcons cs, ink_append]

theorem ink_joined (ls : List (List Char)) : ink (joined ls) = ls.flatMap ink := by
  induction ls with
  | nil => rfl
  | cons l ls ih =>
      cases ls with
      | nil => rw [joined_singleton, List.flatMap_singleton]
      | cons l' ls =>
          rw [joined_cons_cons, ink_append, ink_cons_of_blank (by decide), ih]
          rfl

theorem ink_collapse_and (cs : List Char) :
    ink (collapse cs) = ink cs ∧ ink (collapseOn cs) = ink cs := by
  induction cs with
  | nil => exact ⟨rfl, rfl⟩
  | cons c cs ih =>
      cases hc : isBlank c with
      | true =>
          rw [collapse_cons_of_blank hc, collapseOn_cons_of_blank hc, ink_cons_of_blank hc, ← ih.1]
          refine ⟨rfl, ?_⟩
          cases collapse cs with
          | nil => rfl
          | cons d ds => exact ink_cons_of_blank (by decide) (d :: ds)
      | false =>
          rw [collapse_cons hc, collapseOn_cons hc, ink_cons_of_not_blank hc,
            ink_cons_of_not_blank hc, ih.2]
          exact ⟨rfl, rfl⟩

/-- Collapsing changes blanks only. -/
theorem ink_collapse (cs : List Char) : ink (collapse cs) = ink cs := (ink_collapse_and cs).1

end Chars

namespace Comment

open Chars
open Text (isBlank isLineEnd isWord)

variable {c : Char} {cs l name text : List Char} {ls : List (List Char)}

/-! ### The ink of a comment -/

/-- A tag as it is spelled: an at sign, its name and its text. -/
def spelledTag (tag : List Char × List Char) : List Char := '@' :: tag.1 ++ tag.2

/-- What a comment spells: its body and its tags, one after the other. -/
def spelled (c : Comment) : List Char :=
  c.body.toList ++ c.tags.flatMap fun t => spelledTag (t.name.toList, t.text.toList)

/-- What a line that opens a tag says is the tag. -/
theorem ink_of_openedTag? (h : openedTag? l = some (name, text)) :
    ink l = ink (spelledTag (name, text)) := by
  unfold openedTag? at h
  split at h
  next rest hrest =>
    dsimp only at h
    split at h
    next => cases h
    next =>
      cases h
      have hsplit : ink rest = ink (rest.takeWhile isWord) ++ ink (rest.dropWhile isWord) := by
        rw [← ink_append, List.takeWhile_append_dropWhile]
      rw [← ink_trimStart, hrest, spelledTag, List.cons_append, ink_cons_of_not_blank (by decide),
        ink_cons_of_not_blank (by decide), ink_append, ink_trim, hsplit]
  next => cases h

theorem ink_continued (text : List Char) (ls : List (List Char)) :
    ink (continued text ls) = ink text ++ ls.flatMap ink := by
  induction ls generalizing text with
  | nil => rw [List.flatMap_nil, List.append_nil]; rfl
  | cons l ls ih =>
      have hstep : continued text (l :: ls) = continued (trim (text ++ '\n' :: trim l)) ls := rfl
      rw [hstep, ih, ink_trim, ink_append, ink_cons_of_blank (by decide), ink_trim,
        List.flatMap_cons, List.append_assoc]

/-- The lines of the body and the tags hold the ink of the lines, in their order. -/
theorem ink_sections (ls : List (List Char)) :
    (sections ls).1.flatMap ink ++ (sections ls).2.flatMap (fun tag => ink (spelledTag tag))
      = ls.flatMap ink := by
  induction ls with
  | nil => rfl
  | cons l ls ih =>
      cases h : openedTag? l with
      | none => rw [sections_of_silent h, List.flatMap_cons, List.append_assoc, ih,
          List.flatMap_cons]
      | some found =>
          obtain ⟨name, text⟩ := found
          -- The lines up to the next tag, which would be the body, go to the text of this one.
          have htag : ink (spelledTag (name, continued text (sections ls).1))
              = ink l ++ (sections ls).1.flatMap ink := by
            rw [ink_of_openedTag? h, spelledTag, spelledTag, ink_append, ink_continued, ink_append,
              List.append_assoc]
          rw [sections_of_opens h, List.flatMap_nil, List.nil_append, List.flatMap_cons, htag,
            List.append_assoc, ih, List.flatMap_cons]

theorem ink_flatMap {α : Type} (f : α → List Char) (xs : List α) :
    ink (xs.flatMap f) = xs.flatMap fun x => ink (f x) :=
  List.filter_flatMap

theorem ink_spelled_ofProse (text : String) : ink (spelled (ofProse text)) = ink text.toList := by
  have htags : (ofProse text).tags.flatMap (fun t => spelledTag (t.name.toList, t.text.toList))
      = (sections (lines text.toList)).2.flatMap spelledTag := by
    rw [ofProse_eq, ofParts, List.flatMap_map]
    exact List.flatMap_congr fun tag _ => by rw [String.toList_ofList, String.toList_ofList]
  rw [spelled, htags, ink_append, ink_flatMap, ofProse_eq, ofParts, String.toList_ofList, ink_trim,
    ink_joined, ink_sections, ink_lines]

/-! ### The number of tags -/

/-- Whether an at sign and a word character come first. -/
def startsTag : List Char → Bool
  | '@' :: c :: _ => isWord c
  | _ => false

/-- Whether an at sign and a word character come first on a line, behind its blanks. -/
def opensTag (l : List Char) : Bool := startsTag (trimStart l)

theorem openedTag?_eq_none_iff_opensTag : openedTag? l = none ↔ opensTag l = false := by
  rw [openedTag?_eq_none_iff]
  unfold opensTag startsTag
  split
  next c rest hstart =>
    refine ⟨fun h => h c rest hstart, fun h d rest' hd => ?_⟩
    obtain ⟨-, rfl, -⟩ := hstart ▸ hd
    exact h
  next hne => exact iff_of_true (fun c rest h => absurd h (hne c rest)) rfl

/-- Every line that opens a tag gives one, and no other line does. -/
theorem length_sections (ls : List (List Char)) :
    (sections ls).2.length = ls.countP opensTag := by
  induction ls with
  | nil => rfl
  | cons l ls ih =>
      cases h : openedTag? l with
      | none =>
          have hl : opensTag l = false := openedTag?_eq_none_iff_opensTag.mp h
          rw [sections_of_silent h, ih, List.countP_cons_of_neg (by simp [hl])]
      | some found =>
          have hl : opensTag l ≠ false := fun hf => by
            rw [openedTag?_eq_none_iff_opensTag.mpr hf] at h
            cases h
          rw [sections_of_opens h, List.length_cons, ih,
            List.countP_cons_of_pos (by simpa using hl)]

/-! ### The number of tags in a text that is trimmed -/

theorem opensTag_blank_cons (h : isBlank c = true) (l : List Char) :
    opensTag (c :: l) = opensTag l := by
  rw [opensTag, trimStart, List.dropWhile_cons_of_pos h]
  rfl

/-- A blank at the end of a line is no part of a tag's name. -/
theorem opensTag_concat_blank (h : isBlank c = true) (l : List Char) :
    opensTag (l ++ [c]) = opensTag l := by
  have hword : isWord c = false := by
    by_contra hc
    rw [Text.isBlank_of_isWord (by simpa using hc)] at h
    cases h
  have hstarts : ∀ xs, startsTag (xs ++ [c]) = startsTag xs := by
    rintro (_ | ⟨d, _ | ⟨e, xs⟩⟩)
    · exact (startsTag.eq_2 [c] nofun).trans rfl
    · by_cases hd : d = '@'
      · rw [hd]
        exact hword
      · simp [startsTag, hd]
    · by_cases hd : d = '@'
      · rw [hd]
        rfl
      · simp [startsTag, hd]
  rw [opensTag, opensTag, trimStart, trimStart, List.dropWhile_append]
  split
  next hempty =>
    rw [List.isEmpty_iff.mp hempty, List.dropWhile_cons_of_pos h]
    rfl
  next => exact hstarts _

/-- The number of lines that open a tag. -/
def tagLines (cs : List Char) : Nat := (lines cs).countP opensTag

theorem countP_opensTag (ls : List (List Char)) :
    ls.countP opensTag = (if opensTag (ls.headD []) then 1 else 0) + ls.tail.countP opensTag := by
  cases ls with
  | nil => rfl
  | cons l ls => rw [List.countP_cons, Nat.add_comm]; rfl

theorem tagLines_blank_cons (h : isBlank c = true) (cs : List Char) :
    tagLines (c :: cs) = tagLines cs := by
  by_cases hend : isLineEnd c = true
  · by_cases hpair : ∃ rest, c = '\r' ∧ cs = '\n' :: rest
    · obtain ⟨rest, rfl, rfl⟩ := hpair
      rw [tagLines, tagLines, lines_newline, lines]
    · rw [tagLines, lines_of_isLineEnd hend fun rest hc hcs => hpair ⟨rest, hc, hcs⟩]
      rfl
  · rw [tagLines, tagLines, lines_cons (by simpa using hend), countP_opensTag (lines cs),
      countP_opensTag, List.headD_cons, List.tail_cons, opensTag_blank_cons h]

/-- The first lines differ at most in a blank behind one, and the others open as many tags. -/
def EndsAlike (c : Char) (ls ls' : List (List Char)) : Prop :=
  (ls'.headD [] = ls.headD [] ∨ ls'.headD [] = ls.headD [] ++ [c]) ∧
    ls'.tail.countP opensTag = ls.tail.countP opensTag

theorem EndsAlike.countP_eq {ls ls' : List (List Char)} (h : EndsAlike c ls ls')
    (hc : isBlank c = true) : ls'.countP opensTag = ls.countP opensTag := by
  obtain ⟨hhead, htail⟩ := h
  have hopens : opensTag (ls'.headD []) = opensTag (ls.headD []) := by
    rcases hhead with hhead | hhead
    · rw [hhead]
    · rw [hhead, opensTag_concat_blank hc]
  rw [countP_opensTag, hopens, htail, ← countP_opensTag]

theorem EndsAlike.cons {d : Char} (h : EndsAlike c (lines cs) (lines (cs ++ [c])))
    (hd : isLineEnd d = false) : EndsAlike c (lines (d :: cs)) (lines (d :: cs ++ [c])) := by
  rw [List.cons_append, lines_cons hd, lines_cons hd]
  exact ⟨h.1.imp (congrArg (d :: ·)) (congrArg (d :: ·)), h.2⟩

/-- A blank behind a text ends its last line, stands at the line's end, or makes a line. -/
theorem endsAlike_lines (h : isBlank c = true) (cs : List Char) :
    EndsAlike c (lines cs) (lines (cs ++ [c])) := by
  induction cs using lines.induct with
  | case1 =>
      rw [List.nil_append]
      by_cases hend : isLineEnd c = true
      · have hlines : lines [c] = [[]] := lines_of_isLineEnd hend fun _ _ heq => nomatch heq
        rw [hlines]
        exact ⟨.inl rfl, rfl⟩
      · rw [lines_cons (by simpa using hend)]
        exact ⟨.inr rfl, rfl⟩
  | case2 cs ih =>
      rw [List.cons_append, List.cons_append, lines, lines]
      exact ⟨.inl rfl, ih.countP_eq h⟩
  | case3 d cs hpair hend ih =>
      have hlines : lines (d :: cs) = [] :: lines cs := lines_of_isLineEnd hend hpair
      rw [List.cons_append, hlines]
      by_cases hjoin : ∃ rest, d = '\r' ∧ cs ++ [c] = '\n' :: rest
      · obtain ⟨rest, hd, hrest⟩ := hjoin
        cases cs with
        | nil =>
            cases hrest
            rw [hd]
            exact ⟨.inl rfl, rfl⟩
        | cons e cs => exact (hpair cs hd (by rw [(List.cons.inj hrest).1])).elim
      · rw [lines_of_isLineEnd hend fun rest hd hcs => hjoin ⟨rest, hd, hcs⟩]
        exact ⟨.inl rfl, ih.countP_eq h⟩
  | case4 d cs _ hend _ ih => exact ih.cons (by simpa using hend)
  | case5 d cs _ hend _ _ _ ih => exact ih.cons (by simpa using hend)

theorem tagLines_concat_blank (h : isBlank c = true) (cs : List Char) :
    tagLines (cs ++ [c]) = tagLines cs :=
  (endsAlike_lines h cs).countP_eq h

theorem tagLines_trimStart (cs : List Char) : tagLines (trimStart cs) = tagLines cs := by
  induction cs with
  | nil => rfl
  | cons c cs ih =>
      by_cases hc : isBlank c = true
      · rw [trimStart, List.dropWhile_cons_of_pos hc, tagLines_blank_cons hc]
        exact ih
      · rw [trimStart, List.dropWhile_cons_of_neg hc]

theorem tagLines_trimEnd (cs : List Char) : tagLines (trimEnd cs) = tagLines cs := by
  induction cs using List.reverseRecOn with
  | nil => rfl
  | append_singleton cs c ih =>
      by_cases hc : isBlank c = true
      · rw [tagLines_concat_blank hc, trimEnd, dropWhileEnd_eq, List.rdropWhile_concat_pos _ _ _ hc]
        exact ih
      · rw [trimEnd, dropWhileEnd_eq, List.rdropWhile_concat_neg _ _ _ hc]

/-- Trimming a text takes no tag from it and adds none. -/
theorem tagLines_trim (cs : List Char) : tagLines (trim cs) = tagLines cs := by
  rw [trim, tagLines_trimEnd, tagLines_trimStart]

/-! ### Comments -/

theorem getD_nonempty? (c : Comment) : c.nonempty?.getD .empty = c := by
  unfold nonempty?
  split
  next h =>
    obtain ⟨body, tags⟩ := c
    obtain ⟨rfl, rfl⟩ : body = "" ∧ tags = [] := by simpa [isEmpty] using h
    rfl
  next => rfl

theorem length_tags_ofProse (text : String) :
    (ofProse text).tags.length = tagLines text.toList := by
  rw [ofProse_eq, ofParts, List.length_map, length_sections]
  rfl

/-- **Reading a comment loses, doubles and reorders nothing.**  What the comment spells is the text
but for blanks, and it has as many tags as the text has lines that open one. -/
theorem ink_spelled_ofValue? (text : String) : ∃ c?, ofValue? (.text text) = .ok c? ∧
    ink (spelled (c?.getD .empty)) = ink text.toList ∧
    (c?.getD .empty).tags.length = (lines text.toList).countP opensTag := by
  refine ⟨_, ofValue?_text text, ?_⟩
  rw [getD_nonempty?, ink_spelled_ofProse, length_tags_ofProse, Text.trim, String.toList_ofList,
    ink_trim, tagLines_trim]
  exact ⟨rfl, rfl⟩

example : ink (spelled (ofProse "A lamp.\n  @since 1.\n   2 \n@ not a tag")) =
    "Alamp.@since1.2@notatag".toList := by decide +kernel

end Comment

end TypePages
