import TypePages.Proofs.Paragraphs
import TypePages.Proofs.Sentences

/-!
First sentences of first sentences.

A first sentence is cut twice and then spaced anew, and none of this makes a place where it would be
cut again.  Both cuts fall at a character that is in no word and behind nothing that would have been
cut before, so a place that is left reads on as it did: to where the next word and the next run of
blanks end (`breaksHere_untilStop`, `unbroken_untilBreak`).  Spacing keeps the words, makes no
newline, and puts a blank behind a mark only where there was one.
-/

namespace TypePages

namespace Chars

open Text (isBlank isWord)

variable {c : Char} {cs : List Char}

/-! ### What stands behind a letter -/

/-- Behind a letter, blanks are kept blank. -/
theorem all_head?_collapseOn (cs : List Char) :
    (collapseOn cs).head?.all isBlank = cs.head?.all isBlank := by
  cases cs with
  | nil => rfl
  | cons c cs =>
      cases hc : isBlank c with
      | true =>
          rw [collapseOn_cons_of_blank hc, List.head?_cons, Option.all_some, hc]
          cases collapse cs <;> rfl
      | false => rw [collapseOn_cons hc, List.head?_cons, List.head?_cons]

theorem isWord_of_isBlank (h : isBlank c = true) : isWord c = false := by
  by_contra hword
  rw [Text.isBlank_of_isWord (by simpa using hword)] at h
  cases h

/-- The word that goes on behind a letter is kept. -/
theorem takeWhile_collapseOn (cs : List Char) :
    (collapseOn cs).takeWhile isWord = cs.takeWhile isWord := by
  induction cs with
  | nil => rfl
  | cons c cs ih =>
      cases hc : isBlank c with
      | true =>
          rw [collapseOn_cons_of_blank hc, List.takeWhile_cons, isWord_of_isBlank hc]
          cases collapse cs <;> rfl
      | false => rw [collapseOn_cons hc, List.takeWhile_cons, List.takeWhile_cons, ih]

theorem takeWhile_prefix_takeWhile {p : Char → Bool} {xs : List Char} (h : xs <+: cs) :
    xs.takeWhile p <+: cs.takeWhile p := by
  obtain ⟨rest, rfl⟩ := h
  rw [List.takeWhile_append]
  split
  · exact (List.takeWhile_prefix p).trans (List.prefix_append xs _)
  · exact List.prefix_rfl

end Chars

namespace Comment

open Chars (collapse collapseOn behind)
open Text (isBlank isWord)

variable {c : Char} {cs xs ys : List Char} {p : Char → Bool}

/-! ### Cutting at a full stop -/

/-- Up to the end of a sentence, what marks do not belong to is read as in the whole text. -/
theorem takeWhile_untilStop (hp : ∀ c, isStop c = true → p c = false) (cs : List Char) :
    (untilStop cs).takeWhile p = cs.takeWhile p := by
  induction cs with
  | nil => rfl
  | cons c cs ih =>
      unfold untilStop
      split
      next hends =>
        have hc : ¬p c = true := by simp [hp c (Bool.and_eq_true_iff.mp hends).1]
        rw [List.takeWhile_cons_of_neg hc, List.takeWhile_cons_of_neg hc]
      next => rw [List.takeWhile_cons, List.takeWhile_cons, ih]

theorem head?_untilStop (cs : List Char) : (untilStop cs).head? = cs.head? := by
  cases cs with
  | nil => rfl
  | cons c cs =>
      unfold untilStop
      split <;> rfl

/-- A sentence is not cut again. -/
theorem untilStop_untilStop (cs : List Char) : untilStop (untilStop cs) = untilStop cs := by
  induction cs with
  | nil => rfl
  | cons c cs ih =>
      rw [untilStop]
      split
      next hends =>
        rw [untilStop]
        split <;> rfl
      next hends => rw [untilStop, head?_untilStop, if_neg hends, ih]

/-! ### Cutting at a block -/

/-- Whether a block begins at a character is told by the word behind it and, for a newline, by the
run of blanks. -/
theorem breaksHere_of_alike (hword : xs.takeWhile isWord = ys.takeWhile isWord)
    (hblanks : c = '\n' → xs.takeWhile isBlank <+: ys.takeWhile isBlank)
    (h : breaksHere (c :: xs) = true) : breaksHere (c :: ys) = true := by
  unfold breaksHere at h ⊢
  split at h
  next rest heq =>
    obtain ⟨rfl, rfl⟩ := List.cons.inj heq
    exact List.contains_iff_mem.mpr ((hblanks rfl).subset (List.contains_iff_mem.mp h))
  next rest heq =>
    obtain ⟨rfl, rfl⟩ := List.cons.inj heq
    rwa [hword] at h
  · cases h

/-- The text has no block. -/
def Unbroken (cs : List Char) : Prop := untilBreak cs = cs

theorem unbroken_nil : Unbroken [] := rfl

theorem unbroken_cons_iff :
    Unbroken (c :: cs) ↔ ¬breaksHere (c :: cs) = true ∧ Unbroken cs := by
  unfold Unbroken
  by_cases h : breaksHere (c :: cs) = true
  · rw [untilBreak, if_pos h]
    exact iff_of_false (List.cons_ne_nil c cs).symm fun hnot => hnot.1 h
  · rw [untilBreak, if_neg h, List.cons_inj_right]
    exact (and_iff_right h).symm

theorem takeWhile_untilBreak (cs : List Char) :
    (untilBreak cs).takeWhile isWord = cs.takeWhile isWord := by
  induction cs with
  | nil => rfl
  | cons c cs ih =>
      unfold untilBreak
      split
      next hbreaks =>
        have hc : ¬isWord c = true := by
          unfold breaksHere at hbreaks
          split at hbreaks
          next heq => rw [(List.cons.inj heq).1]; decide
          next heq => rw [(List.cons.inj heq).1]; decide
          next => cases hbreaks
        rw [List.takeWhile_cons_of_neg hc, List.takeWhile_nil]
      next => rw [List.takeWhile_cons, List.takeWhile_cons, ih]

/-- What stands before the first block has no block. -/
theorem unbroken_untilBreak (cs : List Char) : Unbroken (untilBreak cs) := by
  induction cs with
  | nil => exact unbroken_nil
  | cons c cs ih =>
      unfold untilBreak
      split
      · exact unbroken_nil
      next hbreaks =>
        have hstart := untilBreak_prefix cs
        refine unbroken_cons_iff.mpr ⟨fun h => hbreaks ?_, ih⟩
        exact breaksHere_of_alike (takeWhile_untilBreak cs)
          (fun _ => Chars.takeWhile_prefix_takeWhile hstart) h

/-! ### Both cuts and the spacing -/

theorem isWord_of_isStop (h : isStop c = true) : isWord c = false := by
  simp only [isStop, Bool.or_eq_true, beq_iff_eq] at h
  rcases h with (rfl | rfl) | rfl <;> decide

/-- Cutting at a full stop neither makes a block nor takes one away at a character before. -/
theorem breaksHere_cons_untilStop (c : Char) (cs : List Char) :
    breaksHere (c :: untilStop cs) = breaksHere (c :: cs) := by
  have hword := takeWhile_untilStop (fun d hd => isWord_of_isStop hd) cs
  have hblanks := takeWhile_untilStop (fun d hd => isBlank_of_isStop hd) cs
  rw [Bool.eq_iff_iff]
  exact ⟨breaksHere_of_alike hword fun _ => hblanks ▸ List.prefix_rfl,
    breaksHere_of_alike hword.symm fun _ => hblanks ▸ List.prefix_rfl⟩

theorem breaksHere_of_isStop (h : isStop c = true) (cs : List Char) :
    breaksHere (c :: cs) = false := by
  simp only [isStop, Bool.or_eq_true, beq_iff_eq] at h
  rcases h with (rfl | rfl) | rfl <;> rfl

theorem breaksHere_untilStop (cs : List Char) : breaksHere (untilStop cs) = breaksHere cs := by
  cases cs with
  | nil => rfl
  | cons c cs =>
      unfold untilStop
      split
      next hends =>
        have hstop := (Bool.and_eq_true_iff.mp hends).1
        rw [breaksHere_of_isStop hstop, breaksHere_of_isStop hstop]
      next => exact breaksHere_cons_untilStop c cs

theorem Unbroken.untilStop (h : Unbroken cs) : Unbroken (untilStop cs) := by
  induction cs with
  | nil => exact unbroken_nil
  | cons c cs ih =>
      obtain ⟨hc, hrest⟩ := unbroken_cons_iff.mp h
      unfold Comment.untilStop
      split
      next hends =>
        have hstop := (Bool.and_eq_true_iff.mp hends).1
        exact unbroken_cons_iff.mpr ⟨by simp [breaksHere_of_isStop hstop], unbroken_nil⟩
      next =>
        refine unbroken_cons_iff.mpr ⟨?_, ih hrest⟩
        rwa [breaksHere_cons_untilStop]

/-- Spacing neither makes a block nor takes one away at a letter before. -/
theorem breaksHere_cons_collapseOn (hc : isBlank c = false) (cs : List Char) :
    breaksHere (c :: collapseOn cs) = breaksHere (c :: cs) := by
  have hword := Chars.takeWhile_collapseOn cs
  have hne : c ≠ '\n' := by
    rintro rfl
    cases hc
  rw [Bool.eq_iff_iff]
  exact ⟨breaksHere_of_alike hword fun heq => absurd heq hne,
    breaksHere_of_alike hword.symm fun heq => absurd heq hne⟩

theorem Unbroken.behind (h : Unbroken cs) : Unbroken (behind ' ' cs) := by
  cases cs with
  | nil => exact unbroken_nil
  | cons c cs => exact unbroken_cons_iff.mpr ⟨Bool.false_ne_true, h⟩

theorem Unbroken.collapse_and (h : Unbroken cs) :
    Unbroken (collapse cs) ∧ Unbroken (collapseOn cs) := by
  induction cs with
  | nil => exact ⟨unbroken_nil, unbroken_nil⟩
  | cons c cs ih =>
      obtain ⟨hbreaks, hrest⟩ := unbroken_cons_iff.mp h
      obtain ⟨hcollapse, hon⟩ := ih hrest
      cases hc : isBlank c with
      | true =>
          rw [Chars.collapse_cons_of_blank hc, Chars.collapseOn_cons_of_blank hc]
          exact ⟨hcollapse, hcollapse.behind⟩
      | false =>
          rw [Chars.collapse_cons hc, Chars.collapseOn_cons hc]
          have hcons : Unbroken (c :: collapseOn cs) :=
            unbroken_cons_iff.mpr ⟨by rwa [breaksHere_cons_collapseOn hc], hon⟩
          exact ⟨hcons, hcons⟩

/-- No sentence ends in the text before its end. -/
def Unstopped (cs : List Char) : Prop := untilStop cs = cs

theorem unstopped_nil : Unstopped [] := rfl

theorem unstopped_cons_iff : Unstopped (c :: cs) ↔
    ((isStop c && cs.head?.all isBlank) = true → cs = []) ∧ Unstopped cs := by
  unfold Unstopped
  rw [untilStop]
  split
  next hends =>
    rw [List.cons_inj_right, eq_comm]
    refine ⟨fun h => ⟨fun _ => h, h ▸ rfl⟩, fun h => h.1 hends⟩
  next hends =>
    rw [List.cons_inj_right]
    exact (and_iff_right fun h => absurd h hends).symm

theorem Unstopped.behind (h : Unstopped cs) : Unstopped (behind ' ' cs) := by
  cases cs with
  | nil => exact unstopped_nil
  | cons c cs => exact unstopped_cons_iff.mpr ⟨fun hends => absurd hends Bool.false_ne_true, h⟩

theorem Unstopped.collapse_and (h : Unstopped cs) :
    Unstopped (collapse cs) ∧ Unstopped (collapseOn cs) := by
  induction cs with
  | nil => exact ⟨unstopped_nil, unstopped_nil⟩
  | cons c cs ih =>
      obtain ⟨hends, hrest⟩ := unstopped_cons_iff.mp h
      obtain ⟨hcollapse, hon⟩ := ih hrest
      cases hc : isBlank c with
      | true =>
          rw [Chars.collapse_cons_of_blank hc, Chars.collapseOn_cons_of_blank hc]
          exact ⟨hcollapse, hcollapse.behind⟩
      | false =>
          rw [Chars.collapse_cons hc, Chars.collapseOn_cons hc]
          have hcons : Unstopped (c :: collapseOn cs) := by
            refine unstopped_cons_iff.mpr ⟨fun hstop => ?_, hon⟩
            rw [Chars.all_head?_collapseOn] at hstop
            rw [hends hstop]
            rfl
          exact ⟨hcons, hcons⟩

/-! ### First sentences -/

theorem paragraph_of_unbroken (h : Unbroken cs) : paragraph cs = cs := by
  by_cases hopens : BlockBegins cs
  · exact paragraph_of_begins hopens
  · rw [paragraph_of_not_begins hopens, h]

/-- A first sentence is one paragraph: it has no block, or it opens with one as the text does. -/
theorem paragraph_sentence (cs : List Char) : paragraph (sentence cs) = sentence cs := by
  have hflush := Chars.flush_trim cs
  unfold sentence
  generalize Chars.trim cs = text at *
  by_cases hopens : BlockBegins text
  · rw [paragraph_of_begins hopens]
    refine paragraph_of_begins (breaksHere_iff.mp ?_)
    rw [← breaksHere_iff, ← breaksHere_untilStop] at hopens
    cases hpart : untilStop text with
    | nil =>
        rw [hpart] at hopens
        cases hopens
    | cons c part =>
        have hstart := untilStop_prefix text
        have hc : isBlank c = false := Chars.flush_of_prefix hflush hstart c part hpart
        rwa [Chars.collapse_cons hc, breaksHere_cons_collapseOn hc, ← hpart]
  · rw [paragraph_of_not_begins hopens]
    exact paragraph_of_unbroken (unbroken_untilBreak text).untilStop.collapse_and.1

theorem untilStop_sentence (cs : List Char) : untilStop (sentence cs) = sentence cs :=
  (Unstopped.collapse_and (untilStop_untilStop (paragraph (Chars.trim cs)))).1

/-- The first sentence of a first sentence is all of it. -/
theorem sentence_sentence (cs : List Char) : sentence (sentence cs) = sentence cs := by
  have htight : Chars.trim (sentence cs) = sentence cs := (Chars.tight_collapse _).trim_eq
  rw [sentence, htight, paragraph_sentence, untilStop_sentence]
  exact Chars.collapse_collapse _

theorem sentence_prefix (cs : List Char) : sentence cs <+: collapse cs := by
  have hparagraph := paragraph_prefix (Chars.trim cs)
  have hsentence := untilStop_prefix (paragraph (Chars.trim cs))
  have hcollapse := Chars.collapse_prefix (hsentence.trans hparagraph)
  rwa [Chars.collapse_trim] at hcollapse

/-- **What a first sentence is.**  Only a blank text has none; it is a start of the text with single
spaces between its words; and it is its own first sentence. -/
theorem firstSentence_laws (text : String) :
    (firstSentence text = "" ↔ ∀ c ∈ text.toList, isBlank c = true) ∧
      (firstSentence text).toList <+: (Text.collapse text).toList ∧
      firstSentence (firstSentence text) = firstSentence text := by
  refine ⟨?_, ?_, ?_⟩
  · rw [firstSentence, String.ofList_eq_empty_iff, sentence_eq_nil_iff, Chars.trim_eq_nil_iff]
  · rw [firstSentence, Text.collapse, String.toList_ofList, String.toList_ofList]
    exact sentence_prefix text.toList
  · rw [firstSentence, firstSentence, String.toList_ofList, sentence_sentence]

end Comment

end TypePages
