import Mathlib
import TypePages.Comment.Sentence
import TypePages.Proofs.Ink

/-!
Where a first sentence ends, and which blocks it runs into.

A block begins at a blank line and at the opening of a block tag.  A body that begins in the middle
of a paragraph has its first sentence end before every block.  One that opens with a block tag is
not cut at that tag, which would leave nothing of it, and then it is not cut at the blocks behind it
either: only the end of a sentence keeps them out (`endsBy_iff`).
-/

namespace TypePages.Comment

open Chars (Tight ink collapse)
open Text (isBlank isWord)

variable {c : Char} {cs : List Char} {p q : Nat}

/-! ### Blocks -/

/-- A block begins at the start of the text: the line is closed and a blank one follows, or there is
the opening of a block tag, in whatever case it is written. -/
inductive BlockBegins : List Char → Prop
  | blankLine {blanks rest : List Char} (hblanks : ∀ c ∈ blanks, isBlank c = true) :
      BlockBegins ('\n' :: (blanks ++ '\n' :: rest))
  | tag {name rest : List Char} (hname : name.map foldTagChar ∈ blockTags)
      (hend : ∀ c, rest.head? = some c → isWord c = false) : BlockBegins ('<' :: (name ++ rest))

theorem isAlphanum_of_toLower (h : c.toLower.isAlphanum = true) : c.isAlphanum = true := by
  by_cases hupper : c.isUpper = true
  · simp [Char.isAlphanum, Char.isAlpha, hupper]
  · rwa [Char.toLower_eq_of_not_isUpper hupper] at h

/-- The name of a block tag is a word. -/
theorem isWord_of_mem_name {name : List Char} (h : name.map foldTagChar ∈ blockTags)
    (hc : c ∈ name) : isWord c = true := by
  have hall : blockTags.all (·.all Char.isAlphanum) = true := by decide
  have hfold := List.all_eq_true.mp (List.all_eq_true.mp hall _ h) _ (List.mem_map_of_mem hc)
  unfold foldTagChar at hfold
  split at hfold
  next hkelvin =>
    rw [← Char.ofNat_toNat c, hkelvin]
    decide +kernel
  · exact Text.isWord_of_isAlphanum (isAlphanum_of_toLower hfold)

theorem takeWhile_of_head?_not {p : Char → Bool} (h : ∀ c, cs.head? = some c → p c = false) :
    cs.takeWhile p = [] := by
  cases cs with
  | nil => rfl
  | cons c cs => exact List.takeWhile_cons_of_neg (by simp [h c rfl])

theorem breaksHere_iff : breaksHere cs = true ↔ BlockBegins cs := by
  constructor
  · intro h
    unfold breaksHere at h
    split at h
    next rest =>
      obtain ⟨blanks, after, hblanks⟩ := List.append_of_mem (List.contains_iff_mem.mp h)
      have hrest : rest = blanks ++ '\n' :: (after ++ rest.dropWhile isBlank) := by
        rw [← List.cons_append, ← List.append_assoc, ← hblanks, List.takeWhile_append_dropWhile]
      rw [hrest]
      refine .blankLine fun c hc => List.mem_takeWhile_imp (l := rest) ?_
      rw [hblanks]
      exact List.mem_append_left _ hc
    next rest =>
      rw [← List.takeWhile_append_dropWhile (p := isWord) (l := rest)]
      refine .tag (List.contains_iff_mem.mp h) fun c hc => ?_
      have hnot := List.head?_dropWhile_not isWord rest
      rw [hc] at hnot
      exact hnot
    · cases h
  · intro h
    cases h with
    | blankLine hblanks =>
        rw [breaksHere, List.takeWhile_append_of_pos hblanks, List.takeWhile_cons_of_pos (by decide)]
        exact List.contains_iff_mem.mpr (List.mem_append_right _ List.mem_cons_self)
    | tag hname hend =>
        rw [breaksHere, List.takeWhile_append_of_pos fun c hc => isWord_of_mem_name hname hc,
          takeWhile_of_head?_not hend, List.append_nil]
        exact List.contains_iff_mem.mpr hname

theorem BlockBegins.ne_nil (h : BlockBegins cs) : cs ≠ [] := by
  rintro rfl
  cases h

/-! ### The first block -/

theorem untilBreak_of_begins (h : BlockBegins cs) : untilBreak cs = [] := by
  cases cs with
  | nil => rfl
  | cons c cs => exact if_pos (breaksHere_iff.mpr h)

theorem untilBreak_cons (h : ¬BlockBegins (c :: cs)) : untilBreak (c :: cs) = c :: untilBreak cs :=
  if_neg fun hbreaks => h (breaksHere_iff.mp hbreaks)

/-- What is kept up to the first block lies before every block. -/
theorem length_untilBreak_le (h : BlockBegins (cs.drop p)) : (untilBreak cs).length ≤ p := by
  induction cs generalizing p with
  | nil => exact Nat.zero_le p
  | cons c cs ih =>
      by_cases hc : BlockBegins (c :: cs)
      · rw [untilBreak_of_begins hc]
        exact Nat.zero_le p
      · cases p with
        | zero => exact absurd h hc
        | succ p =>
            rw [untilBreak_cons hc]
            exact Nat.succ_le_succ (ih h)

/-- A body that opens with a block is not cut at all. -/
theorem paragraph_of_begins (h : BlockBegins cs) : paragraph cs = cs := by
  rw [paragraph, untilBreak_of_begins h]

theorem paragraph_of_not_begins (h : ¬BlockBegins cs) : paragraph cs = untilBreak cs := by
  cases cs with
  | nil => rfl
  | cons c cs => rw [paragraph, untilBreak_cons h]

/-! ### The first full stop -/

/-- A sentence ends with the first `q` characters: the last of them is a mark that ends sentences,
and a blank or nothing follows. -/
def SentenceEnds (cs : List Char) (q : Nat) : Prop :=
  ∃ before c after, cs = before ++ c :: after ∧ isStop c = true ∧
    (∀ d, after.head? = some d → isBlank d = true) ∧ q = before.length + 1

theorem all_head?_iff {after : List Char} :
    after.head?.all isBlank = true ↔ ∀ d, after.head? = some d → isBlank d = true := by
  cases after with
  | nil => simp
  | cons d after => simp

/-- The text goes on up to where its first sentence ends, or to its end. -/
theorem untilStop_eq_or (cs : List Char) : untilStop cs = cs ∨
    ∃ before c, untilStop cs = before ++ [c] ∧ isStop c = true ∧
      SentenceEnds cs (untilStop cs).length := by
  induction cs with
  | nil => exact .inl rfl
  | cons c cs ih =>
      unfold untilStop
      split
      next hends =>
        obtain ⟨hstop, hafter⟩ := Bool.and_eq_true_iff.mp hends
        exact .inr ⟨[], c, rfl, hstop, [], c, cs, rfl, hstop, all_head?_iff.mp hafter, rfl⟩
      next =>
        rcases ih with hall | ⟨before, d, heq, hd, start, e, after, hcs, hstop, hafter, hlength⟩
        · exact .inl (by rw [hall])
        · refine .inr ⟨c :: before, d, by rw [heq, List.cons_append], hd, c :: start, e, after, ?_,
            hstop, hafter, ?_⟩
          · rw [List.cons_append, ← hcs]
          · rw [List.length_cons, hlength, List.length_cons]

/-- No more is kept than a sentence that ends. -/
theorem length_untilStop_le (h : SentenceEnds cs q) : (untilStop cs).length ≤ q := by
  obtain ⟨before, c, after, rfl, hstop, hafter, rfl⟩ := h
  induction before with
  | nil =>
      have hends : (isStop c && after.head?.all isBlank) = true := by
        rw [hstop, all_head?_iff.mpr hafter, Bool.and_self]
      rw [List.nil_append, untilStop, if_pos hends]
      exact Nat.le_refl 1
  | cons d before ih =>
      rw [List.cons_append, untilStop]
      split
      · exact Nat.succ_le_succ (Nat.zero_le _)
      · exact Nat.succ_le_succ ih

theorem isBlank_of_isStop (h : isStop c = true) : isBlank c = false := by
  simp only [isStop, Bool.or_eq_true, beq_iff_eq] at h
  rcases h with (rfl | rfl) | rfl <;> rfl

/-- A sentence of a tight text does not end in a blank. -/
theorem last_untilStop (h : Tight cs) (hc : (untilStop cs).getLast? = some c) :
    isBlank c = false := by
  rcases untilStop_eq_or cs with hall | ⟨before, d, heq, hd, -⟩
  · exact h.last c (hall ▸ hc)
  · rw [heq, List.getLast?_concat, Option.some.injEq] at hc
    rw [← hc]
    exact isBlank_of_isStop hd

/-! ### Sentences and blocks -/

/-- The first sentence is told by a start of the trimmed body that ends at or before a position. -/
def EndsBy (body : String) (p : Nat) : Prop :=
  ∃ part, part <+: Chars.trim body.toList ∧ part.length ≤ p ∧
    (firstSentence body).toList = collapse part

theorem toList_firstSentence (body : String) : (firstSentence body).toList =
    collapse (untilStop (paragraph (Chars.trim body.toList))) := by
  rw [firstSentence, String.toList_ofList, sentence]

/-- Texts of which collapsing leaves the same differ in blanks only. -/
theorem length_le_of_collapse_eq {xs ys : List Char} (hstart : xs <+: ys)
    (hlast : ∀ c, ys.getLast? = some c → isBlank c = false) (h : collapse ys = collapse xs) :
    ys.length ≤ xs.length := by
  obtain ⟨tail, rfl⟩ := hstart
  have hink : ink tail = [] := by
    have heq := congrArg ink h
    rw [Chars.ink_collapse, Chars.ink_collapse, Chars.ink_append] at heq
    exact List.append_right_eq_self.mp heq
  cases htail : tail.getLast? with
  | none => rw [List.getLast?_eq_none_iff.mp htail, List.append_nil]
  | some c =>
      have hc : c ∈ ink tail := by
        refine List.mem_filter.mpr ⟨List.mem_of_getLast? htail, ?_⟩
        rw [hlast c (by rw [List.getLast?_append, htail, Option.some_or]), Bool.not_false]
      rw [hink] at hc
      cases hc

/-- **Where the first sentence ends.**  It ends at or before a block that begins in the body, unless
the body opens with a block and no sentence ends before that other one begins. -/
theorem endsBy_iff {body : String} (hblock : BlockBegins ((Chars.trim body.toList).drop p)) :
    EndsBy body p ↔ ¬BlockBegins (Chars.trim body.toList) ∨
      ∃ q ≤ p, SentenceEnds (Chars.trim body.toList) q := by
  have htight := Chars.tight_trim body.toList
  unfold EndsBy
  rw [toList_firstSentence]
  generalize Chars.trim body.toList = cs at *
  by_cases hopens : BlockBegins cs
  · rw [paragraph_of_begins hopens, or_iff_right (not_not.mpr hopens)]
    have hcut := untilStop_prefix cs
    constructor
    · rintro ⟨part, hstart, hpart, heq⟩
      rcases Nat.lt_or_ge p (untilStop cs).length with hlt | hle
      · have hparts : part <+: untilStop cs :=
          List.prefix_of_prefix_length_le hstart hcut (by omega)
        have := length_le_of_collapse_eq hparts (fun c hc => last_untilStop htight hc) heq
        omega
      · have hinside : p < cs.length := by
          by_contra hend
          exact hblock.ne_nil (List.drop_eq_nil_of_le (Nat.le_of_not_lt hend))
        rcases untilStop_eq_or cs with hall | ⟨-, -, -, -, hends⟩
        · rw [hall] at hle
          omega
        · exact ⟨_, hle, hends⟩
    · rintro ⟨q, hqp, hends⟩
      exact ⟨_, hcut, (length_untilStop_le hends).trans hqp, rfl⟩
  · rw [paragraph_of_not_begins hopens]
    have hparagraph := untilBreak_prefix cs
    have hsentence := untilStop_prefix (untilBreak cs)
    exact iff_of_true ⟨_, hsentence.trans hparagraph,
      hsentence.length_le.trans (length_untilBreak_le hblock), rfl⟩ (.inl hopens)

/-- The body opens with a block tag, and its first sentence ends before the blank line. -/
theorem endsBy_fullStop : BlockBegins ("<p>Intro. Then\n\nDetails.".toList.drop 14) ∧
    EndsBy "<p>Intro. Then\n\nDetails." 14 := by
  have hblock : BlockBegins ((Chars.trim "<p>Intro. Then\n\nDetails.".toList).drop 14) :=
    breaksHere_iff.mp (by decide)
  have hends : SentenceEnds (Chars.trim "<p>Intro. Then\n\nDetails.".toList) 9 :=
    ⟨"<p>Intro".toList, '.', " Then\n\nDetails.".toList, by decide, by decide,
      fun d hd => by cases hd; decide, by decide⟩
  exact ⟨hblock, (endsBy_iff hblock).mpr (.inr ⟨9, by decide, hends⟩)⟩

/-- With no full stop before the blank line, the paragraph behind it is in the first sentence. -/
theorem paragraphs_merged : BlockBegins ("<p>Intro\n\nDetails.".toList.drop 8) ∧
    firstSentence "<p>Intro\n\nDetails." = "<p>Intro Details." ∧
    ¬EndsBy "<p>Intro\n\nDetails." 8 := by
  refine ⟨breaksHere_iff.mp (by decide), by decide, ?_⟩
  rintro ⟨part, hstart, hpart, heq⟩
  have hink : 'D' ∈ ink part := by
    rw [← Chars.ink_collapse, ← heq]
    decide
  have hmem : 'D' ∈ (Chars.trim "<p>Intro\n\nDetails.".toList).take 8 :=
    (List.prefix_take_iff.mpr ⟨hstart, hpart⟩).subset (List.mem_filter.mp hink).1
  exact absurd hmem (by decide)

end TypePages.Comment
