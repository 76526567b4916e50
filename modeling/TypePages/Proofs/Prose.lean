import TypePages.Comment.Reader
import TypePages.Proofs.Lines

/-!
Comments that are written as prose and read again.

Reading cuts prose into lines, and every line that opens no tag goes to the body or to the tag
before it: `sections_of_opens` says so for both alike, because the text of a tag goes on for as long
as a body would.  What has been read is tidy.  The body is a tight text of lines that open no tag,
and a tag's text is a tight text of tight lines, of which only the first, which stands behind the
name, may look like a tag of its own.  Nothing else is needed for reading to find the same comment
in what is written of it.
-/

namespace TypePages

namespace Text

/-- The code points of the blank characters. -/
def blankCodes : List Nat :=
  [9, 10, 11, 12, 13, 28, 29, 30, 31, 32, 0x85, 0xA0, 0x1680, 0x2000, 0x2001, 0x2002, 0x2003,
    0x2004, 0x2005, 0x2006, 0x2007, 0x2008, 0x2009, 0x200A, 0x2028, 0x2029, 0x202F, 0x205F, 0x3000]

theorem toNat_mem_blankCodes {c : Char} (h : isBlank c = true) : c.toNat ∈ blankCodes := by
  simp only [isBlank] at h
  simp only [blankCodes, List.mem_cons, List.not_mem_nil, or_false]
  split at h <;>
    simp only [Bool.or_eq_true, Bool.and_eq_true, decide_eq_true_eq, beq_iff_eq] at h <;> omega

/-- No blank stands in a word. -/
theorem isBlank_of_isWord {c : Char} (h : isWord c = true) : isBlank c = false := by
  by_contra hblank
  have hcodes : ∀ n ∈ blankCodes, isWord (Char.ofNat n) = false := by decide +kernel
  have hc := hcodes _ (toNat_mem_blankCodes (by simpa using hblank))
  rw [Char.ofNat_toNat, h] at hc
  cases hc

end Text

namespace Comment

open Chars
open Text (isBlank isLineEnd isWord)

variable {c : Char} {cs l name text xs ys : List Char} {ls ls' : List (List Char)}
  {tag : List Char × List Char} {tags : List (List Char × List Char)} {body : List Char}

/-! ### Lines that open a tag -/

/-- A line opens a tag when an at sign and a word character come first. -/
theorem openedTag?_eq_none_iff : openedTag? l = none ↔
    ∀ c rest, trimStart l = '@' :: c :: rest → isWord c = false := by
  unfold openedTag?
  split
  next rest h =>
    rw [h]
    cases rest with
    | nil => simp
    | cons d rest =>
        cases hd : isWord d with
        | true => simp [hd]
        | false => simp [hd]
  next hne =>
    refine iff_of_true rfl fun c rest h => ?_
    exact absurd h (hne (c :: rest))

theorem openedTag?_trimStart (l : List Char) : openedTag? (trimStart l) = openedTag? l := by
  have hidem : trimStart (trimStart l) = trimStart l := List.dropWhile_idempotent isBlank l
  unfold openedTag?
  rw [hidem]

theorem openedTag?_blank_cons (h : isBlank c = true) (l : List Char) :
    openedTag? (c :: l) = openedTag? l := by
  rw [← openedTag?_trimStart (c :: l), trimStart, List.dropWhile_cons_of_pos h]
  exact openedTag?_trimStart l

/-- A line that opens no tag opens none when it is cut short. -/
theorem openedTag?_start (h : openedTag? l = none) (hstart : xs <+: l) :
    openedTag? xs = none := by
  rw [openedTag?_eq_none_iff] at h ⊢
  intro c rest hxs
  obtain ⟨tail, rfl⟩ := hstart
  refine h c (rest ++ tail) ?_
  have hne : ¬(xs.dropWhile isBlank).isEmpty = true := by
    rw [show xs.dropWhile isBlank = '@' :: c :: rest from hxs]
    exact Bool.false_ne_true
  rw [trimStart, List.dropWhile_append, if_neg hne, show xs.dropWhile isBlank = _ from hxs]
  rfl

theorem openedTag?_trim (h : openedTag? l = none) : openedTag? (trim l) = none := by
  rw [← openedTag?_trimStart] at h
  exact openedTag?_start h (List.rdropWhile_prefix _ _)

/-! ### Reading lines -/

/-- The text of a tag with further lines. -/
def continued (text : List Char) (ls : List (List Char)) : List Char :=
  ls.foldl (fun text l => trim (text ++ '\n' :: trim l)) text

theorem sections_of_silent (h : openedTag? l = none) (ls : List (List Char)) :
    sections (l :: ls) = (l :: (sections ls).1, (sections ls).2) := by
  rw [sections, h]

/-- A tag goes on with the lines that would be the body if the text started behind it. -/
theorem tagsFrom_eq (name text : List Char) (ls : List (List Char)) :
    tagsFrom name text ls = (name, continued text (sections ls).1) :: (sections ls).2 := by
  induction ls generalizing name text with
  | nil => rfl
  | cons l ls ih =>
      rw [tagsFrom, sections]
      cases h : openedTag? l with
      | none => exact ih name _
      | some found => rfl

theorem sections_of_opens (h : openedTag? l = some (name, text)) (ls : List (List Char)) :
    sections (l :: ls) = ([], (name, continued text (sections ls).1) :: (sections ls).2) := by
  rw [sections, h]
  exact congrArg (Prod.mk []) (tagsFrom_eq name text ls)

theorem sections_append (h : ∀ l ∈ ls, openedTag? l = none) (ls' : List (List Char)) :
    sections (ls ++ ls') = (ls ++ (sections ls').1, (sections ls').2) := by
  induction ls with
  | nil => rfl
  | cons l ls ih =>
      rw [List.cons_append, sections_of_silent (h l List.mem_cons_self),
        ih fun x hx => h x (List.mem_cons_of_mem _ hx)]
      rfl

/-! ### What reading leaves: bodies -/

/-- The text consists of lines that open no tag. -/
inductive Silent : List Char → Prop
  | line {l : List Char} (hline : IsLine l) (h : openedTag? l = none) : Silent l
  | newline {l cs : List Char} (hline : IsLine l) (h : openedTag? l = none) (rest : Silent cs) :
      Silent (l ++ '\n' :: cs)

theorem silent_joined (h : ∀ l ∈ ls, IsLine l ∧ openedTag? l = none) : Silent (joined ls) := by
  induction ls with
  | nil => exact .line (fun c hc => absurd hc List.not_mem_nil) rfl
  | cons l ls ih =>
      obtain ⟨hline, hl⟩ := h l List.mem_cons_self
      cases ls with
      | nil =>
          rw [joined_singleton]
          exact .line hline hl
      | cons l' ls =>
          rw [joined_cons_cons]
          exact .newline hline hl (ih fun x hx => h x (List.mem_cons_of_mem _ hx))

theorem Silent.unified (h : Silent cs) : Unified cs := by
  induction h with
  | line hline _ => exact hline.unified
  | newline hline _ _ ih => exact hline.unified.append_newline ih

theorem Silent.openedTag?_eq_none (h : Silent cs) (hl : l ∈ lines cs) : openedTag? l = none := by
  induction h with
  | @line l₀ hline hsilent =>
      by_cases hne : l₀ = []
      · rw [hne] at hl
        cases hl
      · rw [lines_of_isLine hline hne, List.mem_singleton] at hl
        rwa [hl]
  | newline hline hsilent _ ih =>
      rw [lines_line_append hline] at hl
      rcases List.mem_cons.mp hl with rfl | hl
      · exact hsilent
      · exact ih hl

/-- A blank in front may be dropped, even if it ends a line. -/
theorem Silent.of_blank_cons (h : Silent (c :: cs)) (hc : isBlank c = true) : Silent cs := by
  generalize htext : c :: cs = text at h
  cases h with
  | line hline hsilent =>
      rw [← htext] at hline hsilent
      exact .line (fun d hd => hline d (List.mem_cons_of_mem _ hd))
        (openedTag?_blank_cons hc cs ▸ hsilent)
  | @newline l rest hline hsilent hrest =>
      cases l with
      | nil =>
          rw [(List.cons.inj htext).2]
          exact hrest
      | cons d l =>
          obtain ⟨rfl, rfl⟩ := List.cons.inj htext
          exact .newline (fun e he => hline e (List.mem_cons_of_mem _ he))
            (openedTag?_blank_cons hc l ▸ hsilent) hrest

theorem Silent.trimStart (h : Silent cs) : Silent (trimStart cs) := by
  induction cs with
  | nil => exact h
  | cons c cs ih =>
      by_cases hc : isBlank c = true
      · rw [Chars.trimStart, List.dropWhile_cons_of_pos hc]
        exact ih (h.of_blank_cons hc)
      · rwa [Chars.trimStart, List.dropWhile_cons_of_neg hc]

theorem Silent.start (h : Silent cs) (hstart : xs <+: cs) : Silent xs := by
  -- A line cut short is a line that opens no tag.
  have hcut : ∀ {l xs}, IsLine l → openedTag? l = none → xs <+: l → Silent xs :=
    fun hline hsilent hxs =>
      .line (fun c hc => hline c (hxs.subset hc)) (openedTag?_start hsilent hxs)
  induction h generalizing xs with
  | line hline hsilent => exact hcut hline hsilent hstart
  | newline hline hsilent _ ih =>
      obtain ⟨tail, htail⟩ := hstart
      rcases List.append_eq_append_iff.mp htail with ⟨ys, hl, -⟩ | ⟨ys, rfl, hys⟩
      · exact hcut hline hsilent ⟨ys, hl.symm⟩
      · cases ys with
        | nil => exact hcut hline hsilent ⟨[], by rw [List.append_nil, List.append_nil]⟩
        | cons d ys =>
            obtain ⟨rfl, hcs⟩ := List.cons.inj hys
            exact .newline hline hsilent (ih ⟨tail, hcs.symm⟩)

/-- Trimming a text of lines that open no tag brings none to light. -/
theorem Silent.trim (h : Silent cs) : Silent (trim cs) :=
  h.trimStart.start (List.rdropWhile_prefix _ _)

/-! ### What reading leaves: tags -/

/-- The text is that of a tag: its lines are tight, and none of them but the first opens a tag. -/
structure TagText (text : List Char) : Prop where
  unified : Unified text
  tight : Tight text
  line : ∀ l ∈ lines text, Tight l ∧ l ≠ []
  silent : ∀ l ∈ (lines text).tail, openedTag? l = none

theorem tagText_of_isLine (hline : IsLine l) (h : Tight l) : TagText l := by
  by_cases hne : l = []
  · subst hne
    exact ⟨hline.unified, h, nofun, nofun⟩
  · have hlines : lines l = [l] := lines_of_isLine hline hne
    refine ⟨hline.unified, h, fun x hx => ?_, fun x hx => ?_⟩
    · rw [hlines, List.mem_singleton] at hx
      exact hx ▸ ⟨h, hne⟩
    · rw [hlines] at hx
      cases hx

/-- A tag's text remains one when it goes on with a line that opens no tag. -/
theorem TagText.append_line (h : TagText text) (hline : IsLine l) (hl : openedTag? l = none) :
    TagText (trim (text ++ '\n' :: trim l)) := by
  have hword : TagText (trim l) := tagText_of_isLine hline.trim (tight_trim l)
  by_cases htext : text = []
  · rwa [htext, List.nil_append, trim_cons_of_blank (by decide), (tight_trim l).trim_eq]
  by_cases hempty : trim l = []
  · rwa [hempty, trim_concat_of_blank (by decide), h.tight.trim_eq]
  have htight : Tight (text ++ '\n' :: trim l) := by
    have happend := h.tight.append htext (tight_trim l) hempty ['\n']
    rwa [List.append_assoc, List.singleton_append] at happend
  have hlines : lines (text ++ '\n' :: trim l) = lines text ++ [trim l] := by
    rw [lines_append_newline h.unified htext h.tight.getLast?_ne, lines_of_isLine hline.trim hempty]
  rw [htight.trim_eq]
  refine ⟨h.unified.append_newline hline.trim.unified, htight, fun x hx => ?_, fun x hx => ?_⟩
  · rw [hlines, List.mem_append, List.mem_singleton] at hx
    rcases hx with hx | rfl
    · exact h.line x hx
    · exact ⟨tight_trim l, hempty⟩
  · rw [hlines, List.tail_append_of_ne_nil (lines_ne_nil htext), List.mem_append,
      List.mem_singleton] at hx
    rcases hx with hx | rfl
    · exact h.silent x hx
    · exact openedTag?_trim hl

theorem TagText.continued (h : TagText text) (hls : ∀ l ∈ ls, IsLine l ∧ openedTag? l = none) :
    TagText (continued text ls) := by
  induction ls generalizing text with
  | nil => exact h
  | cons l ls ih =>
      obtain ⟨hline, hl⟩ := hls l List.mem_cons_self
      exact ih (h.append_line hline hl) fun x hx => hls x (List.mem_cons_of_mem _ hx)

/-- The name and the text are those of a tag. -/
structure IsTag (tag : List Char × List Char) : Prop where
  name_ne : tag.1 ≠ []
  word : ∀ c ∈ tag.1, isWord c = true
  text : TagText tag.2

/-- A line that opens a tag gives its name and the first line of its text. -/
theorem isTag_of_openedTag? (hline : IsLine l) (h : openedTag? l = some tag) : IsTag tag := by
  unfold openedTag? at h
  split at h
  next rest hrest =>
    dsimp only at h
    split at h
    next => cases h
    next hne =>
      cases h
      have hrestLine : IsLine rest := fun c hc =>
        hline c ((List.dropWhile_sublist _).subset (hrest ▸ List.mem_cons_of_mem _ hc))
      refine ⟨by simpa using hne, fun c hc => List.mem_takeWhile_imp hc, ?_⟩
      exact tagText_of_isLine (fun c hc => hrestLine c
        ((List.dropWhile_sublist _).subset (mem_of_mem_trim hc))) (tight_trim _)
  next => cases h

theorem of_mem_sections_body (h : ∀ l ∈ ls, IsLine l) :
    ∀ l ∈ (sections ls).1, IsLine l ∧ openedTag? l = none := by
  induction ls with
  | nil => nofun
  | cons l ls ih =>
      cases hl : openedTag? l with
      | some tag =>
          rw [sections_of_opens hl]
          nofun
      | none =>
          rw [sections_of_silent hl]
          intro x hx
          rcases List.mem_cons.mp hx with rfl | hx
          · exact ⟨h x List.mem_cons_self, hl⟩
          · exact ih (fun y hy => h y (List.mem_cons_of_mem _ hy)) x hx

theorem isTag_of_mem_sections (h : ∀ l ∈ ls, IsLine l) : ∀ tag ∈ (sections ls).2, IsTag tag := by
  induction ls with
  | nil => nofun
  | cons l ls ih =>
      have hrest : ∀ x ∈ ls, IsLine x := fun x hx => h x (List.mem_cons_of_mem _ hx)
      cases hl : openedTag? l with
      | none =>
          rw [sections_of_silent hl]
          exact ih hrest
      | some opened =>
          rw [sections_of_opens hl]
          intro tag htag
          rcases List.mem_cons.mp htag with rfl | htag
          · have hopened : IsTag opened := isTag_of_openedTag? (h l List.mem_cons_self) hl
            exact ⟨hopened.name_ne, hopened.word,
              hopened.text.continued (of_mem_sections_body hrest)⟩
          · exact ih hrest tag htag

/-! ### Reading what is written -/

/-- A tag as it is written: its name behind an at sign, and its text. -/
def writtenTag (tag : List Char × List Char) : List Char := '@' :: tag.1 ++ ' ' :: tag.2

/-- Tags as they are written, each starting a line. -/
def writtenTags (tags : List (List Char × List Char)) : List Char := joined (tags.map writtenTag)

theorem IsTag.isLine (h : IsTag tag) : IsLine ('@' :: tag.1) := by
  intro c hc
  rcases List.mem_cons.mp hc with rfl | hc
  · rfl
  · by_contra hend
    have hblank : isBlank c = true := Text.isBlank_of_isLineEnd (by simpa using hend)
    rw [Text.isBlank_of_isWord (h.word c hc)] at hblank
    cases hblank

/-- A tag's name and whatever stands behind it are found again. -/
theorem IsTag.openedTag?_eq (h : IsTag tag) (hrest : ∀ c, cs.head? = some c → isWord c = false) :
    openedTag? ('@' :: tag.1 ++ cs) = some (tag.1, trim cs) := by
  have hat : trimStart ('@' :: tag.1 ++ cs) = '@' :: (tag.1 ++ cs) :=
    List.dropWhile_cons_of_neg (by decide)
  have hcs : cs.takeWhile isWord = [] ∧ cs.dropWhile isWord = cs := by
    cases cs with
    | nil => exact ⟨rfl, rfl⟩
    | cons c cs =>
        have hc : ¬isWord c = true := by simp [hrest c rfl]
        exact ⟨List.takeWhile_cons_of_neg hc, List.dropWhile_cons_of_neg hc⟩
  have htake : (tag.1 ++ cs).takeWhile isWord = tag.1 := by
    rw [List.takeWhile_append_of_pos h.word, hcs.1, List.append_nil]
  have hdrop : (tag.1 ++ cs).dropWhile isWord = cs := by
    rw [List.dropWhile_append_of_pos h.word, hcs.2]
  have hne : tag.1.isEmpty = false := List.isEmpty_eq_false_iff.mpr h.name_ne
  unfold openedTag?
  simp only [hat, htake, hdrop, hne]
  rfl

/-- Tight lines are joined by reading them on. -/
theorem continued_eq_joined (htext : Tight text) (hne : text ≠ [])
    (h : ∀ l ∈ ls, Tight l ∧ l ≠ []) : continued text ls = joined (text :: ls) := by
  induction ls generalizing text with
  | nil => exact (joined_singleton text).symm
  | cons l ls ih =>
      obtain ⟨hl, hlne⟩ := h l List.mem_cons_self
      have htight : Tight (text ++ '\n' :: l) := by
        have happend := htext.append hne hl hlne ['\n']
        rwa [List.append_assoc, List.singleton_append] at happend
      calc continued text (l :: ls)
          = continued (trim (text ++ '\n' :: trim l)) ls := rfl
        _ = continued (text ++ '\n' :: l) ls := by rw [hl.trim_eq, htight.trim_eq]
        _ = joined ((text ++ '\n' :: l) :: ls) :=
          ih htight (by simp) fun x hx => h x (List.mem_cons_of_mem _ hx)
        _ = joined (text :: l :: ls) := by
          rw [joined, joined, intercalate_cons, intercalate_cons, List.flatMap_cons]
          simp

/-- The lines of a tag's text give the text when they are read on from the first. -/
theorem TagText.continued_lines (h : TagText text) :
    Comment.continued ((lines text).headD []) (lines text).tail = text := by
  cases hlines : lines text with
  | nil =>
      by_contra hne
      exact lines_ne_nil (fun hnil => hne hnil.symm) hlines
  | cons first rest =>
      obtain ⟨hfirst, hne⟩ := h.line first (hlines ▸ List.mem_cons_self)
      have hrest : ∀ l ∈ rest, Tight l ∧ l ≠ [] := fun l hl =>
        h.line l (hlines ▸ List.mem_cons_of_mem _ hl)
      rw [List.headD_cons, List.tail_cons, continued_eq_joined hfirst hne hrest, ← hlines]
      exact joined_lines h.unified h.tight.getLast?_ne

/-- A written tag in front of lines of which the first opens a tag is read as the tag. -/
theorem IsTag.sections_append (h : IsTag tag) (hls : (sections ls).1 = []) :
    sections (lines (writtenTag tag) ++ ls) = ([], tag :: (sections ls).2) := by
  obtain ⟨name, text⟩ := tag
  have hspace : IsLine ('@' :: name ++ [' ']) := fun c hc => by
    rcases List.mem_append.mp hc with hc | hc
    · exact h.isLine c hc
    · rw [List.mem_singleton.mp hc]
      rfl
  have hlines : lines (writtenTag (name, text))
      = ('@' :: name ++ ' ' :: (lines text).headD []) :: (lines text).tail := by
    have hfront := lines_isLine_append hspace (by simp) text
    simpa [writtenTag] using hfront
  have hfirst : Tight ((lines text).headD []) := by
    cases hl : lines text with
    | nil => exact tight_nil
    | cons first rest => exact (h.text.line first (hl ▸ List.mem_cons_self)).1
  have hopened : openedTag? ('@' :: name ++ ' ' :: (lines text).headD [])
      = some (name, trim (' ' :: (lines text).headD [])) :=
    h.openedTag?_eq fun c hc => by
      rw [← Option.some.inj hc]
      decide
  rw [trim_cons_of_blank (by decide), hfirst.trim_eq] at hopened
  rw [hlines, List.cons_append, sections_of_opens hopened,
    Comment.sections_append h.text.silent, hls, List.append_nil, h.text.continued_lines]

theorem IsTag.unified_writtenTag (h : IsTag tag) : Unified (writtenTag tag) := by
  intro c hc hend
  rcases List.mem_append.mp hc with hc | hc
  · exact h.isLine.unified c hc hend
  · rcases List.mem_cons.mp hc with rfl | hc
    · cases hend
    · exact h.text.unified c hc hend

/-- Before the end of the text a written tag is divided from what follows by its newline. -/
theorem IsTag.lines_append (h : IsTag tag) (cs : List Char) :
    lines (writtenTag tag ++ '\n' :: cs) = lines (writtenTag tag) ++ lines cs := by
  refine lines_append_newline h.unified_writtenTag (List.cons_ne_nil _ _) ?_ cs
  rw [writtenTag, List.getLast?_append_of_ne_nil _ (List.cons_ne_nil _ _)]
  by_cases htext : tag.2 = []
  · rw [htext]
    decide
  · rw [← List.singleton_append, List.getLast?_append_of_ne_nil _ htext]
    exact h.text.tight.getLast?_ne

/-- At the end of the text a written tag without a text loses the space behind its name. -/
theorem IsTag.sections_trimEnd (h : IsTag tag) :
    sections (lines (trimEnd (writtenTag tag))) = ([], [tag]) := by
  obtain ⟨name, text⟩ := tag
  by_cases htext : text = []
  · subst htext
    have hname : trimEnd (writtenTag (name, [])) = '@' :: name := by
      have hblank : ∀ c ∈ '@' :: name, ¬isBlank c = true := by
        intro c hc
        rcases List.mem_cons.mp hc with rfl | hc
        · decide
        · simp [Text.isBlank_of_isWord (h.word c hc)]
      rw [← dropWhileEnd_of_forall hblank]
      exact List.rdropWhile_concat_pos _ _ _ (by decide)
    have hopened : openedTag? ('@' :: name ++ []) = some (name, []) := h.openedTag?_eq nofun
    rw [List.append_nil] at hopened
    rw [hname, lines_of_isLine h.isLine (List.cons_ne_nil _ _), sections_of_opens hopened]
    rfl
  · have htrim : trimEnd text = text := h.text.tight.trimEnd_eq
    have hkeep : trimEnd (writtenTag (name, text)) = writtenTag (name, text) := by
      have happend := trimEnd_append_cons (htrim.symm ▸ htext) ('@' :: name) ' '
      rwa [htrim] at happend
    have hread : sections (lines (writtenTag (name, text)) ++ []) = ([], [(name, text)]) :=
      h.sections_append rfl
    rwa [List.append_nil, ← hkeep] at hread

/-- Whatever the first tag is, an at sign comes first. -/
theorem exists_writtenTags (h : tags ≠ []) : ∃ rest, writtenTags tags = '@' :: rest := by
  obtain ⟨tag, tags, rfl⟩ := List.exists_cons_of_ne_nil h
  exact ⟨_, intercalate_cons ['\n'] (writtenTag tag) (tags.map writtenTag)⟩

theorem trimStart_writtenTags (tags : List (List Char × List Char)) :
    trimStart (writtenTags tags) = writtenTags tags := by
  by_cases h : tags = []
  · rw [h]
    rfl
  · obtain ⟨rest, hrest⟩ := exists_writtenTags h
    rw [hrest]
    exact List.dropWhile_cons_of_neg (by decide)

theorem trimEnd_writtenTags_ne_nil (h : tags ≠ []) : trimEnd (writtenTags tags) ≠ [] := by
  obtain ⟨rest, hrest⟩ := exists_writtenTags h
  intro hnil
  have hblank := List.rdropWhile_eq_nil_iff.mp hnil '@' (hrest ▸ List.mem_cons_self)
  cases hblank

/-- Written tags are read as the tags. -/
theorem sections_writtenTags (h : ∀ tag ∈ tags, IsTag tag) :
    sections (lines (trimEnd (writtenTags tags))) = ([], tags) := by
  induction tags with
  | nil => rfl
  | cons tag tags ih =>
      have htag : IsTag tag := h tag List.mem_cons_self
      have ih := ih fun x hx => h x (List.mem_cons_of_mem _ hx)
      by_cases hnil : tags = []
      · subst hnil
        rw [writtenTags, List.map_singleton, joined_singleton]
        exact htag.sections_trimEnd
      · have hjoined : writtenTags (tag :: tags) = writtenTag tag ++ '\n' :: writtenTags tags :=
          joined_cons (by simpa using hnil) _
        rw [hjoined, trimEnd_append_cons (trimEnd_writtenTags_ne_nil hnil), htag.lines_append,
          htag.sections_append (by rw [ih]), ih]

/-- The parts of a comment's prose. -/
def parts (body : List Char) (tags : List (List Char × List Char)) : List (List Char) :=
  (if body = [] then [] else [body]) ++ tags.map writtenTag

/-- A body and tags that reading leaves are read again from what is written of them. -/
theorem sections_parts (hbody : Silent body) (htight : Tight body) (h : ∀ tag ∈ tags, IsTag tag) :
    sections (lines (trim (joined (parts body tags)))) = (lines body, tags) := by
  by_cases hnil : body = []
  · subst hnil
    rw [parts, if_pos rfl, List.nil_append, trim, show joined _ = writtenTags tags from rfl,
      trimStart_writtenTags, sections_writtenTags h]
    rfl
  have hsilent : ∀ l ∈ lines body, openedTag? l = none := fun l hl => hbody.openedTag?_eq_none hl
  rw [parts, if_neg hnil, List.singleton_append]
  by_cases hnone : tags = []
  · rw [hnone, List.map_nil, joined_singleton, htight.trim_eq]
    have hread := sections_append hsilent []
    rwa [List.append_nil, sections, List.append_nil] at hread
  · have hjoined : joined (body :: tags.map writtenTag) = body ++ '\n' :: writtenTags tags :=
      joined_cons (by simpa using hnone) _
    rw [hjoined, trim, htight.trimStart_append hnil,
      trimEnd_append_cons (trimEnd_writtenTags_ne_nil hnone),
      lines_append_newline hbody.unified hnil htight.getLast?_ne, sections_append hsilent,
      sections_writtenTags h, List.append_nil]

/-! ### Comments -/

/-- The comment that has a body and tags. -/
def ofParts (body : List Char) (tags : List (List Char × List Char)) : Comment where
  body := .ofList body
  tags := tags.map fun tag => { name := .ofList tag.1, text := .ofList tag.2 }

theorem ofProse_eq (text : String) :
    ofProse text = ofParts (trim (joined (sections (lines text.toList)).1))
      (sections (lines text.toList)).2 := rfl

theorem ofList_eq_empty_iff : String.ofList cs = "" ↔ cs = [] := by
  rw [← String.toList_inj, String.toList_ofList, String.toList_empty]

theorem toList_render_ofParts (body : List Char) (tags : List (List Char × List Char)) :
    (ofParts body tags).render.toList = joined (parts body tags) := by
  have hbody : (if String.ofList body = "" then [] else [String.ofList body]).map (·.toList)
      = if body = [] then [] else [body] := by
    by_cases h : body = []
    · rw [if_pos h, if_pos (ofList_eq_empty_iff.mpr h), List.map_nil]
    · rw [if_neg h, if_neg (mt ofList_eq_empty_iff.mp h), List.map_singleton, String.toList_ofList]
  have htag : ∀ tag : List Char × List Char,
      ("@" ++ String.ofList tag.1 ++ " " ++ String.ofList tag.2).toList = writtenTag tag := by
    simp [writtenTag]
  rw [render, Text.join, String.toList_ofList, List.map_append]
  refine congrArg joined (congr (congrArg _ hbody) ?_)
  rw [ofParts, List.map_map, List.map_map]
  exact List.map_congr_left fun tag _ => htag tag

/-- What is written of a comment that was read is read as that comment. -/
theorem ofProse_render (text : String) :
    ofProse (Text.trim (ofProse text).render) = ofProse text := by
  obtain ⟨body, tags, hprose, hbody, htight, htags⟩ : ∃ body tags,
      ofProse text = ofParts body tags ∧ Silent body ∧ Tight body ∧ ∀ tag ∈ tags, IsTag tag := by
    have hlines : ∀ l ∈ lines text.toList, IsLine l := fun l hl => isLine_of_mem_lines hl
    exact ⟨_, _, ofProse_eq text, (silent_joined (of_mem_sections_body hlines)).trim, tight_trim _,
      isTag_of_mem_sections hlines⟩
  have hread := sections_parts hbody htight htags
  rw [hprose, ofProse_eq, Text.trim, String.toList_ofList, toList_render_ofParts, hread,
    joined_lines hbody.unified htight.getLast?_ne, htight.trim_eq]

theorem ofValue?_text (text : String) :
    ofValue? (.text text) = .ok (ofProse (Text.trim text)).nonempty? := rfl

/-- The comment that says nothing is written as the empty text. -/
theorem getD_render_nonempty? (c : Comment) : (c.nonempty?.map render).getD "" = c.render := by
  unfold nonempty?
  split
  next h =>
    obtain ⟨body, tags⟩ := c
    obtain ⟨hbody, htags⟩ : body = "" ∧ tags = [] := by simpa [isEmpty] using h
    rw [hbody, htags]
    rfl
  next => rfl

/-- Reading a text gives a normal form: what is written of the comment is read as the comment. -/
theorem ofValue?_render_ofValue? (text : String) :
    ∃ c?, ofValue? (.text text) = .ok c? ∧ ofValue? (.text ((c?.map render).getD "")) = .ok c? := by
  refine ⟨_, ofValue?_text text, ?_⟩
  rw [getD_render_nonempty?, ofValue?_text, ofProse_render]

end Comment

end TypePages
