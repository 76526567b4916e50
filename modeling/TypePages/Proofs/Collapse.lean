import TypePages.Proofs.Cutting

/-!
Runs of characters with one separator between them.

The words of a text are found by cutting it at every blank, and those of an anchor by cutting it at
every character that the anchor does not keep.  That says little about what becomes of one
character.  Told along the text, squeezing keeps what is outside of the class, and of a run in the
class with something on both sides it makes one separator.  What becomes of a character in the class
depends on whether a word has been passed, so there are two functions: `squeeze` up to the first
word and `squeezeOn` behind a letter.  Their equations carry all that follows, in one induction for
both.  `collapse` and `collapseOn` are the case of blanks and spaces.
-/

namespace TypePages.Chars

open Text (isBlank)

variable {p : Char → Bool} {separator c : Char} {cs xs ys : List Char}

/-- The longest runs of characters outside of a class. -/
def runs (p : Char → Bool) (cs : List Char) : List (List Char) :=
  (cs.splitOnP p).filter (!·.isEmpty)

/-- The runs with a separator between neighbours. -/
def squeeze (p : Char → Bool) (separator : Char) (cs : List Char) : List Char :=
  [separator].intercalate (runs p cs)

/-- Runs behind others, each with a separator before it. -/
def spaced (separator : Char) (parts : List (List Char)) : List Char :=
  (parts.filter (!·.isEmpty)).flatMap ([separator] ++ ·)

/-- A text with a separator before it, unless it is empty. -/
def behind (separator : Char) : List Char → List Char
  | [] => []
  | c :: cs => separator :: c :: cs

/-- What squeezing makes of a text that goes on behind a letter. -/
def squeezeOn (p : Char → Bool) (separator : Char) : List Char → List Char
  | [] => []
  | c :: cs =>
    if p c = true then behind separator (squeeze p separator cs) else c :: squeezeOn p separator cs

/-! ### The runs -/

theorem of_mem_splitOnP {part : List Char} (h : part ∈ cs.splitOnP p) (hc : c ∈ part) :
    p c = false := by
  induction cs generalizing part with
  | nil =>
      rw [List.splitOnP_nil, List.mem_singleton] at h
      rw [h] at hc
      cases hc
  | cons d cs ih =>
      rw [List.splitOnP_cons_eq_if_modifyHead] at h
      split at h
      · rcases List.mem_cons.mp h with rfl | h
        · cases hc
        · exact ih h hc
      next hd =>
        obtain ⟨first, rest, hparts⟩ := List.exists_cons_of_ne_nil (List.splitOnP_ne_nil p cs)
        rw [hparts, List.modifyHead_cons] at h
        rcases List.mem_cons.mp h with rfl | h
        · rcases List.mem_cons.mp hc with rfl | hc
          · simpa using hd
          · exact ih (hparts ▸ List.mem_cons_self) hc
        · exact ih (hparts ▸ List.mem_cons_of_mem _ h) hc

/-- A run has no character of the class. -/
theorem of_mem_runs {run : List Char} (h : run ∈ runs p cs) (hc : c ∈ run) : p c = false :=
  of_mem_splitOnP (List.mem_filter.mp h).1 hc

/-- A character of the class stands between runs. -/
theorem runs_append_cons (h : p c = true) (xs ys : List Char) :
    runs p (xs ++ c :: ys) = runs p xs ++ runs p ys := by
  rw [runs, List.splitOnP_append_cons xs ys h, List.filter_append]
  rfl

/-! ### The equations -/

theorem squeeze_cons_of_pos (h : p c = true) (cs : List Char) :
    squeeze p separator (c :: cs) = squeeze p separator cs := by
  rw [squeeze, runs, List.splitOnP_cons_eq_if_modifyHead, if_pos h]
  rfl

theorem squeezeOn_cons_of_pos (h : p c = true) (cs : List Char) :
    squeezeOn p separator (c :: cs) = behind separator (squeeze p separator cs) := if_pos h

theorem squeezeOn_cons_of_neg (h : p c = false) (cs : List Char) :
    squeezeOn p separator (c :: cs) = c :: squeezeOn p separator cs := if_neg (by simp [h])

/-- Runs behind others are the runs, and a separator before them. -/
theorem spaced_splitOnP (cs : List Char) :
    spaced separator (cs.splitOnP p) = behind separator (squeeze p separator cs) := by
  unfold spaced squeeze runs
  cases hruns : (cs.splitOnP p).filter (!·.isEmpty) with
  | nil => rfl
  | cons run rest =>
      have hmem : run ∈ (cs.splitOnP p).filter (!·.isEmpty) := hruns ▸ List.mem_cons_self
      have hne : run ≠ [] := by simpa using (List.mem_filter.mp hmem).2
      obtain ⟨c, run, rfl⟩ := List.exists_cons_of_ne_nil hne
      rw [intercalate_cons, List.flatMap_cons]
      rfl

/-- What goes on behind a letter is the rest of its run and the runs behind that. -/
theorem exists_splitOnP (p : Char → Bool) (separator : Char) (cs : List Char) : ∃ first rest,
    cs.splitOnP p = first :: rest ∧ squeezeOn p separator cs = first ++ spaced separator rest := by
  induction cs with
  | nil => exact ⟨[], [], List.splitOnP_nil, rfl⟩
  | cons c cs ih =>
      rw [List.splitOnP_cons_eq_if_modifyHead]
      by_cases hc : p c = true
      · refine ⟨[], cs.splitOnP p, if_pos hc, ?_⟩
        rw [squeezeOn_cons_of_pos hc, ← spaced_splitOnP, List.nil_append]
      · obtain ⟨first, rest, hparts, hrest⟩ := ih
        refine ⟨c :: first, rest, ?_, ?_⟩
        · rw [if_neg hc, hparts, List.modifyHead_cons]
        · rw [squeezeOn_cons_of_neg (by simpa using hc), hrest, List.cons_append]

theorem squeeze_cons_of_neg (h : p c = false) (cs : List Char) :
    squeeze p separator (c :: cs) = c :: squeezeOn p separator cs := by
  obtain ⟨first, rest, hparts, hrest⟩ := exists_splitOnP p separator cs
  have hruns : runs p (c :: cs) = (c :: first) :: rest.filter (!·.isEmpty) := by
    rw [runs, List.splitOnP_cons_eq_if_modifyHead, if_neg (by simp [h]), hparts,
      List.modifyHead_cons]
    rfl
  rw [squeeze, hruns, intercalate_cons, hrest]
  rfl

/-! ### Words with single spaces -/

/-- What collapsing makes of a text that goes on behind a letter. -/
abbrev collapseOn (cs : List Char) : List Char := squeezeOn isBlank ' ' cs

theorem collapse_cons_of_blank (h : isBlank c = true) (cs : List Char) :
    collapse (c :: cs) = collapse cs := squeeze_cons_of_pos h cs

theorem collapse_cons (h : isBlank c = false) (cs : List Char) :
    collapse (c :: cs) = c :: collapseOn cs := squeeze_cons_of_neg h cs

theorem collapseOn_cons_of_blank (h : isBlank c = true) (cs : List Char) :
    collapseOn (c :: cs) = behind ' ' (collapse cs) := squeezeOn_cons_of_pos h cs

theorem collapseOn_cons (h : isBlank c = false) (cs : List Char) :
    collapseOn (c :: cs) = c :: collapseOn cs := squeezeOn_cons_of_neg h cs

/-! ### Starts of a text -/

theorem behind_prefix (h : xs <+: cs) : behind separator xs <+: behind separator cs := by
  cases xs with
  | nil => exact List.nil_prefix
  | cons x xs =>
      cases cs with
      | nil => exact absurd (List.prefix_nil.mp h) (List.cons_ne_nil x xs)
      | cons c cs => exact (List.prefix_cons_inj separator).mpr h

theorem collapse_prefix_and (h : xs <+: cs) :
    collapse xs <+: collapse cs ∧ collapseOn xs <+: collapseOn cs := by
  induction cs generalizing xs with
  | nil => rw [List.prefix_nil.mp h]; exact ⟨List.nil_prefix, List.nil_prefix⟩
  | cons c cs ih =>
      cases xs with
      | nil => exact ⟨List.nil_prefix, List.nil_prefix⟩
      | cons x xs =>
          obtain ⟨rfl, hrest⟩ := List.cons_prefix_cons.mp h
          obtain ⟨hcollapse, hon⟩ := ih hrest
          cases hx : isBlank x with
          | true =>
              rw [collapse_cons_of_blank hx, collapse_cons_of_blank hx,
                collapseOn_cons_of_blank hx, collapseOn_cons_of_blank hx]
              exact ⟨hcollapse, behind_prefix hcollapse⟩
          | false =>
              have hcons := (List.prefix_cons_inj x).mpr hon
              rw [collapse_cons hx, collapse_cons hx, collapseOn_cons hx, collapseOn_cons hx]
              exact ⟨hcons, hcons⟩

/-- Of a start of the text, collapsing leaves a start of what it leaves of the text. -/
theorem collapse_prefix (h : xs <+: cs) : collapse xs <+: collapse cs := (collapse_prefix_and h).1

/-! ### Blanks at the ends -/

theorem collapse_of_blanks (h : ∀ c ∈ cs, isBlank c = true) : collapse cs = [] := by
  induction cs with
  | nil => rfl
  | cons c cs ih =>
      rw [collapse_cons_of_blank (h c List.mem_cons_self)]
      exact ih fun d hd => h d (List.mem_cons_of_mem c hd)

theorem collapseOn_of_blanks (h : ∀ c ∈ cs, isBlank c = true) : collapseOn cs = [] := by
  cases cs with
  | nil => rfl
  | cons c cs =>
      rw [collapseOn_cons_of_blank (h c List.mem_cons_self),
        collapse_of_blanks fun d hd => h d (List.mem_cons_of_mem c hd)]
      rfl

theorem collapse_append_blanks_and (cs : List Char) (h : ∀ c ∈ xs, isBlank c = true) :
    collapse (cs ++ xs) = collapse cs ∧ collapseOn (cs ++ xs) = collapseOn cs := by
  induction cs with
  | nil => exact ⟨collapse_of_blanks h, collapseOn_of_blanks h⟩
  | cons c cs ih =>
      rw [List.cons_append]
      cases hc : isBlank c with
      | true =>
          rw [collapse_cons_of_blank hc, collapse_cons_of_blank hc, collapseOn_cons_of_blank hc,
            collapseOn_cons_of_blank hc, ih.1]
          exact ⟨rfl, rfl⟩
      | false =>
          rw [collapse_cons hc, collapse_cons hc, collapseOn_cons hc, collapseOn_cons hc, ih.2]
          exact ⟨rfl, rfl⟩

theorem collapse_trimStart (cs : List Char) : collapse (trimStart cs) = collapse cs := by
  induction cs with
  | nil => rfl
  | cons c cs ih =>
      by_cases hc : isBlank c = true
      · rw [trimStart, List.dropWhile_cons_of_pos hc, collapse_cons_of_blank hc]
        exact ih
      · rw [trimStart, List.dropWhile_cons_of_neg hc]

/-- A text need not be trimmed before it is collapsed. -/
theorem collapse_trim (cs : List Char) : collapse (trim cs) = collapse cs := by
  obtain ⟨tail, htail, hblanks⟩ := exists_append_dropWhileEnd isBlank (trimStart cs)
  rw [← collapse_trimStart cs, htail, (collapse_append_blanks_and _ hblanks).1]
  rfl

/-! ### Collapsing again -/

theorem collapse_collapse_and (cs : List Char) :
    collapse (collapse cs) = collapse cs ∧ collapseOn (collapseOn cs) = collapseOn cs := by
  induction cs with
  | nil => exact ⟨rfl, rfl⟩
  | cons c cs ih =>
      obtain ⟨hcollapse, hon⟩ := ih
      cases hc : isBlank c with
      | true =>
          refine ⟨by rw [collapse_cons_of_blank hc, hcollapse], ?_⟩
          rw [collapseOn_cons_of_blank hc]
          cases hrest : collapse cs with
          | nil => rfl
          | cons d ds =>
              rw [hrest] at hcollapse
              show behind ' ' (collapse (d :: ds)) = behind ' ' (d :: ds)
              rw [hcollapse]
      | false =>
          rw [collapse_cons hc, collapseOn_cons hc, collapse_cons hc, collapseOn_cons hc, hon]
          exact ⟨rfl, rfl⟩

/-- A collapsed text is not collapsed any further. -/
theorem collapse_collapse (cs : List Char) : collapse (collapse cs) = collapse cs :=
  (collapse_collapse_and cs).1

end TypePages.Chars
