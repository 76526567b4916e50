import Mathlib.Data.List.Infix
import TypePages.Link.Inline
import TypePages.Proofs.Respaced

/-!
Inline tags in first sentences.

The first sentence of a body is cut off before its inline tags are looked at, and a full stop or a
blank line may well stand in one.  Where the cut falls outside of every tag, the tags of the
sentence are tags of the body (`complete_iff_not_cutsTag`), and the spacing that follows does not
touch them: neither what opens a tag nor its name holds a blank, and what a tag needs besides is a
blank and a brace further on.
-/

namespace TypePages

namespace Chars

open Text (isBlank)

variable {c : Char} {as bs cs xs ys : List Char}

/-- What a text without the character starts stands before the first copy of the character. -/
theorem exists_of_append_eq (h : xs ++ ys = as ++ c :: bs) (hc : c ∉ xs) :
    ∃ zs, as = xs ++ zs ∧ ys = zs ++ c :: bs := by
  rcases List.append_eq_append_iff.mp h with ⟨zs, has, hys⟩ | ⟨zs, hxs, hbs⟩
  · exact ⟨zs, has, hys⟩
  · cases zs with
    | nil => exact ⟨[], by rw [hxs, List.append_nil, List.append_nil], hbs.symm⟩
    | cons z zs =>
        rw [List.cons_append] at hbs
        refine absurd ?_ hc
        rw [hxs, (List.cons.inj hbs).1]
        exact List.mem_append_right as List.mem_cons_self

theorem trim_infix (cs : List Char) : trim cs <:+: cs :=
  (List.rdropWhile_prefix _ _).isInfix.trans (List.dropWhile_suffix _).isInfix

theorem infix_trimStart (h : xs <:+: cs) (hxs : ∀ c ∈ xs, isBlank c = false) (hne : xs ≠ []) :
    xs <:+: trimStart cs := by
  unfold trimStart
  induction cs with
  | nil => exact h
  | cons c cs ih =>
      by_cases hc : isBlank c = true
      · rw [List.dropWhile_cons_of_pos hc]
        rcases List.infix_cons_iff.mp h with hstart | hrest
        · obtain ⟨x, xs, rfl⟩ := List.exists_cons_of_ne_nil hne
          have hx := hxs x List.mem_cons_self
          rw [(List.cons_prefix_cons.mp hstart).1, hc] at hx
          cases hx
        · exact ih hrest
      · rwa [List.dropWhile_cons_of_neg hc]

/-- Trimming does not touch what holds no blanks. -/
theorem infix_trim (h : xs <:+: cs) (hxs : ∀ c ∈ xs, isBlank c = false) (hne : xs ≠ []) :
    xs <:+: trim cs := by
  have hstart : xs.reverse <:+: (trimStart cs).reverse :=
    List.reverse_infix.mpr (infix_trimStart h hxs hne)
  have hend : xs.reverse <:+: trimStart (trimStart cs).reverse :=
    infix_trimStart hstart (fun c hc => hxs c (List.mem_reverse.mp hc)) (by simpa using hne)
  rw [trim, trimEnd, dropWhileEnd]
  exact List.reverse_infix.mp (by rwa [List.reverse_reverse])

end Chars

namespace Inline

open Text (isBlank)
open Chars (Respaced)

variable {c : Char} {cs xs ys name rest inner content after before between : List Char}
  {use : Tag.Use} {m : Model} {targets : Targets} {context : Option Element}

/-! ### Tags -/

/-- What opens a tag. -/
def opening : List Char := ['\x7b', '@']

theorem isBlank_of_mem_opening : ∀ c ∈ opening, isBlank c = false :=
  List.forall_mem_cons.mpr ⟨rfl, List.forall_mem_singleton.mpr rfl⟩

/-- Names hold neither blanks nor braces. -/
theorem of_mem_uses (h : (name, use) ∈ uses) (hc : c ∈ name) :
    isBlank c = false ∧ c ≠ '\x7b' ∧ c ≠ '\x7d' := by
  have hall : (uses.all fun p => p.1.all fun c =>
      !isBlank c && c != '\x7b' && c != '\x7d') = true := by decide
  have hname := List.all_eq_true.mp (List.all_eq_true.mp hall (name, use) h) c hc
  simpa [and_assoc] using hname

/-- What stands between an opening and a brace makes a tag of them: the name of a use, a blank
behind it, and no other brace. -/
structure Named (name inner : List Char) (use : Tag.Use) : Prop where
  mem : (name, use) ∈ uses
  blank : inner.head?.any isBlank = true
  brace : '\x7d' ∉ inner

theorem Named.brace_notMem (h : Named name inner use) : '\x7d' ∉ name ++ inner := by
  rw [List.mem_append, not_or]
  exact ⟨fun hname => (of_mem_uses h.mem hname).2.2 rfl, h.brace⟩

theorem of_useHere? (h : useHere? cs = some (use, rest)) :
    ∃ name, (name, use) ∈ uses ∧ cs = name ++ rest ∧ rest.head?.any isBlank = true := by
  obtain ⟨⟨name, use'⟩, hmem, h⟩ := List.exists_of_findSome?_eq_some h
  simp only at h
  split at h
  next rest' hrest =>
    split at h
    next hblank =>
      cases h
      exact ⟨name, hmem, Chars.afterStart?_eq_some_iff.mp hrest, hblank⟩
    · cases h
  · cases h

theorem useHere?_of_mem (hmem : (name, use) ∈ uses) (hblank : rest.head?.any isBlank = true) :
    useHere? (name ++ rest) = some (use, rest) := by
  -- Of the tags whose names start alike only one has a blank behind its name.
  have hletter : isBlank 'p' = false := by decide
  simp only [uses, List.mem_cons, Prod.mk.injEq, List.not_mem_nil, or_false] at hmem
  rcases hmem with ⟨rfl, rfl⟩ | ⟨rfl, rfl⟩ | ⟨rfl, rfl⟩ | ⟨rfl, rfl⟩ <;>
    simp [useHere?, uses, Chars.afterStart?, hblank, hletter]

/-- A brace is not the blank that comes behind a name. -/
theorem any_head?_append (inner after : List Char) :
    (inner ++ '\x7d' :: after).head?.any isBlank = inner.head?.any isBlank := by
  cases inner with
  | nil => rfl
  | cons c inner => rfl

/-- A tag that is read is an opening, a name and what follows it, and a brace. -/
theorem of_tagHere? (h : tagHere? cs = some (use, content, after)) :
    ∃ name inner, Named name inner use ∧ cs = opening ++ (name ++ inner ++ '\x7d' :: after) ∧
      content = Chars.trim inner := by
  unfold tagHere? at h
  split at h
  · cases h
  next use' rest huse =>
    obtain ⟨named, hopening, huse⟩ := Option.bind_eq_some_iff.mp huse
    obtain ⟨name, hmem, hnamed, hblank⟩ := of_useHere? huse
    have hcs := Chars.afterStart?_eq_some_iff.mp hopening
    by_cases hbrace : '\x7d' ∈ rest
    · obtain ⟨inner, after', rfl, hinner⟩ := List.eq_append_cons_of_mem hbrace
      rw [Chars.cut_append_cons hinner] at h
      cases h
      rw [any_head?_append] at hblank
      exact ⟨name, inner, ⟨hmem, hblank, hinner⟩,
        by rw [hcs, hnamed, List.append_assoc]; rfl, rfl⟩
    · rw [Chars.cut_of_notMem hbrace] at h
      cases h

theorem Named.tagHere?_eq (h : Named name inner use) (after : List Char) :
    tagHere? (opening ++ (name ++ inner ++ '\x7d' :: after)) =
      some (use, Chars.trim inner, after) := by
  have huse : useHere? (name ++ inner ++ '\x7d' :: after) =
      some (use, inner ++ '\x7d' :: after) := by
    rw [List.append_assoc]
    exact useHere?_of_mem h.mem ((any_head?_append inner after).trans h.blank)
  have hopening : Chars.afterStart? ['\x7b', '@']
      (opening ++ (name ++ inner ++ '\x7d' :: after)) = some (name ++ inner ++ '\x7d' :: after) :=
    Chars.afterStart?_eq_some_iff.mpr rfl
  unfold tagHere?
  rw [hopening, Option.bind_some, huse]
  simp only [Chars.cut_append_cons h.brace]

/-- Where a tag starts depends on what follows only up to its brace. -/
theorem tagHere?_append (h : tagHere? cs = some (use, content, after)) (ys : List Char) :
    tagHere? (cs ++ ys) = some (use, content, after ++ ys) := by
  obtain ⟨name, inner, hnamed, rfl, rfl⟩ := of_tagHere? h
  rw [← hnamed.tagHere?_eq (after ++ ys)]
  simp

/-- Where an opening starts a tag, a name comes next, then a blank, and a brace behind it. -/
theorem exists_name_of_tagHere? (h : ∃ tag, tagHere? (opening ++ rest) = some tag) :
    ∃ name use c tail, (name, use) ∈ uses ∧ isBlank c = true ∧ '\x7d' ∈ tail ∧
      rest = name ++ c :: tail := by
  obtain ⟨⟨use, content, after⟩, h⟩ := h
  obtain ⟨name, inner, hnamed, heq, -⟩ := of_tagHere? h
  cases inner with
  | nil => cases hnamed.blank
  | cons c inner =>
      refine ⟨name, use, c, inner ++ '\x7d' :: after, hnamed.mem, hnamed.blank,
        List.mem_append_right _ List.mem_cons_self, ?_⟩
      rw [List.append_cancel_left heq, List.append_assoc, List.cons_append]

/-- An opening with a name behind it starts a tag wherever the brace comes. -/
theorem exists_tagHere? {tail : List Char} (hmem : (name, use) ∈ uses) (hc : isBlank c = true)
    (hbrace : '\x7d' ∈ tail) : ∃ tag, tagHere? (opening ++ (name ++ c :: tail)) = some tag := by
  obtain ⟨inner, after, rfl, hinner⟩ := List.eq_append_cons_of_mem hbrace
  have hnot : '\x7d' ∉ c :: inner := by
    rw [List.mem_cons, not_or]
    exact ⟨fun heq => absurd (heq ▸ hc) (by decide), hinner⟩
  have hnamed : Named name (c :: inner) use := ⟨hmem, hc, hnot⟩
  refine ⟨_, Eq.trans ?_ (hnamed.tagHere?_eq after)⟩
  simp

/-! ### Texts without half a tag -/

/-- Every opening in the text starts a tag. -/
def Complete (cs : List Char) : Prop :=
  ∀ before rest, cs = before ++ opening ++ rest → ∃ tag, tagHere? (opening ++ rest) = some tag

/-- Every opening in the text starts a tag, and no content holds an opening. -/
def Whole (cs : List Char) : Prop :=
  ∀ before rest, cs = before ++ opening ++ rest → ∃ use content after,
    tagHere? (opening ++ rest) = some (use, content, after) ∧ ¬opening <:+: content

/-- Between two openings there is a brace. -/
def Apart (cs : List Char) : Prop :=
  ∀ before between rest, cs = before ++ opening ++ (between ++ opening ++ rest) → '\x7d' ∈ between

theorem Whole.complete (h : Whole cs) : Complete cs := fun before rest hcs => by
  obtain ⟨use, content, after, htag, -⟩ := h before rest hcs
  exact ⟨_, htag⟩

theorem Whole.apart (h : Whole cs) : Apart cs := by
  intro before between rest hcs
  obtain ⟨use, content, after, htag, hcontent⟩ := h before _ hcs
  obtain ⟨name, inner, hnamed, heq, rfl⟩ := of_tagHere? htag
  have heq : (between ++ opening) ++ rest = (name ++ inner) ++ '\x7d' :: after :=
    List.append_cancel_left heq
  by_contra hbrace
  have hnone : '\x7d' ∉ between ++ opening := by
    rw [List.mem_append, not_or]
    exact ⟨hbrace, by decide⟩
  obtain ⟨zs, hzs, -⟩ := Chars.exists_of_append_eq heq hnone
  rw [List.append_assoc] at hzs
  -- No name holds what opens a tag, so the second opening stands in the content of the first.
  obtain ⟨ys, -, hinner⟩ := Chars.exists_of_append_eq (c := '\x7b') hzs
    fun hname => (of_mem_uses hnamed.mem hname).2.1 rfl
  refine hcontent (Chars.infix_trim ⟨ys, zs, ?_⟩ isBlank_of_mem_opening (List.cons_ne_nil _ _))
  rw [hinner, List.append_assoc]
  rfl

/-- The text that is kept of a text breaks off in a tag, behind its opening. -/
def CutsTag (kept cs : List Char) : Prop :=
  ∃ before start rest after use content, kept = before ++ opening ++ start ∧
    cs = kept ++ (rest ++ after) ∧ rest ≠ [] ∧
    tagHere? (opening ++ start ++ rest) = some (use, content, [])

/-- A tag that is cut behind its opening has its brace in the part that is missing. -/
theorem brace_of_cut {start : List Char}
    (h : tagHere? (opening ++ start ++ rest) = some (use, content, [])) (hne : rest ≠ []) :
    '\x7d' ∉ start ∧ '\x7d' ∈ rest := by
  obtain ⟨name, inner, hnamed, heq, -⟩ := of_tagHere? h
  rw [List.append_assoc] at heq
  have heq : start ++ rest = name ++ inner ++ ['\x7d'] := List.append_cancel_left heq
  obtain ⟨rest, last, rfl⟩ := (List.eq_nil_or_concat rest).resolve_left hne
  rw [List.concat_eq_append, ← List.append_assoc] at heq
  obtain ⟨hinner, hlast⟩ := List.append_inj' heq rfl
  constructor
  · intro hstart
    exact hnamed.brace_notMem (hinner ▸ List.mem_append_left rest hstart)
  · rw [List.concat_eq_append, hlast]
    exact List.mem_append_right _ List.mem_cons_self

/-- A start of a text has whole tags unless it breaks off in one. -/
theorem complete_iff_not_cutsTag (h : Complete (xs ++ ys)) :
    Complete xs ↔ ¬CutsTag xs (xs ++ ys) := by
  constructor
  · rintro hxs ⟨before, start, rest, after, use, content, rfl, -, hne, htag⟩
    obtain ⟨name, use, c, tail, -, -, hbrace, rfl⟩ :=
      exists_name_of_tagHere? (hxs before start rfl)
    exact (brace_of_cut htag hne).1
      (List.mem_append_right _ (List.mem_cons_of_mem _ hbrace))
  · rintro hcut before rest rfl
    obtain ⟨⟨use, content, after⟩, htag⟩ := h before (rest ++ ys) (by simp)
    obtain ⟨name, inner, hnamed, heq, rfl⟩ := of_tagHere? htag
    have heq : rest ++ ys = name ++ inner ++ ['\x7d'] ++ after := by
      rw [List.append_cancel_left heq]
      simp
    rcases List.append_eq_append_iff.mp heq with ⟨zs, htagged, hys⟩ | ⟨zs, hrest, -⟩
    · have hread : tagHere? (opening ++ rest ++ zs) = some (use, Chars.trim inner, []) := by
        rw [List.append_assoc, ← htagged]
        exact hnamed.tagHere?_eq []
      by_cases hnil : zs = []
      · rw [hnil, List.append_nil] at hread
        exact ⟨_, hread⟩
      · exact absurd ⟨before, rest, zs, after, use, _, rfl, by rw [hys], hnil, hread⟩ hcut
    · refine ⟨(use, Chars.trim inner, zs), ?_⟩
      rw [hrest, List.append_assoc (name ++ inner)]
      exact hnamed.tagHere?_eq zs

theorem Apart.of_infix (h : Apart cs) (hxs : xs <:+: cs) : Apart xs := by
  obtain ⟨as, bs, rfl⟩ := hxs
  rintro before between rest rfl
  exact h (as ++ before) between (rest ++ bs) (by simp)

theorem Complete.of_suffix (h : Complete cs) (hxs : xs <:+ cs) : Complete xs := by
  obtain ⟨as, rfl⟩ := hxs
  rintro before rest rfl
  exact h (as ++ before) rest (by simp)

/-- Trimming a text cuts no tag, because tags end in a brace. -/
theorem Complete.trim (h : Complete cs) : Complete (Chars.trim cs) := by
  obtain ⟨tail, hcs, htail⟩ := Chars.exists_append_dropWhileEnd isBlank (Chars.trimStart cs)
  have hstart : Complete (Chars.trimStart cs) := h.of_suffix (List.dropWhile_suffix _)
  rw [hcs] at hstart
  refine (complete_iff_not_cutsTag hstart).mpr ?_
  rintro ⟨before, start, rest, after, use, content, -, heq, hne, htag⟩
  have hbrace : '\x7d' ∈ tail := by
    rw [List.append_cancel_left heq]
    exact List.mem_append_left after (brace_of_cut htag hne).2
  cases htail _ hbrace

/-! ### Respacing -/

theorem exists_opening (h : Respaced xs (before ++ opening ++ rest)) : ∃ before' rest',
    xs = before' ++ opening ++ rest' ∧ Respaced before' before ∧ Respaced rest' rest := by
  rw [List.append_assoc] at h
  obtain ⟨before', tail, rfl, hbefore, htail⟩ :=
    Respaced.exists_split (c := '\x7b') h (by decide)
  obtain ⟨rest', rfl, hrest⟩ := htail.exists_cons (c := '@') (by decide)
  exact ⟨before', rest', by simp [opening], hbefore, hrest⟩

theorem Complete.respaced (h : Complete xs) (hxs : Respaced xs ys) : Complete ys := by
  rintro before rest rfl
  obtain ⟨before', rest', hsplit, -, hrest⟩ := exists_opening hxs
  obtain ⟨name, use, c, tail, hmem, hc, hbrace, rfl⟩ :=
    exists_name_of_tagHere? (h before' rest' hsplit)
  obtain ⟨spaced, rfl, htail⟩ := hrest.symm.exists_append fun d hd => (of_mem_uses hmem hd).1
  obtain ⟨d, tail', rfl, hd, hbrace'⟩ := htail.exists_blank_cons hc (by decide) hbrace
  exact exists_tagHere? hmem hd hbrace'

theorem Apart.respaced (h : Apart xs) (hxs : Respaced xs ys) : Apart ys := by
  rintro before between rest rfl
  obtain ⟨before', tail, rfl, -, htail⟩ := exists_opening hxs
  obtain ⟨between', rest', rfl, hbetween, -⟩ := exists_opening htail
  exact hbetween.symm.mem (by decide) (h before' between' rest' rfl)

/-! ### Rewriting -/

theorem markdownChars_of_tagHere? (h : tagHere? cs = some (use, content, after)) :
    markdownChars m targets context cs =
      tagText m targets context use content ++ markdownChars m targets context after := by
  cases cs with
  | nil => cases h
  | cons c cs =>
      rw [markdownChars]
      split
      next h' =>
        rw [h] at h'
        cases h'
        rfl
      next h' =>
        rw [h] at h'
        cases h'

theorem markdownChars_cons (h : tagHere? (c :: cs) = none) :
    markdownChars m targets context (c :: cs) = c :: markdownChars m targets context cs := by
  rw [markdownChars]
  split
  next h' =>
    rw [h] at h'
    cases h'
  next => rfl

/-- What is opened behind another opening is opened behind the next brace. -/
theorem Apart.exists_closed {named tail : List Char} (h : Apart (before ++ (opening ++ tail)))
    (hne : before ≠ []) (hnamed : '\x7d' ∉ named)
    (heq : before ++ (opening ++ tail) = opening ++ named ++ ['\x7d'] ++ after) :
    ∃ before', before = opening ++ named ++ ['\x7d'] ++ before' ∧
      after = before' ++ (opening ++ tail) := by
  rcases List.append_eq_append_iff.mp heq with ⟨zs, hzs, htail⟩ | ⟨before', hbefore, hafter⟩
  · cases zs with
    | nil => exact ⟨[], by simpa using hzs.symm, htail.symm⟩
    | cons z zs =>
        -- It would be opened before the brace of the first, with no other between.
        obtain ⟨rfl, -⟩ := List.cons.inj (htail : '\x7b' :: ('@' :: tail) = z :: (zs ++ after))
        obtain ⟨b, before, rfl⟩ := List.exists_cons_of_ne_nil hne
        obtain ⟨rfl, hrest⟩ := List.cons.inj
          (hzs : '\x7b' :: ('@' :: (named ++ ['\x7d'])) = b :: (before ++ '\x7b' :: zs))
        cases before with
        | nil => cases hrest
        | cons a between =>
            obtain ⟨rfl, hinner⟩ := List.cons.inj hrest
            obtain ⟨p, q, rfl⟩ := List.append_of_mem (h [] between tail (by simp [opening]))
            have hsplit : named ++ ['\x7d'] = p ++ '\x7d' :: (q ++ '\x7b' :: zs) := by
              simpa using hinner
            obtain ⟨ys, -, hys⟩ := Chars.exists_of_append_eq hsplit hnamed
            have hlength := congrArg List.length hys
            simp only [List.length_append, List.length_cons, List.length_nil] at hlength
            omega
  · exact ⟨before', hbefore, hafter⟩

/-- A tag that starts behind the opening of another starts behind its brace. -/
theorem Apart.exists_append {content' after' : List Char} {use' : Tag.Use}
    (h : Apart (before ++ cs)) (hne : before ≠ [])
    (htag : tagHere? cs = some (use, content, after))
    (hfirst : tagHere? (before ++ cs) = some (use', content', after')) :
    ∃ before', tagHere? before = some (use', content', before') ∧ after' = before' ++ cs := by
  obtain ⟨name, inner, hnamed, heq, rfl⟩ := of_tagHere? hfirst
  obtain ⟨tail, rfl⟩ : ∃ tail, cs = opening ++ tail := by
    obtain ⟨name, inner, -, hcs, -⟩ := of_tagHere? htag
    exact ⟨_, hcs⟩
  obtain ⟨before', rfl, hafter⟩ :=
    h.exists_closed hne hnamed.brace_notMem (by simpa using heq)
  refine ⟨before', Eq.trans ?_ (hnamed.tagHere?_eq before'), hafter⟩
  simp

/-- Where openings have braces between them, every tag is rewritten where it stands. -/
theorem Apart.markdownChars_eq (h : Apart (before ++ cs))
    (htag : tagHere? cs = some (use, content, after)) :
    markdownChars m targets context (before ++ cs) = markdownChars m targets context before ++
      (tagText m targets context use content ++ markdownChars m targets context after) := by
  induction hlen : before.length using Nat.strongRecOn generalizing before with
  | ind n ih =>
      cases before with
      | nil =>
          rw [List.nil_append, markdownChars_of_tagHere? htag, markdownChars]
          rfl
      | cons c before =>
          cases hfirst : tagHere? (c :: before ++ cs) with
          | none =>
              have hbefore : tagHere? (c :: before) = none := by
                by_contra hsome
                obtain ⟨⟨use', content', after'⟩, hsome⟩ := Option.ne_none_iff_exists'.mp hsome
                rw [tagHere?_append hsome] at hfirst
                cases hfirst
              rw [List.cons_append] at hfirst ⊢
              rw [markdownChars_cons hfirst, markdownChars_cons hbefore,
                ih before.length (by rw [← hlen]; exact Nat.lt_succ_self _)
                  (h.of_infix (List.suffix_cons c _).isInfix) rfl]
              rfl
          | some first =>
              obtain ⟨use', content', after'⟩ := first
              obtain ⟨before', hbefore, rfl⟩ :=
                h.exists_append (List.cons_ne_nil c before) htag hfirst
              have hshorter : before'.length < n := hlen ▸ length_tagHere? hbefore
              have hrest : Apart (before' ++ cs) := by
                obtain ⟨name, inner, -, heq, -⟩ := of_tagHere? hfirst
                rw [heq, List.append_cons, ← List.append_assoc] at h
                exact h.of_infix (List.suffix_append _ _).isInfix
              rw [markdownChars_of_tagHere? hfirst, markdownChars_of_tagHere? hbefore,
                ih before'.length hshorter hrest rfl, List.append_assoc]

/-- Every opening in the text starts a tag, which is rewritten where it stands. -/
def Rewritten (m : Model) (targets : Targets) (context : Option Element) (cs : List Char) : Prop :=
  ∀ before rest, cs = before ++ opening ++ rest → ∃ use content after,
    tagHere? (opening ++ rest) = some (use, content, after) ∧
      markdownChars m targets context cs = markdownChars m targets context before ++
        (tagText m targets context use content ++ markdownChars m targets context after)

theorem rewritten_of_apart (h : Complete cs) (hapart : Apart cs) (m : Model) (targets : Targets)
    (context : Option Element) : Rewritten m targets context cs := by
  rintro before rest rfl
  obtain ⟨⟨use, content, after⟩, htag⟩ := h before rest rfl
  rw [List.append_assoc] at hapart ⊢
  exact ⟨use, content, after, htag, hapart.markdownChars_eq htag⟩

/-! ### First sentences -/

/-- What the first sentence of a body holds, before it is respaced. -/
def sentencePart (body : String) : List Char :=
  Comment.untilStop (Comment.paragraph (Chars.trim body.toList))

theorem sentencePart_start (body : String) : sentencePart body <+: Chars.trim body.toList := by
  have hparagraph := Comment.paragraph_prefix (Chars.trim body.toList)
  have hsentence := Comment.untilStop_prefix (Comment.paragraph (Chars.trim body.toList))
  exact hsentence.trans hparagraph

/-- The first sentence of a body without half a tag holds none, and has every tag rewritten, just in
case it does not end in a tag. -/
theorem complete_firstSentence_iff {body : String} (h : Whole body.toList) :
    (Complete (Comment.firstSentence body).toList ↔
        ¬CutsTag (sentencePart body) (Chars.trim body.toList)) ∧
      (¬CutsTag (sentencePart body) (Chars.trim body.toList) →
        ∀ m targets context, Rewritten m targets context (Comment.firstSentence body).toList) := by
  have htrim : Complete (Chars.trim body.toList) := h.complete.trim
  obtain ⟨rest, hrest⟩ := sentencePart_start body
  have hflush : Chars.Flush (sentencePart body) :=
    Chars.flush_of_prefix (Chars.flush_trim _) ⟨rest, hrest⟩
  have hspaced : Respaced (sentencePart body) (Comment.firstSentence body).toList := by
    rw [Comment.firstSentence, String.toList_ofList]
    exact Chars.respaced_collapse hflush
  rw [← hrest] at htrim ⊢
  have hcut := complete_iff_not_cutsTag htrim
  refine ⟨⟨fun hcomplete => hcut.mp (hcomplete.respaced hspaced.symm),
    fun hnot => (hcut.mpr hnot).respaced hspaced⟩, fun hnot m targets context => ?_⟩
  have hapart : Apart (sentencePart body) :=
    h.apart.of_infix ((sentencePart_start body).isInfix.trans (Chars.trim_infix _))
  exact rewritten_of_apart ((hcut.mpr hnot).respaced hspaced) (hapart.respaced hspaced) m targets
    context

/-! ### Full stops in a tag -/

/-- To check for half a tag, it is enough to look at every end of the text. -/
theorem complete_iff_tails :
    Complete cs ↔ ∀ s ∈ cs.tails, opening <+: s → (tagHere? s).isSome = true := by
  simp only [Option.isSome_iff_exists, List.mem_tails]
  constructor
  · rintro h s ⟨before, rfl⟩ ⟨rest, rfl⟩
    exact h before rest (List.append_assoc _ _ _).symm
  · rintro h before rest rfl
    exact h _ ⟨before, (List.append_assoc _ _ _).symm⟩ (List.prefix_append _ _)

theorem whole_iff_tails : Whole cs ↔ ∀ s ∈ cs.tails, opening <+: s →
    ∃ tag ∈ tagHere? s, ¬opening <:+: tag.2.1 := by
  simp only [List.mem_tails]
  constructor
  · rintro h s ⟨before, rfl⟩ ⟨rest, rfl⟩
    obtain ⟨use, content, after, htag, hcontent⟩ :=
      h before rest (List.append_assoc _ _ _).symm
    exact ⟨_, htag, hcontent⟩
  · rintro h before rest rfl
    obtain ⟨⟨use, content, after⟩, htag, hcontent⟩ :=
      h _ ⟨before, (List.append_assoc _ _ _).symm⟩ (List.prefix_append _ _)
    exact ⟨use, content, after, htag, hcontent⟩

instance (cs : List Char) : Decidable (Complete cs) := decidable_of_iff _ complete_iff_tails.symm

instance (cs : List Char) : Decidable (Whole cs) := decidable_of_iff _ whole_iff_tails.symm

/-- The sentence ends between two tags, each of which holds a full stop. -/
def stopBetween : String := "Runs \x7b@code a.b\x7d once. Then runs \x7b@code c. d\x7d too."

/-- A full stop stands before a blank in a tag. -/
def stopInTag : String := "Runs \x7b@code a. b\x7d once. Then stops."

theorem complete_firstSentence_stopBetween : Whole stopBetween.toList ∧
    Complete (Comment.firstSentence stopBetween).toList ∧
    ∀ m targets context,
      Rewritten m targets context (Comment.firstSentence stopBetween).toList := by
  have hwhole : Whole stopBetween.toList := by decide
  have hcomplete : Complete (Comment.firstSentence stopBetween).toList := by decide
  obtain ⟨hiff, hrewritten⟩ := complete_firstSentence_iff hwhole
  exact ⟨hwhole, hcomplete, hrewritten (hiff.mp hcomplete)⟩

/-- The body is rewritten as a whole, but its first sentence ends in half a tag. -/
theorem half_tag_stopInTag : Whole stopInTag.toList ∧
    (∀ m targets context, Rewritten m targets context stopInTag.toList) ∧
    Comment.firstSentence stopInTag = "Runs \x7b@code a." ∧
    ¬Complete (Comment.firstSentence stopInTag).toList := by
  have hwhole : Whole stopInTag.toList := by decide
  exact ⟨hwhole, rewritten_of_apart hwhole.complete hwhole.apart, by decide,
    by decide⟩

end Inline

end TypePages
