import TypePages.Proofs.References
import TypePages.Proofs.WholeTags

/-!
Prose is rewritten tag by tag.

A complete tag is said here by its parts and without the reader: an opening, a name, blanks, a content
and a brace.  A text starts with one exactly when `tagHere?` reads a tag off it, and because the
content holds no brace, it is the same tag whatever comes behind it (`IsTag.tagHere?_append`).  What
stands before the first brace starts no tag.  The walk of `markdownChars` therefore passes plain text,
replaces a tag, and goes on behind it as it would have started there.
-/

namespace TypePages.Inline

open Text (isBlank)

variable {c : Char} {as bs cs ts : List Char} {use : Tag.Use} {content after : List Char}
  {m : Model} {targets : Targets} {context : Option Element}

/-! ### Complete tags -/

/-- The names that a tag may have. -/
def names : List String := ["link", "linkplain", "code", "literal"]

/-- A complete tag: an opening, a name, at least one blank, a content without a closing brace, and
the brace. -/
def IsTag (cs : List Char) : Prop :=
  ∃ name ∈ names, ∃ blanks content : List Char, blanks ≠ [] ∧ (∀ c ∈ blanks, isBlank c = true) ∧
    '\x7d' ∉ content ∧ cs = '\x7b' :: '@' :: (name.toList ++ blanks ++ content ++ ['\x7d'])

theorem exists_use_of_mem_names {name : String} (h : name ∈ names) :
    ∃ use, (name.toList, use) ∈ uses := by
  simp only [names, List.mem_cons, List.not_mem_nil, or_false] at h
  rcases h with rfl | rfl | rfl | rfl
  · exact ⟨.link, by decide⟩
  · exact ⟨.link, by decide⟩
  · exact ⟨.code, by decide⟩
  · exact ⟨.code, by decide⟩

theorem exists_name_of_mem_uses {name : List Char} (h : (name, use) ∈ uses) :
    ∃ s ∈ names, s.toList = name := by
  simp only [uses, List.mem_cons, Prod.mk.injEq, List.not_mem_nil, or_false] at h
  rcases h with ⟨rfl, -⟩ | ⟨rfl, -⟩ | ⟨rfl, -⟩ | ⟨rfl, -⟩
  · exact ⟨"link", by decide, rfl⟩
  · exact ⟨"linkplain", by decide, rfl⟩
  · exact ⟨"code", by decide, rfl⟩
  · exact ⟨"literal", by decide, rfl⟩

/-- A complete tag is read to its end, whatever comes behind it. -/
theorem IsTag.tagHere?_append (h : IsTag ts) :
    ∃ use content, ∀ after, tagHere? (ts ++ after) = some (use, content, after) := by
  obtain ⟨name, hname, blanks, content, hne, hblanks, hbrace, rfl⟩ := h
  obtain ⟨use, huse⟩ := exists_use_of_mem_names hname
  obtain ⟨b, blanks, rfl⟩ := List.exists_cons_of_ne_nil hne
  have hnamed : Named name.toList (b :: blanks ++ content) use := by
    refine ⟨huse, hblanks b List.mem_cons_self, ?_⟩
    rw [List.mem_append, not_or]
    refine ⟨fun hmem => ?_, hbrace⟩
    have hblank := hblanks _ hmem
    revert hblank
    decide
  refine ⟨use, Chars.trim (b :: blanks ++ content), fun after => ?_⟩
  rw [← hnamed.tagHere?_eq after]
  simp [opening]

/-- Whatever is read as a tag starts with a complete one. -/
theorem exists_isTag_of_tagHere? (h : tagHere? cs = some (use, content, after)) :
    ∃ ts, IsTag ts ∧ cs = ts ++ after := by
  obtain ⟨name, inner, hnamed, rfl, -⟩ := of_tagHere? h
  obtain ⟨s, hs, rfl⟩ := exists_name_of_mem_uses hnamed.mem
  obtain ⟨b, content, rfl⟩ : ∃ b content, inner = b :: content := by
    cases inner with
    | nil => cases hnamed.blank
    | cons b content => exact ⟨b, content, rfl⟩
  have hblank : ∀ c ∈ [b], isBlank c = true := by
    intro c hc
    rw [List.mem_singleton.mp hc]
    exact hnamed.blank
  refine ⟨_, ⟨s, hs, [b], content, List.cons_ne_nil b [], hblank, ?_, rfl⟩, ?_⟩
  · exact fun hmem => hnamed.brace (List.mem_cons_of_mem b hmem)
  · simp [opening]

theorem tagHere?_of_ne (h : c ≠ '\x7b') (cs : List Char) : tagHere? (c :: cs) = none := by
  cases htag : tagHere? (c :: cs) with
  | none => rfl
  | some tag =>
      obtain ⟨name, inner, -, heq, -⟩ := of_tagHere? htag
      exact absurd (List.cons.inj heq).1 h

/-! ### The walk -/

/-- Before the first opening brace everything is kept. -/
theorem markdownChars_append_of_notMem (h : '\x7b' ∉ as) (cs : List Char) :
    markdownChars m targets context (as ++ cs) = as ++ markdownChars m targets context cs := by
  induction as with
  | nil => rfl
  | cons a as ih =>
      rw [List.mem_cons, not_or] at h
      obtain ⟨ha, has⟩ := h
      rw [List.cons_append, markdownChars_cons (tagHere?_of_ne (Ne.symm ha) _), ih has]
      rfl

/-- A tag is rewritten as it is rewritten alone, and the walk starts anew behind it. -/
theorem IsTag.markdownChars_append (h : IsTag ts) (cs : List Char) :
    markdownChars m targets context (ts ++ cs) =
      markdownChars m targets context ts ++ markdownChars m targets context cs := by
  obtain ⟨use, content, htag⟩ := h.tagHere?_append
  have halone := htag []
  rw [List.append_nil] at halone
  rw [markdownChars_of_tagHere? (htag cs), markdownChars_of_tagHere? halone, markdownChars,
    List.append_nil]

/-- No part of the text is a complete tag. -/
def TagFree (cs : List Char) : Prop := ∀ ts, IsTag ts → ¬ts <:+: cs

theorem tagFree_iff_tails : TagFree cs ↔ ∀ s ∈ cs.tails, tagHere? s = none := by
  constructor
  · intro h s hs
    cases htag : tagHere? s with
    | none => rfl
    | some tag =>
        obtain ⟨ts, hts, rfl⟩ := exists_isTag_of_tagHere? htag
        exact absurd ((List.prefix_append ts _).isInfix.trans ((List.mem_tails _ _).mp hs).isInfix)
          (h ts hts)
  · intro h ts hts hpart
    obtain ⟨before, after, rfl⟩ := hpart
    obtain ⟨use, content, htag⟩ := hts.tagHere?_append
    have hnone := h (ts ++ after)
      ((List.mem_tails _ _).mpr ⟨before, (List.append_assoc _ _ _).symm⟩)
    rw [htag after] at hnone
    cases hnone

instance (cs : List Char) : Decidable (TagFree cs) := decidable_of_iff _ tagFree_iff_tails.symm

theorem TagFree.of_cons (h : TagFree (c :: cs)) : TagFree cs :=
  fun ts hts hpart => h ts hts (hpart.trans (List.suffix_cons c cs).isInfix)

/-- A text without a complete tag is kept as it is. -/
theorem TagFree.markdownChars_eq (h : TagFree cs) : markdownChars m targets context cs = cs := by
  induction cs with
  | nil => rw [markdownChars]
  | cons c cs ih =>
      have hnone : tagHere? (c :: cs) = none :=
        tagFree_iff_tails.mp h _ ((List.mem_tails _ _).mpr (List.suffix_refl _))
      rw [markdownChars_cons hnone, ih h.of_cons]

/-! ### Prose -/

/-- Passages of a text and a tag each, with a rest behind them. -/
def passages (ps : List (String × String)) (rest : String) : String :=
  ps.foldr (fun p text => p.1 ++ p.2 ++ text) rest

theorem passages_cons (p : String × String) (ps : List (String × String)) (rest : String) :
    passages (p :: ps) rest = p.1 ++ p.2 ++ passages ps rest := rfl

/-- One passage is rewritten without a look at what follows. -/
theorem markdown_passage {plain tag : String} (hplain : '\x7b' ∉ plain.toList)
    (htag : IsTag tag.toList) (rest : String) :
    markdown m targets context (plain ++ tag ++ rest) =
      plain ++ markdown m targets context tag ++ markdown m targets context rest := by
  rw [markdown, String.toList_append, String.toList_append, List.append_assoc,
    markdownChars_append_of_notMem hplain, htag.markdownChars_append, ← String.toList_inj]
  simp [markdown]

/-- **Inline rewriting is local.**  Plain text is kept, a complete tag is rewritten as it is alone,
and what follows is rewritten as if it stood alone too; this goes on through any number of tags.  A
text in which there is no complete tag is kept as it is. -/
theorem markdown_tag_by_tag (m : Model) (targets : Targets) (context : Option Element) :
    (∀ plain tag rest : String, '\x7b' ∉ plain.toList → IsTag tag.toList →
      markdown m targets context (plain ++ tag ++ rest) =
        plain ++ markdown m targets context tag ++ markdown m targets context rest) ∧
    (∀ (ps : List (String × String)) (rest : String),
      (∀ p ∈ ps, '\x7b' ∉ p.1.toList ∧ IsTag p.2.toList) →
      markdown m targets context (passages ps rest) =
        passages (ps.map fun p => (p.1, markdown m targets context p.2))
          (markdown m targets context rest)) ∧
    ∀ text : String, TagFree text.toList → markdown m targets context text = text := by
  refine ⟨fun plain tag rest hplain htag => markdown_passage hplain htag rest, ?_, ?_⟩
  · intro ps rest hps
    induction ps with
    | nil => rfl
    | cons p ps ih =>
        obtain ⟨hplain, htag⟩ := hps p List.mem_cons_self
        rw [passages_cons, markdown_passage hplain htag,
          ih fun q hq => hps q (List.mem_cons_of_mem p hq)]
        rfl
  · intro text hfree
    rw [markdown, hfree.markdownChars_eq, String.ofList_toList]

/-- Two tags with nothing between them, and an opening that is never closed. -/
theorem markdown_tag_by_tag_robots :
    IsTag "\x7b@link #move(int)\x7d".toList ∧ IsTag "\x7b@code a \x7b b\x7d".toList ∧
    TagFree " or \x7b@link move.".toList ∧
    markdown robots robotTargets (some robot)
        "Call \x7b@link #move(int)\x7d\x7b@code a \x7b b\x7d or \x7b@link move." =
      "Call [move(int)](/api/Robot#move-int)`a \x7b b` or \x7b@link move." := by
  have hlink : IsTag "\x7b@link #move(int)\x7d".toList :=
    ⟨"link", by decide, [' '], "#move(int)".toList, by decide, List.forall_mem_singleton.mpr rfl,
      by decide, rfl⟩
  have hcode : IsTag "\x7b@code a \x7b b\x7d".toList :=
    ⟨"code", by decide, [' '], "a \x7b b".toList, by decide, List.forall_mem_singleton.mpr rfl,
      by decide, rfl⟩
  have hfree : TagFree " or \x7b@link move.".toList := by decide +kernel
  obtain ⟨-, hpassages, hkept⟩ := markdown_tag_by_tag robots robotTargets (some robot)
  have hwhole := hpassages
    [("Call ", "\x7b@link #move(int)\x7d"), ("", "\x7b@code a \x7b b\x7d")] " or \x7b@link move."
    (by
      intro p hp
      rcases List.mem_pair.mp hp with rfl | rfl
      · exact ⟨by decide, hlink⟩
      · exact ⟨by decide, hcode⟩)
  rw [hkept _ hfree] at hwhole
  refine ⟨hlink, hcode, hfree, Eq.trans ?_ (hwhole.trans ?_)⟩
  · rfl
  · decide +kernel

end TypePages.Inline
