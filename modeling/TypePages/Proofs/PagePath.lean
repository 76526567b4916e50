import Mathlib.Data.List.Infix
import TypePages.Link.PagePath
import TypePages.Proofs.Cutting

/-!
What page paths are made of.

A segment keeps letters, digits, underscores and hyphens, and is never empty, so in the path of a
page the slashes behind the root are those between the segments and a hash can only come from the
root.  An anchor keeps even less: no slash and no hash is left in it.  What a segment does not keep
is lost, so two names may have one segment.  This cannot happen to *plain* names, which are words
with single dots between them: `eq_of_segments_eq` reads such a name back.
-/

namespace TypePages

namespace Anchor

variable {kept : Char → Bool} {c : Char} {cs : List Char}

theorem of_mem_hyphenate (h : c ∈ hyphenate kept cs) : kept c = true ∨ c = '-' := by
  induction cs with
  | nil => cases h
  | cons d cs ih =>
      unfold hyphenate at h
      split at h
      next hd =>
        rcases List.mem_cons.mp h with rfl | h
        · exact .inl hd
        · exact ih h
      · split at h
        next rest hrest => exact ih (hrest ▸ h)
        · rcases List.mem_cons.mp h with rfl | h
          · exact .inr rfl
          · exact ih h

/-- An anchor has no other characters than the ones it keeps, and hyphens. -/
theorem of_mem_slug (h : c ∈ slug cs) : isKept c = true ∨ c = '-' := by
  unfold slug at h
  split at h
  · exact .inl (List.all_eq_true.mp rfl c h)
  · exact of_mem_hyphenate (Chars.mem_of_mem_strip h)

end Anchor

namespace PagePath

variable {c : Char} {cs ds es : List Char} {fullName fullName' package s : String}

/-! ### The characters of a segment -/

theorem isKept_of_mem_replaceRuns (h : c ∈ replaceRuns cs) : isKept c = true := by
  fun_induction replaceRuns cs with
  | case1 => cases h
  | case2 d cs hd ih =>
      rcases List.mem_cons.mp h with rfl | h
      · exact hd
      · exact ih h
  | case3 d hd =>
      rw [List.mem_singleton.mp h]
      rfl
  | case4 d hd x xs hx ih =>
      rcases List.mem_cons.mp h with rfl | h
      · rfl
      · exact ih h
  | case5 d hd x xs hx ih => exact ih h

/-- A segment has no other characters than the ones it keeps. -/
theorem isKept_of_mem_segmentChars (h : c ∈ segmentChars cs) : isKept c = true := by
  unfold segmentChars at h
  dsimp only at h
  split at h
  · exact List.all_eq_true.mp rfl c h
  · exact isKept_of_mem_replaceRuns (Chars.mem_of_mem_strip h)

theorem segmentChars_ne_nil (cs : List Char) : segmentChars cs ≠ [] := by
  unfold segmentChars
  dsimp only
  split
  · exact List.cons_ne_nil _ _
  next hne => exact hne

/-- A segment has a hyphen at neither end. -/
theorem ends_segmentChars (cs : List Char) :
    (segmentChars cs).head? ≠ some '-' ∧ (segmentChars cs).getLast? ≠ some '-' := by
  unfold segmentChars
  dsimp only
  split
  · exact ⟨by decide, by decide⟩
  · exact Chars.ends_strip '-' _

/-- The texts that may stand between the slashes of a page's path. -/
def IsSegment (s : String) : Prop := s ≠ "" ∧ ∀ c ∈ s.toList, isKept c = true

theorem IsSegment.notMem (h : IsSegment s) (hc : isKept c = false) : c ∉ s.toList := fun hmem => by
  rw [h.2 c hmem] at hc
  cases hc

theorem isSegment_segment (name : String) : IsSegment (segment name) := by
  constructor
  · intro h
    refine segmentChars_ne_nil name.toList ?_
    rw [← String.toList_ofList (l := segmentChars name.toList)]
    exact congrArg String.toList h
  · intro c hc
    rw [segment, String.toList_ofList] at hc
    exact isKept_of_mem_segmentChars hc

/-! ### The segments of a type -/

/-- The last segment is that of the type itself. -/
theorem exists_segments (fullName package : String) : ∃ folders name,
    segments fullName package = folders ++ [segment name] ∧ ∀ s ∈ folders, IsSegment s := by
  unfold segments
  split
  next rest h =>
    refine ⟨(Text.splitAt '.' package).map segment, rest, rfl, ?_⟩
    intro s hs
    obtain ⟨name, -, rfl⟩ := List.mem_map.mp hs
    exact isSegment_segment name
  · exact ⟨[], fullName, rfl, fun s hs => absurd hs List.not_mem_nil⟩

theorem isSegment_of_mem_segments (h : s ∈ segments fullName package) : IsSegment s := by
  obtain ⟨folders, name, heq, hfolders⟩ := exists_segments fullName package
  rw [heq, List.mem_append, List.mem_singleton] at h
  rcases h with h | rfl
  · exact hfolders s h
  · exact isSegment_segment name

/-- The path of a page is its root, and each segment behind a slash. -/
theorem toList_ofType (root fullName package : String) : (ofType root fullName package).toList =
    Chars.dropWhileEnd (· == '/') root.toList ++
      (segments fullName package).flatMap fun s => '/' :: s.toList := by
  rw [ofType, Text.join, List.map_cons, String.toList_ofList, Chars.intercalate_cons,
    List.flatMap_map, String.toList_ofList, String.toList_ofList]
  rfl

/-! ### Plain names -/

/-- A name of words with single dots between them.  A word is made of letters, digits and
underscores. -/
structure IsPlain (cs : List Char) : Prop where
  ne_nil : cs ≠ []
  chars : ∀ c ∈ cs, c.isAlphanum = true ∨ c = '_' ∨ c = '.'
  head : cs.head? ≠ some '.'
  last : cs.getLast? ≠ some '.'
  apart : ¬['.', '.'] <:+: cs

theorem isPlain_iff : IsPlain cs ↔
    cs ≠ [] ∧ cs.all (fun c => c.isAlphanum || c == '_' || c == '.') ∧ cs.head? ≠ some '.' ∧
      cs.getLast? ≠ some '.' ∧ ¬['.', '.'] <:+: cs := by
  have hchars : cs.all (fun c => c.isAlphanum || c == '_' || c == '.') ↔
      ∀ c ∈ cs, c.isAlphanum = true ∨ c = '_' ∨ c = '.' := by
    simp [List.all_eq_true, or_assoc]
  rw [hchars]
  exact ⟨fun h => ⟨h.ne_nil, h.chars, h.head, h.last, h.apart⟩,
    fun ⟨hne, hchars, hhead, hlast, hapart⟩ => ⟨hne, hchars, hhead, hlast, hapart⟩⟩

instance (cs : List Char) : Decidable (IsPlain cs) := decidable_of_iff _ isPlain_iff.symm

theorem dropPairs_of_notMem (h : '<' ∉ cs) : dropPairs cs = cs := by
  induction cs with
  | nil => rw [dropPairs]
  | cons c cs ih =>
      rw [List.mem_cons, not_or] at h
      rw [dropPairs, if_neg fun heq => h.1 heq.symm, ih h.2]

/-- A name without opening brackets has no type arguments. -/
theorem dropArguments_of_notMem (h : '<' ∉ cs) : dropArguments cs = cs := by
  rw [dropArguments, dropPairs_of_notMem h, if_neg (Nat.lt_irrefl _)]

theorem replaceRuns_of_forall (h : ∀ c ∈ cs, isKept c = true) : replaceRuns cs = cs := by
  induction cs with
  | nil => rfl
  | cons c cs ih =>
      rw [replaceRuns.eq_def]
      dsimp only
      rw [if_pos (h c List.mem_cons_self), ih fun d hd => h d (List.mem_cons_of_mem c hd)]

/-- Where there is nothing to drop, to replace or to strip, a segment is the name as it is spelled
with hyphens. -/
theorem segmentChars_of_spelled (hopen : '<' ∉ cs)
    (hspelled : (cs.map fun c => if c = '$' ∨ c = '.' then '-' else c) = ds)
    (hkept : ∀ c ∈ ds, isKept c = true) (hne : ds ≠ []) (hhead : ds.head? ≠ some '-')
    (hlast : ds.getLast? ≠ some '-') : segmentChars cs = ds := by
  unfold segmentChars
  dsimp only
  rw [dropArguments_of_notMem hopen, hspelled, replaceRuns_of_forall hkept,
    Chars.strip_of_ends hhead hlast]
  cases ds with
  | nil => exact absurd rfl hne
  | cons d ds => rfl

namespace IsPlain

variable (h : IsPlain cs)

include h

theorem notMem (hc : ¬(c.isAlphanum = true ∨ c = '_' ∨ c = '.')) : c ∉ cs :=
  fun hmem => hc (h.chars c hmem)

/-- What stands behind a dot in a plain name is plain. -/
theorem of_append (heq : cs = ds ++ '.' :: c :: es) : IsPlain (c :: es) := by
  have hsuffix : c :: es <:+ cs := ⟨ds ++ ['.'], by rw [heq]; simp⟩
  refine ⟨List.cons_ne_nil c es, fun x hx => h.chars x (hsuffix.subset hx), fun hhead => ?_,
    fun hlast => h.last ?_, fun hpart => h.apart (hpart.trans hsuffix.isInfix)⟩
  · rw [List.head?_cons, Option.some.injEq] at hhead
    exact h.apart ⟨ds, es, by rw [heq, hhead]; simp⟩
  · rw [heq, List.getLast?_append, List.getLast?_cons_cons, hlast]
    rfl

/-- The segment of a plain name has a hyphen for every dot. -/
theorem segmentChars_eq : segmentChars cs = cs.map fun c => if c = '.' then '-' else c := by
  have hmap : (cs.map fun c => if c = '$' ∨ c = '.' then '-' else c) =
      cs.map fun c => if c = '.' then '-' else c := by
    refine List.map_congr_left fun c hc => ?_
    have hne : c ≠ '$' := fun heq => h.notMem (by decide) (heq ▸ hc)
    simp [hne]
  have hkept : ∀ c ∈ cs.map fun c => if c = '.' then '-' else c, isKept c = true := by
    intro d hd
    obtain ⟨c, hc, rfl⟩ := List.mem_map.mp hd
    split
    · rfl
    next hne =>
      rcases h.chars c hc with halnum | rfl | rfl
      · simp [isKept, halnum]
      · rfl
      · exact absurd rfl hne
  have hdot : ∀ x ∈ cs, (if x = '.' then '-' else x) = '-' → x = '.' := by
    intro x hx heq
    by_cases hx' : x = '.'
    · exact hx'
    · rw [if_neg hx'] at heq
      exact absurd (heq ▸ hx) (h.notMem (by decide))
  refine segmentChars_of_spelled (h.notMem (by decide)) hmap hkept
    (mt List.map_eq_nil_iff.mp h.ne_nil) (fun hhead => h.head ?_) fun hlast => h.last ?_
  · rw [List.head?_map, Option.map_eq_some_iff] at hhead
    obtain ⟨x, hx, heq⟩ := hhead
    rw [hx, hdot x (List.mem_of_head? hx) heq]
  · rw [List.getLast?_map, Option.map_eq_some_iff] at hlast
    obtain ⟨x, hx, heq⟩ := hlast
    rw [hx, hdot x (List.mem_of_getLast? hx) heq]

end IsPlain

/-- A plain name is read back from its segment. -/
theorem eq_of_segmentChars_eq (h : IsPlain cs) (h' : IsPlain ds)
    (heq : segmentChars cs = segmentChars ds) : cs = ds := by
  have hback : ∀ {xs : List Char}, IsPlain xs →
      (segmentChars xs).map (fun c => if c = '-' then '.' else c) = xs := by
    intro xs hxs
    rw [hxs.segmentChars_eq, List.map_map]
    refine (List.map_congr_left fun c hc => ?_).trans (List.map_id xs)
    have hne : c ≠ '-' := fun heq => hxs.notMem (by decide) (heq ▸ hc)
    by_cases hdot : c = '.'
    · simp [hdot]
    · simp [hdot, hne]
  rw [← hback h, heq, hback h']

theorem eq_of_segment_eq {name name' : String} (h : IsPlain name.toList) (h' : IsPlain name'.toList)
    (heq : segment name = segment name') : name = name' := by
  refine String.toList_inj.mp (eq_of_segmentChars_eq h h' ?_)
  rw [← String.toList_ofList (l := segmentChars name.toList),
    ← String.toList_ofList (l := segmentChars name'.toList)]
  exact congrArg String.toList heq

/-- What the package leaves of a full name, if the name starts with it. -/
def local? (fullName package : String) : Option String :=
  if package = "" then none else Text.afterStart? (package ++ ".") fullName

theorem segments_eq (fullName package : String) : segments fullName package =
    match local? fullName package with
    | some rest => (Text.splitAt '.' package).map segment ++ [segment rest]
    | none => [segment fullName] := rfl

theorem toList_of_local? {rest : String} (h : local? fullName package = some rest) :
    fullName.toList = package.toList ++ '.' :: rest.toList := by
  unfold local? at h
  split at h
  · cases h
  · rw [Text.afterStart?_eq_some_iff.mp h, String.toList_append, String.toList_append,
      List.append_assoc]
    rfl

theorem IsPlain.of_local? (h : IsPlain fullName.toList) {rest : String}
    (hrest : local? fullName package = some rest) : IsPlain rest.toList := by
  have hsplit := toList_of_local? hrest
  cases hchars : rest.toList with
  | nil =>
      rw [hsplit, hchars] at h
      exact absurd List.getLast?_concat h.last
  | cons c es => exact h.of_append (hchars ▸ hsplit)

/-- A package has folders, so a name that starts with it has another path than one that does not. -/
theorem folders_ne_nil (package : String) : (Text.splitAt '.' package).map segment ≠ [] := by
  rw [Text.splitAt, List.splitOn, ne_eq, List.map_eq_nil_iff, List.map_eq_nil_iff]
  exact List.splitOnP_ne_nil _ _

/-- Within a package, a plain full name is read back from its segments. -/
theorem eq_of_segments_eq (h : IsPlain fullName.toList) (h' : IsPlain fullName'.toList)
    (heq : segments fullName package = segments fullName' package) : fullName = fullName' := by
  rw [segments_eq, segments_eq] at heq
  cases hrest : local? fullName package with
  | none =>
      cases hrest' : local? fullName' package with
      | none =>
          rw [hrest, hrest'] at heq
          exact eq_of_segment_eq h h' (List.singleton_inj.mp heq)
      | some rest' =>
          rw [hrest, hrest', ← List.nil_append [segment fullName]] at heq
          exact absurd (List.append_inj_left' heq rfl).symm (folders_ne_nil package)
  | some rest =>
      cases hrest' : local? fullName' package with
      | none =>
          rw [hrest, hrest', ← List.nil_append [segment fullName']] at heq
          exact absurd (List.append_inj_left' heq rfl) (folders_ne_nil package)
      | some rest' =>
          rw [hrest, hrest'] at heq
          have hlast := List.singleton_inj.mp (List.append_cancel_left heq)
          have hsame := eq_of_segment_eq (h.of_local? hrest) (h'.of_local? hrest') hlast
          rw [← String.toList_inj, toList_of_local? hrest, toList_of_local? hrest', hsame]

end PagePath

end TypePages
