import TypePages.Proofs.PageFiles
import TypePages.Proofs.Runs

/-!
Pages stay below the root of all pages.

Names come as they are, with slashes, dots, brackets and hashes in them.  A segment keeps none of
these and has no hyphen at its ends, so behind the root of a path there are names only that lead one
folder down each (`IsSafe`), as many as the package has parts and one more.  The file of a page is
named after its path, so below a root without a hash it lies below the folder of the root
(`Run.liesBelow_root`): nothing in a name leads back out of it.
-/

namespace TypePages

namespace Path

/-- A path that goes on from another one and leads back nowhere. -/
def LiesBelow (p q : Path) : Prop := ∃ names, names ≠ [] ∧ ".." ∉ names ∧ p = q.below names

/-- Wherever the current folder is, what lies below a path is below its place. -/
theorem LiesBelow.exists_place_eq {p q : Path} (h : p.LiesBelow q) (current : Place) :
    ∃ names, names ≠ [] ∧ FileTree.place current p = FileTree.place current q ++ names := by
  obtain ⟨names, hne, hback, rfl⟩ := h
  exact ⟨names, hne, by rw [FileTree.place_below, FileTree.foldl_of_notMem hback]⟩

/-- Slashes at the end make no name. -/
theorem cutNames_dropWhileEnd (cs : List Char) :
    cutNames (Chars.dropWhileEnd (· == '/') cs) = cutNames cs := by
  obtain ⟨slashes, hcs, hslashes⟩ := Chars.exists_append_dropWhileEnd (· == '/') cs
  cases slashes with
  | nil => rw [List.append_nil] at hcs; rw [← hcs]
  | cons c slashes =>
      rw [List.forall_mem_cons, beq_iff_eq] at hslashes
      obtain ⟨rfl, hslashes⟩ := hslashes
      have hnone : cutNames slashes = [] := by
        rw [← cutNames_dropWhile, List.dropWhile_eq_nil_iff.mpr hslashes]
        rfl
      conv_rhs => rw [hcs, cutNames_append_cons, hnone, List.append_nil]

end Path

namespace PagePath

variable {root fullName package s : String} {c : Char} {cs : List Char}

/-! ### Segments -/

/-- A text that is the name of one file or folder, and of none above. -/
structure IsSafe (s : String) : Prop where
  ne_empty : s ≠ ""
  /-- There are ASCII letters and digits, underscores and hyphens. -/
  chars : ∀ c ∈ s.toList, c.isAlphanum = true ∨ c = '_' ∨ c = '-'
  head : s.toList.head? ≠ some '-'
  last : s.toList.getLast? ≠ some '-'

/-- Without dots, a name leads neither back nor nowhere. -/
theorem IsSafe.ne_dots (h : IsSafe s) : s ≠ "." ∧ s ≠ ".." := by
  have hdot : '.' ∉ s.toList := fun hmem => absurd (h.chars '.' hmem) (by decide)
  constructor <;> rintro rfl <;> exact hdot (by decide)

theorem isSafe_segment (name : String) : IsSafe (segment name) := by
  obtain ⟨hne, hkept⟩ := isSegment_segment name
  have hchars : (segment name).toList = segmentChars name.toList := String.toList_ofList
  refine ⟨hne, fun c hc => ?_, ?_, ?_⟩
  · have hc := hkept c hc
    rwa [isKept, Bool.or_eq_true, Bool.or_eq_true, beq_iff_eq, beq_iff_eq, or_assoc] at hc
  · rw [hchars]
    exact (ends_segmentChars _).1
  · rw [hchars]
    exact (ends_segmentChars _).2

/-- Every segment of a type is that of some name. -/
theorem isSafe_of_mem_segments (h : s ∈ segments fullName package) : IsSafe s := by
  rw [segments_eq] at h
  split at h
  · rw [List.mem_append, List.mem_singleton] at h
    rcases h with h | rfl
    · obtain ⟨name, -, rfl⟩ := List.mem_map.mp h
      exact isSafe_segment name
    · exact isSafe_segment _
  · rw [List.mem_singleton.mp h]
    exact isSafe_segment _

/-- The full name starts with the package and a dot. -/
def StartsWith (fullName package : String) : Prop :=
  package ≠ "" ∧ package.toList ++ ['.'] <+: fullName.toList

instance (fullName package : String) : Decidable (StartsWith fullName package) :=
  inferInstanceAs (Decidable (_ ∧ _))

theorem isSome_local?_iff : (local? fullName package).isSome ↔ StartsWith fullName package := by
  constructor
  · intro h
    obtain ⟨rest, hrest⟩ := Option.isSome_iff_exists.mp h
    refine ⟨?_, rest.toList, ?_⟩
    · rintro rfl
      cases hrest
    · rw [toList_of_local? hrest, List.append_assoc, List.singleton_append]
  · rintro ⟨hne, rest, hrest⟩
    have hdot : (package ++ ".").toList = package.toList ++ ['.'] := String.toList_append
    rw [local?, if_neg hne, Text.afterStart?, hdot, Chars.afterStart?_eq_some_iff.mpr hrest.symm]
    rfl

/-- A type has a segment for each part of its package, if its name starts with it, and one more. -/
theorem length_segments (fullName package : String) : (segments fullName package).length =
    (if StartsWith fullName package then package.toList.count '.' + 1 else 0) + 1 := by
  rw [segments_eq]
  cases hrest : local? fullName package with
  | none =>
      rw [if_neg fun hstarts => by
        rw [← isSome_local?_iff, hrest] at hstarts
        cases hstarts]
      rfl
  | some rest =>
      rw [if_pos (isSome_local?_iff.mp (by rw [hrest]; rfl)), List.length_append, List.length_map,
        Text.splitAt, List.length_map, Chars.length_splitOn]
      rfl

end PagePath

namespace Run

open PagePath (ofType)

variable {root fullName package : String} {folder : Path}

/-- Below a root without a hash, the file of a page lies in the folder of the root. -/
theorem liesBelow_root (folder : Path) (h : '#' ∉ root.toList) (fullName package : String) :
    (pageFile folder (ofType root fullName package)).LiesBelow
      (folder.below (Path.ofText root).names) := by
  obtain ⟨folders, name, hsegments, -⟩ := PagePath.exists_segments fullName package
  refine ⟨folders ++ [PagePath.segment name ++ ".md"], by simp,
    PagePath.notMem_page_names hsegments, ?_⟩
  rw [pageFile, PagePath.names_file_ofType h hsegments, Path.cutNames_dropWhileEnd,
    Path.names_ofText]
  simp only [Path.below, List.append_assoc]

/-- A page that is prepared has the file of its path. -/
theorem eq_of_returns_preparePage {path : String} {p : Path} {w w' : State}
    (h : (preparePage folder path).Returns w p w') : p = pageFile folder path := by
  obtain ⟨_, _, -, h⟩ := returns_bind_iff.mp h
  exact (returns_pure_iff.mp h).1

/-- **Page paths never leave their root.**  The path of a type's page is the root without slashes at
its end, and behind it a slash and a safe name for each part of the package that the full name
starts with, and for the rest.  So whatever the names are, the file that is prepared for a page
below `/api` lies in that folder of the output. -/
theorem ofType_below_root (root fullName package : String) :
    (∃ (stem slashes : List Char) (names : List String), root.toList = stem ++ slashes ∧
      (∀ c ∈ slashes, c = '/') ∧ stem.getLast? ≠ some '/' ∧
      (ofType root fullName package).toList = stem ++ names.flatMap (fun s => '/' :: s.toList) ∧
      names.length =
        (if PagePath.StartsWith fullName package then package.toList.count '.' + 1 else 0) + 1 ∧
      ∀ s ∈ names, PagePath.IsSafe s ∧ s ≠ "." ∧ s ≠ "..") ∧
    ∀ folder, (pageFile folder (ofType "/api" fullName package)).LiesBelow (folder.below ["api"]) ∧
      (∀ w p w', (preparePage folder (ofType "/api" fullName package)).Returns w p w' →
        p = pageFile folder (ofType "/api" fullName package)) ∧
      ∀ current, ∃ names, names ≠ [] ∧
        FileTree.place current (pageFile folder (ofType "/api" fullName package)) =
          FileTree.place current (folder.below ["api"]) ++ names := by
  constructor
  · obtain ⟨slashes, hroot, hslashes⟩ := Chars.exists_append_dropWhileEnd (· == '/') root.toList
    refine ⟨_, slashes, PagePath.segments fullName package, hroot,
      fun c hc => beq_iff_eq.mp (hslashes c hc), fun hlast => ?_,
      PagePath.toList_ofType root fullName package, PagePath.length_segments fullName package,
      fun s hs => ?_⟩
    · exact Chars.of_getLast?_dropWhileEnd hlast (beq_self_eq_true '/')
    · have hsafe := PagePath.isSafe_of_mem_segments hs
      exact ⟨hsafe, hsafe.ne_dots⟩
  · intro folder
    have hbelow : (pageFile folder (ofType "/api" fullName package)).LiesBelow
        (folder.below ["api"]) := liesBelow_root folder (by decide) fullName package
    exact ⟨hbelow, fun w p w' => eq_of_returns_preparePage, hbelow.exists_place_eq⟩

/-- A name that would lead back, with a package that would. -/
theorem ofType_below_root_dots :
    ∃ p w', (preparePage ⟨true, ["out"]⟩ (ofType "/api" "../a.<b>/../#c" "../a")).Returns
        ⟨[], .folder [], [], []⟩ p w' ∧
      p.LiesBelow ⟨true, ["out", "api"]⟩ ∧ p.text = "/out/api/Unknown/Unknown/a/c.md" := by
  obtain ⟨w', h⟩ : ∃ w',
      (preparePage ⟨true, ["out"]⟩ (ofType "/api" "../a.<b>/../#c" "../a")).Returns
        ⟨[], .folder [], [], []⟩ (pageFile ⟨true, ["out"]⟩ (ofType "/api" "../a.<b>/../#c" "../a"))
        w' := ⟨_, by cbv⟩
  obtain ⟨hbelow, -⟩ := (ofType_below_root "/api" "../a.<b>/../#c" "../a").2 ⟨true, ["out"]⟩
  exact ⟨_, w', h, hbelow, by cbv⟩

end Run

end TypePages
