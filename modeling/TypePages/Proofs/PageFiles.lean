import TypePages.Proofs.FileTree
import TypePages.Proofs.PagePath
import TypePages.Run.Generate

/-!
Which types share a file.

The file of a page is named after the path of the page, up to the first hash and without slashes at
its start.  The segments come through as they are, the last one with an ending, and the root stands
in front of all files alike.  So two types share a file when their segments are the same, and below
a root with a hash, where the segments are cut off, all types share one: `pagePlace_eq_iff`.
-/

namespace TypePages

/-! ### Names of a path -/

namespace Path

/-- The names that a text is cut into by its slashes. -/
def cutNames (cs : List Char) : List String :=
  ((cs.splitOn '/').map .ofList).filter fun n => n != "" && n != "."

theorem names_ofText (s : String) : (ofText s).names = cutNames s.toList := rfl

theorem cutNames_append_cons (xs ys : List Char) :
    cutNames (xs ++ '/' :: ys) = cutNames xs ++ cutNames ys := by
  rw [cutNames, List.splitOn, List.splitOnP_append_cons _ _ (by simp), List.map_append,
    List.filter_append]
  rfl

/-- Slashes at the start make no name. -/
theorem cutNames_dropWhile (cs : List Char) :
    cutNames (cs.dropWhile (· == '/')) = cutNames cs := by
  induction cs with
  | nil => rfl
  | cons c cs ih =>
      by_cases hc : c = '/'
      · have hsplit := cutNames_append_cons [] cs
        rw [hc, List.dropWhile_cons_of_pos (by simp), ih]
        exact hsplit.symm
      · rw [List.dropWhile_cons_of_neg (by simp [hc])]

theorem cutNames_of_notMem {cs : List Char} (h : '/' ∉ cs) (hne : String.ofList cs ≠ "")
    (hdot : String.ofList cs ≠ ".") : cutNames cs = [.ofList cs] := by
  rw [cutNames, List.splitOn_eq_singleton h, List.map_singleton]
  refine List.filter_cons_of_pos ?_
  rw [Bool.and_eq_true, bne_iff_ne, bne_iff_ne]
  exact ⟨hne, hdot⟩

end Path

namespace PagePath

open TypePages.Path (cutNames)

variable {root fullName fullName' package package' s : String} {cs : List Char}

/-- A segment is a name of its own. -/
theorem IsSegment.cutNames_eq (h : IsSegment s) : cutNames s.toList = [s] := by
  have hself : String.ofList s.toList = s := String.ofList_toList
  rw [Path.cutNames_of_notMem, hself]
  · exact h.notMem rfl
  · rw [hself]
    exact h.1
  · rw [hself]
    rintro rfl
    exact h.notMem (c := '.') rfl (by decide)

/-- Behind a root each segment is a name. -/
theorem cutNames_segments (cs : List Char) {segments : List String}
    (h : ∀ s ∈ segments, IsSegment s) :
    cutNames (cs ++ segments.flatMap fun s => '/' :: s.toList) = cutNames cs ++ segments := by
  induction segments generalizing cs with
  | nil => rw [List.flatMap_nil, List.append_nil, List.append_nil]
  | cons s segments ih =>
      rw [List.flatMap_cons, ← List.append_assoc,
        ih (cs ++ '/' :: s.toList) fun x hx => h x (List.mem_cons_of_mem s hx),
        Path.cutNames_append_cons, (h s List.mem_cons_self).cutNames_eq, List.append_assoc]
      rfl

/-- A name with the ending of a page is a name of its own, and leads to no folder above. -/
theorem cutNames_ending (h : '/' ∉ cs) :
    cutNames (cs ++ ".md".toList) = [.ofList (cs ++ ".md".toList)] ∧
      String.ofList (cs ++ ".md".toList) ≠ ".." := by
  have hne : ∀ s : String, s.toList.length < 3 → String.ofList (cs ++ ".md".toList) ≠ s := by
    intro s hlength heq
    rw [← heq, String.toList_ofList, List.length_append] at hlength
    exact absurd hlength (by simp)
  refine ⟨Path.cutNames_of_notMem ?_ (hne "" (by decide)) (hne "." (by decide)),
    hne ".." (by decide)⟩
  rw [List.mem_append, not_or]
  exact ⟨h, by decide⟩

/-- The last name of a page's file has the ending of a page. -/
theorem exists_last_name (path : String) : ∃ names last,
    (Path.ofText (file path)).names = names ++ [last] ∧ last ≠ ".." := by
  rw [Path.names_ofText, file, String.toList_append, String.toList_ofList]
  generalize (Text.before '#' path).toList.dropWhile (· == '/') = cs
  by_cases hmem : '/' ∈ cs
  · obtain ⟨start, tail, hsplit, hstart⟩ :=
      List.eq_append_cons_of_mem (List.mem_reverse.mpr hmem)
    have hcs : cs = tail.reverse ++ '/' :: start.reverse := by
      rw [← List.reverse_reverse cs, hsplit]
      simp
    have hslash : '/' ∉ start.reverse := by simpa using hstart
    obtain ⟨hnames, hne⟩ := cutNames_ending hslash
    refine ⟨cutNames tail.reverse, _, ?_, hne⟩
    rw [hcs, List.append_assoc, List.cons_append, Path.cutNames_append_cons, hnames]
  · obtain ⟨hnames, hne⟩ := cutNames_ending hmem
    exact ⟨[], _, hnames, hne⟩

/-! ### Files of types -/

theorem mem_dropWhileEnd_iff (root : String) :
    '#' ∈ Chars.dropWhileEnd (· == '/') root.toList ↔ '#' ∈ root.toList := by
  refine ⟨Chars.mem_of_mem_dropWhileEnd, fun h => ?_⟩
  obtain ⟨tail, hroot, htail⟩ := Chars.exists_append_dropWhileEnd (· == '/') root.toList
  rw [hroot, List.mem_append] at h
  exact h.resolve_right fun hmem => absurd (htail '#' hmem) (by decide)

/-- A root with a hash cuts off everything behind it. -/
theorem file_ofType_of_hash (h : '#' ∈ root.toList) (fullName package : String) :
    file (ofType root fullName package) = file root := by
  have hhash := (mem_dropWhileEnd_iff root).mpr h
  obtain ⟨tail, hroot, -⟩ := Chars.exists_append_dropWhileEnd (· == '/') root.toList
  have hright : (Chars.cut '#' root.toList).1 =
      (Chars.cut '#' (Chars.dropWhileEnd (· == '/') root.toList)).1 :=
    (congrArg (fun cs => (Chars.cut '#' cs).1) hroot).trans (Chars.cut_append_of_mem hhash tail)
  have hcut : (Chars.cut '#' (ofType root fullName package).toList).1 =
      (Chars.cut '#' root.toList).1 := by
    rw [toList_ofType, Chars.cut_append_of_mem hhash, hright]
  rw [file, file, Text.before, Text.before, hcut]

theorem notMem_ofType (h : '#' ∉ root.toList) (fullName package : String) :
    '#' ∉ (ofType root fullName package).toList := by
  rw [toList_ofType, List.mem_append, mem_dropWhileEnd_iff, List.mem_flatMap, not_or]
  refine ⟨h, ?_⟩
  rintro ⟨s, hs, hc⟩
  rcases List.mem_cons.mp hc with heq | hc
  · exact absurd heq (by decide)
  · exact (isSegment_of_mem_segments hs).notMem rfl hc

/-- Below a root without a hash, the names of a type's file are those of the root and its segments.
-/
theorem names_file_ofType (h : '#' ∉ root.toList) {folders : List String} {name : String}
    (hsegments : segments fullName package = folders ++ [name]) :
    (Path.ofText (file (ofType root fullName package))).names =
      cutNames (Chars.dropWhileEnd (· == '/') root.toList) ++ folders ++ [name ++ ".md"] := by
  have hsegment : ∀ s ∈ folders ++ [name], IsSegment s := fun s hs =>
    isSegment_of_mem_segments (hsegments ▸ hs)
  have hname := hsegment name (by simp)
  have hslash : '/' ∉ name.toList := hname.notMem rfl
  have hpath : (ofType root fullName package).toList =
      (Chars.dropWhileEnd (· == '/') root.toList ++ folders.flatMap fun s => '/' :: s.toList) ++
        '/' :: name.toList := by
    rw [toList_ofType, hsegments, List.flatMap_append, List.flatMap_singleton, List.append_assoc]
  have hbefore : (Text.before '#' (ofType root fullName package)).toList =
      (ofType root fullName package).toList := by
    rw [Text.before, Chars.cut_of_notMem (notMem_ofType h fullName package)]
    exact String.toList_ofList
  -- The slashes at the start are gone before the ending is there, which makes no difference.
  have hdrop : (file (ofType root fullName package)).toList =
      ((ofType root fullName package).toList ++ ".md".toList).dropWhile (· == '/') := by
    have hne : (ofType root fullName package).toList.dropWhile (· == '/') ≠ [] := by
      obtain ⟨c, cs, hc⟩ := List.exists_cons_of_ne_nil fun hnil =>
        hname.1 (String.toList_eq_nil_iff.mp hnil)
      rw [ne_eq, List.dropWhile_eq_nil_iff, hpath]
      intro hall
      refine absurd (hall c (by simp [hc])) ?_
      simpa using fun heq : c = '/' => hslash (by simp [hc, heq])
    rw [file, hbefore, String.toList_append, String.toList_ofList, List.dropWhile_append,
      if_neg (by simpa [List.isEmpty_iff] using hne)]
  have hending := (cutNames_ending hslash).1
  rw [← String.toList_append, String.ofList_toList] at hending
  rw [Path.names_ofText, hdrop, Path.cutNames_dropWhile, hpath, List.append_assoc, List.cons_append,
    Path.cutNames_append_cons, ← String.toList_append, hending,
    cutNames_segments _ fun s hs => hsegment s (List.mem_append_left _ hs)]

/-- Neither the folders nor the file of a type lead back. -/
theorem notMem_page_names {folders : List String} {name : String}
    (hsegments : segments fullName package = folders ++ [name]) :
    ".." ∉ folders ++ [name ++ ".md"] := by
  have hsegment : ∀ s ∈ folders ++ [name], IsSegment s := fun s hs =>
    isSegment_of_mem_segments (hsegments ▸ hs)
  rw [List.mem_append, List.mem_singleton, not_or]
  constructor
  · exact fun hmem =>
      (hsegment _ (List.mem_append_left _ hmem)).notMem (c := '.') rfl (by decide)
  · have hslash : '/' ∉ name.toList := (hsegment name (by simp)).notMem rfl
    have hne := (cutNames_ending hslash).2
    rw [← String.toList_append, String.ofList_toList] at hne
    exact hne.symm

end PagePath

namespace Run

open PagePath (segments names_file_ofType)

variable {root : String} {e e' : Element}

/-- The place of a type's page below a folder. -/
def pagePlace (current : Place) (folder : Path) (root : String) (e : Element) : Place :=
  FileTree.place current (pageFile folder (PagePath.ofType root e.fullName e.package))

/-- Two types whose pages are written to one file. -/
def Clash (root : String) (e e' : Element) : Prop :=
  '#' ∈ root.toList ∨ segments e.fullName e.package = segments e'.fullName e'.package

instance (root : String) (e e' : Element) : Decidable (Clash root e e') :=
  inferInstanceAs (Decidable (_ ∨ _))

/-- Below a root without a hash, the segments of a type lead from one place to its page. -/
theorem pagePlace_eq (current : Place) (folder : Path) (h : '#' ∉ root.toList)
    {folders : List String} {name : String}
    (hsegments : segments e.fullName e.package = folders ++ [name]) :
    pagePlace current folder root e =
      FileTree.place current
        (folder.below (Path.cutNames (Chars.dropWhileEnd (· == '/') root.toList))) ++
          folders ++ [name ++ ".md"] := by
  rw [pagePlace, pageFile, names_file_ofType h hsegments, FileTree.place_below,
    FileTree.place_below, List.append_assoc, List.foldl_append,
    FileTree.foldl_of_notMem (PagePath.notMem_page_names hsegments), List.append_assoc]

/-- **Two types share the file of their pages when they clash, and only then.** -/
theorem pagePlace_eq_iff (current : Place) (folder : Path) :
    pagePlace current folder root e = pagePlace current folder root e' ↔ Clash root e e' := by
  by_cases h : '#' ∈ root.toList
  · refine iff_of_true ?_ (.inl h)
    rw [pagePlace, pagePlace, pageFile, pageFile, PagePath.file_ofType_of_hash h,
      PagePath.file_ofType_of_hash h]
  · rw [Clash, or_iff_right h]
    obtain ⟨folders, name, hsegments, -⟩ := PagePath.exists_segments e.fullName e.package
    obtain ⟨folders', name', hsegments', -⟩ := PagePath.exists_segments e'.fullName e'.package
    rw [pagePlace_eq current folder h hsegments, pagePlace_eq current folder h hsegments',
      hsegments, hsegments', List.append_assoc, List.append_assoc, List.append_cancel_left_eq,
      ← List.concat_eq_append, ← List.concat_eq_append, ← List.concat_eq_append,
      ← List.concat_eq_append, List.concat_inj, List.concat_inj, String.append_left_inj]

end Run

end TypePages
