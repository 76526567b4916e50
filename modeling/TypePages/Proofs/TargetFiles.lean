import TypePages.Proofs.Pages
import TypePages.Proofs.References

/-!
Links lead to the files that are written.

A type is documented when it is included, and then it is linkable and has a target, whatever else is
linkable besides.  Its page is therefore written to the file of its target and never to that of a
path made up anew.  A member's target has the page of its type up to the first hash, and files are
named after just that, so a member's link leads to the file of its type: `file_ofMember`.
-/

namespace TypePages

namespace PagePath

/-- Behind the first hash, a path says nothing about its file. -/
theorem file_before_append (path rest : String) :
    file (Text.before '#' path ++ "#" ++ rest) = file path := by
  have hcut : (Chars.cut '#' (Text.before '#' path ++ "#" ++ rest).toList).1 =
      (Chars.cut '#' path.toList).1 := by
    have hchars : (Text.before '#' path ++ "#" ++ rest).toList =
        (Chars.cut '#' path.toList).1 ++ '#' :: rest.toList := by
      rw [String.toList_append, String.toList_append, Text.before, String.toList_ofList,
        List.append_assoc]
      rfl
    rw [hchars, Chars.cut_append_cons (Chars.notMem_cut '#' path.toList)]
  unfold file
  rw [Text.before, hcut, Text.before]

/-- A member has the file of the page that it is shown on. -/
theorem file_ofMember (t : Target) (e : Element) : file (t.ofMember e).page = file t.page :=
  file_before_append t.page (Anchor.ofMember e)

end PagePath

namespace Run

variable {config : Value} {m : Model} {targets : Targets} {e : Element} {t : Target}
  {types : List Element}

/-- The page of a type with a target has the path of the target, whatever the settings are. -/
theorem pagePath_of_find? (h : targets.find? e.uid = some t) (config : Value) :
    pagePath config targets e = .ok t.page := by
  unfold pagePath
  rw [h]

/-- The file that is prepared for a page is the same for the page of its members. -/
theorem preparePage_ofMember (t : Target) (e : Element) (folder : Path) :
    preparePage folder (t.ofMember e).page = preparePage folder t.page := by
  unfold preparePage pageFile
  rw [PagePath.file_ofMember]

/-- **Links and pages agree.**  Once the documented types are known there are targets below every
root, and each documented type has one.  The path of its page is that of the target, and the file
that this path leads to is the one that changes when the page is written.  Each member of the type
has a target as well, and the path of that leads to the same file. -/
theorem targets_agree (htypes : m.documentedTypes = .ok types) :
    (∀ root, ∃ targets, Targets.ofModel m (.text root) = .ok targets) ∧
    ∀ root targets, Targets.ofModel m root = .ok targets → ∀ e ∈ types, ∃ t,
      targets.find? e.uid = some t ∧
      (∀ config, pagePath config targets e = .ok t.page) ∧
      (∀ r config folder w w', w.tree.isFolder (FileTree.start w.current folder) = true →
        (writePage r config m targets folder e).Returns w () w' →
        ∃ text, (Page.render config m targets e ⟨r.details, some t.page⟩).1 = .ok text ∧
          Files (FileTree.place w.current (pageFile folder t.page)) text w w') ∧
      ∀ x ∈ m.elements, x.parent = some e.uid → x.isType = false → ∃ t',
        targets.find? x.uid = some t' ∧
        ∀ folder, pageFile folder t'.page = pageFile folder t.page ∧
          preparePage folder t'.page = preparePage folder t.page := by
  refine ⟨Targets.ofModel_of_documentedTypes htypes, fun root targets htargets e he => ?_⟩
  obtain ⟨s, -, hfind⟩ := Targets.find?_documented htargets htypes he
  obtain ⟨hmem, htype⟩ :=
    List.mem_filter.mp ((Refusal.mem_iff_of_filterM_eq_ok htypes).mp he).1
  refine ⟨_, hfind, pagePath_of_find? hfind, fun r config folder w w' hfolder hwrite =>
    files_writePage hfind hfolder hwrite, fun x hx hparent hnot => ⟨_, ?_, fun folder =>
    ⟨?_, preparePage_ofMember _ x folder⟩⟩⟩
  · exact Targets.find?_member htargets hmem htype hfind
      (Model.mem_membersOf_iff.mpr ⟨hx, hparent⟩) hnot
  · unfold pageFile
    rw [PagePath.file_ofMember]

/-- The page of bolts is written to the file of its target.  Where the root has a hash, robots and
their moves have one file all the same. -/
theorem targets_agree_robots :
    (∃ (h : "Bolt" ≠ "Nut") (targets : Targets) (t : Target) (text : String) (w' : State),
      Targets.ofModel (twoClasses "Bolt" "Nut" h) (.text "/api") = .ok targets ∧
      targets.find? (bareClass "Bolt").uid = some t ∧
      (writePage outRequest bareSettings (twoClasses "Bolt" "Nut" h) targets ⟨true, ["out"]⟩
        (bareClass "Bolt")).Returns emptyFolder () w' ∧
      Files (FileTree.place [] (pageFile ⟨true, ["out"]⟩ t.page)) text emptyFolder w') ∧
    ∃ (targets : Targets) (t t' : Target),
      Targets.ofModel Inline.robots (.text "/wiki#api") = .ok targets ∧
      targets.find? Inline.robot.uid = some t ∧ targets.find? Inline.moveOne.uid = some t' ∧
      pageFile ⟨true, ["out"]⟩ t'.page = pageFile ⟨true, ["out"]⟩ t.page := by
  constructor
  · have htargets : Targets.ofModel (twoClasses "Bolt" "Nut" (by decide)) (.text "/api") =
        .ok boltTargets := by cbv
    obtain ⟨-, hagree⟩ :=
      targets_agree (documentedTypes_twoClasses (a := "Bolt") (b := "Nut") (by decide))
    obtain ⟨t, hfind, -, hwritten, -⟩ := hagree _ _ htargets _ List.mem_cons_self
    have hplaces : placesAfter (fileBare (twoClasses "Bolt" "Nut" (by decide)) boltTargets
        ⟨true, ["out"]⟩ (bareClass "Bolt")) emptyFolder =
          some [["out", "api", "com", "example", "Bolt.md"]] := by decide +kernel
    obtain ⟨w', hreturned, -⟩ := returns_of_placesAfter hplaces
    rw [← writePage_twoClasses _ List.mem_cons_self (by decide +kernel)] at hreturned
    obtain ⟨text, -, hfiles⟩ := hwritten _ _ _ _ _ (by decide +kernel) hreturned
    exact ⟨by decide, _, t, text, w', htargets, hfind, hreturned, hfiles⟩
  · have htypes : Inline.robots.documentedTypes = .ok [Inline.robot] := by cbv
    obtain ⟨hreturns, hagree⟩ := targets_agree htypes
    obtain ⟨targets, htargets⟩ := hreturns "/wiki#api"
    obtain ⟨t, hfind, -, -, hmembers⟩ := hagree _ _ htargets _ List.mem_cons_self
    obtain ⟨t', hfind', hsame⟩ := hmembers Inline.moveOne (by simp [Inline.robots]) rfl rfl
    exact ⟨targets, t, t', htargets, hfind, hfind', (hsame _).1⟩

end Run

end TypePages
