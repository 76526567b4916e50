import Mathlib
import TypePages.Proofs.PageFiles
import TypePages.Proofs.Runs
import TypePages.Proofs.Targets

/-!
What writing the pages leaves on the disk.

A page is written over whatever is at its place, so of the pages that share a file only the last one
stays, and all of them are counted.  `Leaves` says this of a list of types; it is proved for one
page and carried along the list.  Nothing but the places of the pages changes: the folders that are
made for them hold no files.
-/

namespace TypePages.Run

variable {r : Request} {config : Value} {m : Model} {targets : Targets} {folder : Path}
  {root : String} {e e' : Element} {t : Target} {types : List Element} {w w₁ w' : State}

/-! ### One page -/

/-- Making folders changes no file. -/
theorem of_makeFolders {p : Path} (hstart : w.tree.isFolder (FileTree.start w.current p) = true)
    (h : (makeFolders p).Returns w () w') : w'.current = w.current ∧
      (∀ p, w.tree.isFolder p = true → w'.tree.isFolder p = true) ∧
      ∀ p, w'.tree.fileAt p = w.tree.fileAt p := by
  obtain ⟨_, _, hget, h₁⟩ := returns_bind_iff.mp h
  obtain ⟨rfl, rfl⟩ := returns_get_iff.mp hget
  obtain ⟨_, _, hset, h₂⟩ := returns_bind_iff.mp h₁
  rw [returns_set_iff] at hset
  obtain ⟨-, rfl⟩ := returns_ofFile_iff.mp h₂
  obtain ⟨hfiles, hfolders⟩ := FileTree.of_makeFolders hstart
  rw [hset]
  exact ⟨rfl, hfolders, hfiles⟩

/-- What writing a text to a file leaves behind. -/
structure Files (p : Place) (text : String) (w w' : State) : Prop where
  current : w'.current = w.current
  folders : ∀ q, w.tree.isFolder q = true → w'.tree.isFolder q = true
  files : ∀ q, w'.tree.fileAt q = if q = p then some text.toUTF8 else w.tree.fileAt q

/-- Writes the text of a page to its file. -/
def filePage (folder : Path) (path text : String) : Run Unit := do
  let p ← preparePage folder path
  let w ← get
  let tree ← ofFile (w.tree.write w.current p text.toUTF8)
  set { w with tree }

/-- Writing a page is rendering it and writing its text. -/
theorem writePage_eq (r : Request) (config : Value) (m : Model) (targets : Targets) (folder : Path)
    (e : Element) : writePage r config m targets folder e = (do
      let path ← of (pagePath config targets e)
      report (Page.render config m targets e ⟨r.details, some path⟩).2
      let text ← of (Page.render config m targets e ⟨r.details, some path⟩).1
      filePage folder path text) := rfl

theorem files_filePage {path text : String}
    (hfolder : w.tree.isFolder (FileTree.start w.current folder) = true)
    (h : (filePage folder path text).Returns w () w') :
    Files (FileTree.place w.current (pageFile folder path)) text w w' := by
  have hstart : w.tree.isFolder (FileTree.start w.current (pageFile folder path)) = true := hfolder
  obtain ⟨p, w₁, hprepare, h₁⟩ := returns_bind_iff.mp h
  obtain ⟨_, w₂, hmake, hp⟩ := returns_bind_iff.mp hprepare
  obtain ⟨rfl, rfl⟩ := returns_pure_iff.mp hp
  obtain ⟨_, _, hget, h₂⟩ := returns_bind_iff.mp h₁
  obtain ⟨rfl, rfl⟩ := returns_get_iff.mp hget
  obtain ⟨tree, _, hfile, h₃⟩ := returns_bind_iff.mp h₂
  obtain ⟨hwrite, rfl⟩ := returns_ofFile_iff.mp hfile
  obtain ⟨hcurrent, hfolders, hfiles⟩ :=
    of_makeFolders (p := (pageFile folder path).parent) hfolder hmake
  obtain ⟨names, last, hnames, hne⟩ := PagePath.exists_last_name path
  have hlast : (pageFile folder path).names.getLast? = some last := by
    rw [pageFile, Path.below, hnames, ← List.append_assoc]
    exact List.getLast?_concat
  rw [hcurrent] at hwrite
  obtain ⟨hfiles', hfolders'⟩ := FileTree.of_write (hfolders _ hstart) hlast hne hwrite
  rw [returns_set_iff.mp h₃]
  exact ⟨hcurrent, fun q hq => hfolders' q (hfolders q hq), fun q => hfiles q ▸ hfiles' q⟩

/-- The page of a type with a target changes the file that its path leads to, and no other. -/
theorem files_writePage (htarget : targets.find? e.uid = some t)
    (hfolder : w.tree.isFolder (FileTree.start w.current folder) = true)
    (h : (writePage r config m targets folder e).Returns w () w') :
    ∃ text, (Page.render config m targets e ⟨r.details, some t.page⟩).1 = .ok text ∧
      Files (FileTree.place w.current (pageFile folder t.page)) text w w' := by
  rw [writePage_eq] at h
  obtain ⟨path, _, hof, h₁⟩ := returns_bind_iff.mp h
  obtain ⟨hpath, rfl⟩ := returns_of_iff.mp hof
  obtain rfl : t.page = path := by
    unfold pagePath at hpath
    rw [htarget] at hpath
    exact Except.ok.inj hpath
  obtain ⟨_, w₁, hreport, h₂⟩ := returns_bind_iff.mp h₁
  obtain ⟨text, _, hrender, h₃⟩ := returns_bind_iff.mp h₂
  obtain ⟨htext, rfl⟩ := returns_of_iff.mp hrender
  obtain ⟨htree, hcurrent⟩ := reads_report _ _ _ _ hreport
  rw [← htree, ← hcurrent] at hfolder
  obtain ⟨hcurrent', hfolders, hfiles⟩ := files_filePage hfolder h₃
  rw [hcurrent] at hcurrent' hfiles
  rw [htree] at hfolders hfiles
  exact ⟨text, htext, hcurrent', hfolders, hfiles⟩

/-! ### All pages -/

section

variable {place : Element → Place} {page : Element → Except Fault String}
  {write : Element → Run Unit}

/-- What writing the pages of types one after the other leaves behind. -/
structure Leaves (place : Element → Place) (page : Element → Except Fault String)
    (types : List Element) (w w' : State) : Prop where
  /-- Every type has a page, which stays when no later one is written to its place. -/
  pages : ∀ before e after, types = before ++ e :: after → ∃ text, page e = .ok text ∧
    ((∀ x ∈ after, place x ≠ place e) → w'.tree.fileAt (place e) = some text.toUTF8)
  /-- Where no page is written, the files are what they were. -/
  other : ∀ p, p ∉ types.map place → w'.tree.fileAt p = w.tree.fileAt p

theorem leaves_nil (w : State) : Leaves place page [] w w where
  pages before e after h := absurd h (by simp)
  other _ _ := rfl

/-- One page more is written before all others. -/
theorem Leaves.cons {text : String} (h : Leaves place page types w₁ w')
    (hfiles : Files (place e) text w w₁) (hpage : page e = .ok text) :
    Leaves place page (e :: types) w w' where
  pages := by
    intro before x after hsplit
    cases before with
    | nil =>
        obtain ⟨rfl, rfl⟩ : e = x ∧ types = after := List.cons.inj hsplit
        refine ⟨text, hpage, fun hafter => ?_⟩
        have hnot : place e ∉ types.map place := fun hmem => by
          obtain ⟨y, hy, heq⟩ := List.mem_map.mp hmem
          exact hafter y hy heq
        rw [h.other _ hnot, hfiles.files, if_pos rfl]
    | cons y before => exact h.pages before x after (List.cons.inj hsplit).2
  other := by
    intro p hp
    rw [List.map_cons, List.mem_cons, not_or] at hp
    rw [h.other p hp.2, hfiles.files, if_neg hp.1]

/-- At every place there is the page of the last type that has it. -/
theorem Leaves.exists_page (h : Leaves place page types w w') {p : Place}
    (hp : p ∈ types.map place) : ∃ e ∈ types, place e = p ∧ ∃ text, page e = .ok text ∧
      w'.tree.fileAt p = some text.toUTF8 := by
  obtain ⟨x, hx, hplace⟩ := List.mem_map.mp hp
  have hsome : (types.reverse.find? fun e => place e = p).isSome :=
    List.find?_isSome.mpr ⟨x, List.mem_reverse.mpr hx, decide_eq_true hplace⟩
  obtain ⟨e, hfind⟩ := Option.isSome_iff_exists.mp hsome
  obtain ⟨he, after, before, hreverse, hafter⟩ := List.find?_eq_some_iff_append.mp hfind
  obtain rfl := of_decide_eq_true he
  have hsplit : types = before.reverse ++ e :: after.reverse := by
    rw [← List.reverse_reverse types, hreverse]
    simp
  obtain ⟨text, hpage, hstays⟩ := h.pages before.reverse e after.reverse hsplit
  exact ⟨e, by rw [hsplit]; simp, rfl, text, hpage,
    hstays fun y hy => by simpa using hafter y (List.mem_reverse.mp hy)⟩

/-- What one page leaves behind, all of them leave behind one after the other. -/
theorem leaves_writePages {current q : Place} (total : Nat)
    (hstep : ∀ e ∈ types, ∀ w w', w.current = current → w.tree.isFolder q = true →
      (write e).Returns w () w' → ∃ text, page e = .ok text ∧ Files (place e) text w w')
    {done : Nat} (hcurrent : w.current = current) (hfolder : w.tree.isFolder q = true)
    (h : (writePages write total done types).Returns w () w') : Leaves place page types w w' := by
  induction types generalizing w done with
  | nil =>
      obtain ⟨-, rfl⟩ := returns_pure_iff.mp h
      exact leaves_nil w'
  | cons e types ih =>
      obtain ⟨_, w₁, hwrite, h₁⟩ := returns_bind_iff.mp h
      obtain ⟨text, hpage, hfiles⟩ := hstep e List.mem_cons_self w w₁ hcurrent hfolder hwrite
      have hprinted : ∃ w₂, (writePages write total (done + 1) types).Returns w₂ () w' ∧
          w₂.tree = w₁.tree ∧ w₂.current = w₁.current := by
        dsimp only at h₁
        split at h₁
        · obtain ⟨_, w₂, hprint, h₂⟩ := returns_bind_iff.mp h₁
          exact ⟨w₂, h₂, reads_print _ _ _ _ hprint⟩
        · exact ⟨w₁, h₁, rfl, rfl⟩
      obtain ⟨w₂, h₂, htree, hcurrent₂⟩ := hprinted
      have hfiles₂ : Files (place e) text w w₂ :=
        ⟨hcurrent₂.trans hfiles.current, fun p hp => htree ▸ hfiles.folders p hp,
          fun p => htree ▸ hfiles.files p⟩
      have hrest := ih (fun x hx => hstep x (List.mem_cons_of_mem e hx))
        (hfiles₂.current.trans hcurrent) (hfiles₂.folders q hfolder) h₂
      exact hrest.cons hfiles₂ hpage

end

/-- The text of a type's page below a root. -/
def pageText (r : Request) (config : Value) (m : Model) (targets : Targets) (root : String)
    (e : Element) : Except Fault String :=
  (Page.render config m targets e ⟨r.details, some (PagePath.ofType root e.fullName e.package)⟩).1

/-- The output folder is seen from the root. -/
theorem of_outputFolder (h : (outputFolder r).Returns w folder w') :
    w' = w ∧ ∃ p, r.output = some p ∧ folder = ⟨true, FileTree.place w.current p⟩ := by
  unfold outputFolder at h
  split at h
  · exact absurd (returns_of_iff.mp h).1 (by simp)
  next p hp =>
    dsimp only at h
    split at h
    · obtain ⟨_, _, hzero, -⟩ := returns_bind_iff.mp h
      exact absurd (returns_ofFile_iff.mp hzero).1 (by simp)
    · obtain ⟨_, _, hget, h₁⟩ := returns_bind_iff.mp h
      obtain ⟨rfl, rfl⟩ := returns_get_iff.mp hget
      obtain ⟨rfl, rfl⟩ := returns_pure_iff.mp h₁
      exact ⟨rfl, p, hp, rfl⟩

/-- The pages of the documented types are left below the output folder. -/
theorem leaves_writeAll {v : Value} (htargets : Targets.ofModel m v = .ok targets)
    (htypes : m.documentedTypes = .ok types) (hfolder : w.tree.isFolder [] = true)
    (h : (writeAll r config m targets types).Returns w () w') : ∃ folder root,
      (outputFolder r).Returns w folder w ∧
      (∀ e ∈ types, v = .text root ∧
        targets.find? e.uid = some ⟨e.name, PagePath.ofType root e.fullName e.package⟩) ∧
      Leaves (pagePlace w.current folder root) (pageText r config m targets root) types w w' ∧
      w'.printed.getLast? = some ("Generated " ++ toString types.length ++
        " Markdown pages into: " ++ folder.text) := by
  obtain ⟨folder, w₀, hout, h₁⟩ := returns_bind_iff.mp h
  obtain ⟨hw, p, -, hp⟩ := of_outputFolder hout
  rw [hw] at hout h₁
  obtain ⟨_, w₁, hmake, h₂⟩ := returns_bind_iff.mp h₁
  obtain ⟨_, w₂, hprint, h₃⟩ := returns_bind_iff.mp h₂
  obtain ⟨_, w₃, hwrite, h₄⟩ := returns_bind_iff.mp h₃
  obtain rfl := returns_modify_iff.mp h₄
  obtain ⟨root, hfind⟩ := Targets.exists_root htargets htypes
  have habsolute : FileTree.start w.current folder = [] := by rw [hp]; rfl
  obtain ⟨hcurrent₁, hfolders₁, hfiles₁⟩ := of_makeFolders (by rwa [habsolute]) hmake
  obtain ⟨htree₂, hcurrent₂⟩ := reads_print _ _ _ _ hprint
  have hcurrent := hcurrent₂.trans hcurrent₁
  have hpages : Leaves (pagePlace w.current folder root) (pageText r config m targets root) types
      w₂ w₃ := by
    refine leaves_writePages (q := []) _ (fun e he v v' hv hvfolder hstep => ?_) hcurrent
      (by rw [htree₂]; exact hfolders₁ [] hfolder) hwrite
    have hstart : FileTree.start v.current folder = [] := by rw [hp]; rfl
    obtain ⟨text, htext, hfiles⟩ := files_writePage (hfind e he).2 (by rwa [hstart]) hstep
    exact ⟨text, htext, hv ▸ hfiles⟩
  refine ⟨folder, root, hout, hfind, ⟨hpages.pages, fun q hq => ?_⟩, List.getLast?_concat⟩
  rw [← hfiles₁ q, ← htree₂]
  exact hpages.other q hq

/-- A run that is not dry leaves the pages of the documented types that it has read. -/
theorem leaves_generate (hwet : r.dryRun = false) (hfolder : w.tree.isFolder [] = true)
    (h : (generate r).Returns w () w') : ∃ config v m targets types folder root,
      Config.pageRoot config = .ok v ∧ Targets.ofModel m v = .ok targets ∧
      m.documentedTypes = .ok types ∧
      Leaves (pagePlace w.current folder root) (pageText r config m targets root) types w w' ∧
      w'.printed.getLast? = some ("Generated " ++ toString types.length ++
        " Markdown pages into: " ++ folder.text) := by
  obtain ⟨config, v, m, targets, types, w₁, hv, htargets, htypes, htree, hcurrent, hwrite⟩ :=
    generate_writes hwet h
  rw [← htree] at hfolder
  obtain ⟨folder, root, -, -, hleaves, hprinted⟩ :=
    leaves_writeAll htargets htypes hfolder hwrite
  rw [hcurrent] at hleaves
  refine ⟨config, v, m, targets, types, folder, root, hv, htargets, htypes, ?_, hprinted⟩
  exact ⟨hleaves.pages, fun p hp => htree ▸ hleaves.other p hp⟩

/-! ### How many files there are -/

/-- No two types of one package clash that have plain names, below a root without a hash. -/
theorem not_clash_of_plain (hroot : '#' ∉ root.toList) (hpackage : e.package = e'.package)
    (hname : e.fullName ≠ e'.fullName) (hplain : PagePath.IsPlain e.fullName.toList)
    (hplain' : PagePath.IsPlain e'.fullName.toList) : ¬Clash root e e' := by
  rintro (hhash | hsegments)
  · exact hroot hhash
  · rw [hpackage] at hsegments
    exact hname (PagePath.eq_of_segments_eq hplain hplain' hsegments)

/-- There are as many places as types when no two types clash. -/
theorem length_places_iff (current : Place) (folder : Path) (root : String)
    (types : List Element) :
    (types.map (pagePlace current folder root)).dedup.length = types.length ↔
      types.Pairwise fun e e' => ¬Clash root e e' := by
  have hnodup : (types.map (pagePlace current folder root)).Nodup ↔
      types.Pairwise fun e e' => ¬Clash root e e' := by
    rw [List.Nodup, List.pairwise_map]
    simp only [ne_eq, pagePlace_eq_iff]
  rw [← hnodup, ← List.dedup_eq_self]
  constructor
  · intro hlength
    exact (List.dedup_sublist _).eq_of_length (by rw [hlength, List.length_map])
  · intro hself
    rw [hself, List.length_map]

/-- **The number of pages that is reported is the number of files if no two types clash, and only
then.**  Writing the pages of the documented types puts the page of each type where the path of its
target leads.  The page stays unless a later type clashes with its type, and then that type's page
takes its place; nothing but these files is changed. -/
theorem files_of_writeAll {v : Value} (htargets : Targets.ofModel m v = .ok targets)
    (htypes : m.documentedTypes = .ok types) (hfolder : w.tree.isFolder [] = true)
    (h : (writeAll r config m targets types).Returns w () w') : ∃ folder root,
      (outputFolder r).Returns w folder w ∧
      (∀ e ∈ types, v = .text root ∧
        targets.find? e.uid = some ⟨e.name, PagePath.ofType root e.fullName e.package⟩) ∧
      w'.printed.getLast? = some ("Generated " ++ toString types.length ++
        " Markdown pages into: " ++ folder.text) ∧
      (∀ e e', pagePlace w.current folder root e = pagePlace w.current folder root e' ↔
        Clash root e e') ∧
      (∀ before e after, types = before ++ e :: after →
        ∃ text, pageText r config m targets root e = .ok text ∧
          ((∀ x ∈ after, ¬Clash root x e) →
            w'.tree.fileAt (pagePlace w.current folder root e) = some text.toUTF8)) ∧
      (∀ p ∈ types.map (pagePlace w.current folder root), (w'.tree.fileAt p).isSome) ∧
      (∀ p, p ∉ types.map (pagePlace w.current folder root) →
        w'.tree.fileAt p = w.tree.fileAt p) ∧
      ((types.map (pagePlace w.current folder root)).dedup.length = types.length ↔
        types.Pairwise fun e e' => ¬Clash root e e') ∧
      ∀ e e' : Element, e.package = e'.package → e.fullName ≠ e'.fullName →
        '#' ∉ root.toList → PagePath.IsPlain e.fullName.toList →
        PagePath.IsPlain e'.fullName.toList → ¬Clash root e e' := by
  obtain ⟨folder, root, hout, hfind, hleaves, hprinted⟩ :=
    leaves_writeAll htargets htypes hfolder h
  refine ⟨folder, root, hout, hfind, hprinted, fun e e' => pagePlace_eq_iff _ _, ?_, ?_,
    hleaves.other, length_places_iff _ _ _ _,
    fun e e' hpackage hname hroot => not_clash_of_plain hroot hpackage hname⟩
  · intro before e after hsplit
    obtain ⟨text, htext, hstays⟩ := hleaves.pages before e after hsplit
    exact ⟨text, htext, fun hafter => hstays fun x hx heq =>
      hafter x hx ((pagePlace_eq_iff _ _).mp heq)⟩
  · intro p hp
    obtain ⟨_, -, -, text, -, hfile⟩ := hleaves.exists_page hp
    rw [hfile]
    rfl

/-! Two classes of one package, each without members.  The names of the first pair are plain; those
of the second one differ only in letters that a segment does not keep. -/

/-- A public class of the package `com.example`. -/
def bareClass (name : String) : Element where
  uid := "com.example." ++ name
  kind := .classType
  name := name
  fullName := "com.example." ++ name
  package := "com.example"
  access := "public"

/-- Two classes with different names. -/
def twoClasses (a b : String) (h : a ≠ b) : Model where
  elements := [bareClass a, bareClass b]
  distinct_uids := by simpa [bareClass] using h
  minAccess := .text "protected"
  external := []

/-- The settings that a page without members needs. -/
def bareSettings : Value :=
  Config.named [("messages", .mapping []), ("properties", Config.named [("enabled", .bool true)])]

/-- The builder of a class without members. -/
def bareBuilder (m : Model) (targets : Targets) (e : Element) : Builder where
  model := m
  targets := targets
  messages := .mapping []
  naming := .standard
  table := ⟨m, .standard, e, .protectedOnly, [], [], []⟩
  sources := ⟨[]⟩

/-- The request for pages in the folder `out`. -/
def outRequest : Request where
  metadata := .ofText "yml"
  output := some (.ofText "out")

/-- The text of the page of a class without members. -/
def bareText (m : Model) (targets : Targets) (e : Element) : String :=
  Page.text (Page.introduction (bareBuilder m targets e) {}
    (some (PagePath.ofType "/api" e.fullName e.package)))

variable {a b : String}

theorem documentedTypes_twoClasses (h : a ≠ b) :
    (twoClasses a b h).documentedTypes = .ok [bareClass a, bareClass b] := by cbv

theorem render_bare {settings : Page.Settings} {builder : Builder} {options : Page.Options}
    (hsettings : Page.Settings.ofConfig config = .ok settings)
    (hbuilder : Builder.ofType m targets settings.messages settings.rules e = .ok builder)
    (hbare : builder.hasMembers = false) :
    Page.render config m targets e options =
      (.ok (Page.text (Page.introduction builder {} options.canonicalPath)),
        Table.notes settings.rules m e ++ Sources.notes builder.table) := by
  have hwrite : (Page.write builder options).run {} =
      (Except.ok (), { tree := Page.introduction builder {} options.canonicalPath }) := by
    unfold Page.write Page.writeMembers
    rw [hbare]
    rfl
  unfold Page.render
  rw [hsettings]
  dsimp only
  rw [hbuilder]
  dsimp only
  rw [hwrite]
  simp [Except.map]

theorem render_twoClasses (h : a ≠ b) (he : e ∈ [bareClass a, bareClass b]) :
    Page.render bareSettings (twoClasses a b h) targets e
        ⟨false, some (PagePath.ofType "/api" e.fullName e.package)⟩ =
      (.ok (bareText (twoClasses a b h) targets e), []) := by
  have hsettings : Page.Settings.ofConfig bareSettings = .ok ⟨.mapping [], .standard, true⟩ := by
    cbv
  have hbuilder : Builder.ofType (twoClasses a b h) targets (.mapping []) ⟨.standard, true⟩ e =
      .ok (bareBuilder (twoClasses a b h) targets e) := by
    rcases List.mem_pair.mp he with rfl | rfl <;> cbv
  have hbare : (bareBuilder (twoClasses a b h) targets e).hasMembers = false := by
    rcases List.mem_pair.mp he with rfl | rfl <;> rfl
  have hnotes : Table.notes ⟨.standard, true⟩ (twoClasses a b h) e = [] := by
    rcases List.mem_pair.mp he with rfl | rfl <;> cbv
  rw [render_bare hsettings hbuilder hbare, hnotes]
  rfl

theorem writePages_congr {write write' : Element → Run Unit} (total : Nat)
    (h : ∀ e ∈ types, write e = write' e) (done : Nat) :
    writePages write total done types = writePages write' total done types := by
  induction types generalizing done with
  | nil => rfl
  | cons e types ih =>
      rw [writePages, writePages, h e List.mem_cons_self,
        ih fun x hx => h x (List.mem_cons_of_mem e hx)]

/-- Writes the page of a class without members. -/
def fileBare (m : Model) (targets : Targets) (folder : Path) (e : Element) : Run Unit := do
  report []
  filePage folder (PagePath.ofType "/api" e.fullName e.package) (bareText m targets e)

theorem writePage_twoClasses (h : a ≠ b) (he : e ∈ [bareClass a, bareClass b])
    (hfind : targets.find? e.uid = some ⟨e.name, PagePath.ofType "/api" e.fullName e.package⟩)
    (folder : Path) : writePage outRequest bareSettings (twoClasses a b h) targets folder e =
      fileBare (twoClasses a b h) targets folder e := by
  have hpath : pagePath bareSettings targets e =
      .ok (PagePath.ofType "/api" e.fullName e.package) := by
    unfold pagePath
    rw [hfind]
  rw [writePage_eq, hpath]
  show (do
    report (Page.render _ _ _ _ ⟨false, some (PagePath.ofType "/api" e.fullName e.package)⟩).2
    let text ← of
      (Page.render _ _ _ _ ⟨false, some (PagePath.ofType "/api" e.fullName e.package)⟩).1
    filePage _ _ text) = _
  rw [render_twoClasses h he]
  rfl

/-- The places of the files that a step leaves, if it returns. -/
def placesAfter (x : Run Unit) (w : State) : Option (List Place) :=
  match (x.run.run w).run with
  | (.ok _, w') => some (w'.tree.files.map (·.1))
  | _ => none

theorem returns_of_placesAfter {x : Run Unit} {places : List Place}
    (h : placesAfter x w = some places) :
    ∃ w', x.Returns w () w' ∧ w'.tree.files.map (·.1) = places := by
  unfold placesAfter at h
  split at h
  next w' hrun => exact ⟨w', hrun, Option.some.inj h⟩
  · cases h

/-- The state before anything is written. -/
def emptyDisk : State where
  current := []
  tree := .folder []

/-- The state before the first page is written. -/
def emptyFolder : State where
  current := []
  tree := .folder [("out", .folder [])]
  printed := ["Writing 2 type pages..."]

theorem returns_twoClasses (h : a ≠ b) (hfind : ∀ e ∈ [bareClass a, bareClass b],
      targets.find? e.uid = some ⟨e.name, PagePath.ofType "/api" e.fullName e.package⟩)
    (places : List Place)
    (hplaces : placesAfter (writePages (fileBare (twoClasses a b h) targets ⟨true, ["out"]⟩) 2 0
      [bareClass a, bareClass b]) emptyFolder = some places) :
    ∃ w', (writeAll outRequest bareSettings (twoClasses a b h) targets
        [bareClass a, bareClass b]).Returns emptyDisk () w' ∧
      w'.printed.getLast? = some "Generated 2 Markdown pages into: /out" ∧
      w'.tree.files.map (·.1) = places := by
  obtain ⟨w', hwrite, hfiles⟩ := returns_of_placesAfter hplaces
  rw [writePages_congr 2 fun e he => (writePage_twoClasses h he (hfind e he) _).symm] at hwrite
  refine ⟨{ w' with printed := w'.printed ++
    ["Generated 2 Markdown pages into: /out"] }, ?_, List.getLast?_concat, hfiles⟩
  have hout : (outputFolder outRequest).Returns emptyDisk ⟨true, ["out"]⟩ emptyDisk := rfl
  have hmake : (makeFolders ⟨true, ["out"]⟩).Returns emptyDisk ()
      { emptyDisk with tree := .folder [("out", .folder [])] } := rfl
  have hcount : toString [bareClass a, bareClass b].length = "2" :=
    (by decide +kernel : toString 2 = "2")
  have htext : (Path.mk true ["out"]).text = "/out" := by decide +kernel
  refine returns_bind_iff.mpr ⟨_, _, hout, returns_bind_iff.mpr ⟨_, _, hmake, ?_⟩⟩
  rw [hcount, htext]
  exact returns_bind_iff.mpr ⟨(), emptyFolder, returns_modify_iff.mpr rfl,
    returns_bind_iff.mpr ⟨(), w', hwrite, returns_modify_iff.mpr rfl⟩⟩

/-- The targets of a bolt and a nut. -/
def boltTargets : Targets :=
  [("com.example.Bolt", ⟨"Bolt", "/api/com/example/Bolt"⟩),
    ("com.example.Nut", ⟨"Nut", "/api/com/example/Nut"⟩)]

/-- The targets of classes whose names have other letters than a segment keeps. -/
def groesseTargets : Targets :=
  [("com.example.Größe", ⟨"Größe", "/api/com/example/Gr-e"⟩),
    ("com.example.Grüße", ⟨"Grüße", "/api/com/example/Gr-e"⟩)]

theorem files_of_writeAll_bolt : ∃ (h : "Bolt" ≠ "Nut") (w' : State),
    Targets.ofModel (twoClasses "Bolt" "Nut" h) (.text "/api") = .ok boltTargets ∧
    (writeAll outRequest bareSettings (twoClasses "Bolt" "Nut" h) boltTargets
      [bareClass "Bolt", bareClass "Nut"]).Returns emptyDisk () w' ∧
    w'.printed.getLast? = some "Generated 2 Markdown pages into: /out" ∧
    w'.tree.files.map (·.1) = [["out", "api", "com", "example", "Bolt.md"],
      ["out", "api", "com", "example", "Nut.md"]] ∧
    ([bareClass "Bolt", bareClass "Nut"].map
      (pagePlace [] ⟨true, ["out"]⟩ "/api")).dedup.length = 2 := by
  have htargets : Targets.ofModel (twoClasses "Bolt" "Nut" (by decide)) (.text "/api") =
      .ok boltTargets := by cbv
  have htypes := documentedTypes_twoClasses (a := "Bolt") (b := "Nut") (by decide)
  have hfind : ∀ e ∈ [bareClass "Bolt", bareClass "Nut"],
      boltTargets.find? e.uid = some ⟨e.name, PagePath.ofType "/api" e.fullName e.package⟩ := by
    decide +kernel
  obtain ⟨w', hrun, hprinted, hfiles⟩ := returns_twoClasses (by decide) hfind
    [["out", "api", "com", "example", "Bolt.md"], ["out", "api", "com", "example", "Nut.md"]]
    (by decide +kernel)
  obtain ⟨folder, root, hout, hpages, -, -, -, -, -, hlength, hplain⟩ :=
    files_of_writeAll htargets htypes rfl hrun
  obtain rfl : "/api" = root := by
    cases (hpages _ List.mem_cons_self).1
    rfl
  obtain rfl : ⟨true, ["out"]⟩ = folder := by
    cases hout
    rfl
  refine ⟨by decide, w', htargets, hrun, hprinted, hfiles, hlength.mpr ?_⟩
  rw [List.pairwise_pair]
  exact hplain _ _ rfl (by decide) (by decide) (by decide +kernel) (by decide +kernel)

/-- **Two classes that are reported as two pages leave one file.**  Of their names, `Größe` and
`Grüße`, the segment keeps the same letters. -/
theorem page_lost_groesse : ∃ (h : "Größe" ≠ "Grüße") (w' : State),
    (twoClasses "Größe" "Grüße" h).documentedTypes = .ok [bareClass "Größe", bareClass "Grüße"] ∧
    (bareClass "Größe").fullName ≠ (bareClass "Grüße").fullName ∧
    (bareClass "Größe").package = (bareClass "Grüße").package ∧
    Targets.ofModel (twoClasses "Größe" "Grüße" h) (.text "/api") = .ok groesseTargets ∧
    (writeAll outRequest bareSettings (twoClasses "Größe" "Grüße" h) groesseTargets
      [bareClass "Größe", bareClass "Grüße"]).Returns emptyDisk () w' ∧
    w'.printed.getLast? = some "Generated 2 Markdown pages into: /out" ∧
    w'.tree.files.map (·.1) = [["out", "api", "com", "example", "Gr-e.md"]] := by
  have htargets : Targets.ofModel (twoClasses "Größe" "Grüße" (by decide)) (.text "/api") =
      .ok groesseTargets := by cbv
  have hfind : ∀ e ∈ [bareClass "Größe", bareClass "Grüße"],
      groesseTargets.find? e.uid = some ⟨e.name, PagePath.ofType "/api" e.fullName e.package⟩ := by
    decide +kernel
  obtain ⟨w', hrun, hprinted, hfiles⟩ := returns_twoClasses (by decide) hfind
    [["out", "api", "com", "example", "Gr-e.md"]] (by decide +kernel)
  exact ⟨by decide, w', documentedTypes_twoClasses _, by decide, rfl, htargets, hrun, hprinted,
    hfiles⟩

end TypePages.Run
