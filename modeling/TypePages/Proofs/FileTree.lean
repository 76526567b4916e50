import Mathlib
import TypePages.Proofs.Refusal
import TypePages.Run.FileTree

/-!
What writing does to the files of a tree.

A tree is looked at through its files: the content at each place, if there is a file.  Making
folders changes none of them, because a folder is made only where nothing is, and writing a file
changes the one at its place.  Both need the folder from which a path starts to be there, and leave
all folders where they are.
-/

namespace TypePages.FileTree

variable {t t' c : FileTree} {p q place place' parent : Place} {name last : String}
  {names : List String} {content : ByteArray} {entries : List (String × FileTree)}

/-- The content of the file at a place, if there is one. -/
def fileAt (t : FileTree) (place : Place) : Option ByteArray :=
  match t.lookup? place with
  | some (.file content) => some content
  | _ => none

/-! ### Looking up -/

theorem isFolder_iff :
    t.isFolder place = true ↔ ∃ entries, t.lookup? place = some (.folder entries) := by
  unfold isFolder
  split
  next entries h => exact iff_of_true rfl ⟨entries, h⟩
  next h => exact iff_of_false (by simp) fun ⟨entries, hfolder⟩ => h entries hfolder

theorem lookup?_append (t : FileTree) (p q : Place) :
    t.lookup? (p ++ q) = (t.lookup? p).bind (·.lookup? q) := by
  induction p generalizing t with
  | nil => rfl
  | cons name p ih =>
      rw [List.cons_append, lookup?, lookup?]
      cases t.child? name with
      | none => rfl
      | some c => exact ih c

/-- What a folder lies in is a folder. -/
theorem isFolder_of_append (h : t.isFolder (p ++ q) = true) : t.isFolder p = true := by
  obtain ⟨entries, hfolder⟩ := isFolder_iff.mp h
  rw [lookup?_append] at hfolder
  obtain ⟨c, hc, hq⟩ := Option.bind_eq_some_iff.mp hfolder
  cases q with
  | nil =>
      cases hq
      exact isFolder_iff.mpr ⟨entries, hc⟩
  | cons name q =>
      cases c with
      | file content => cases hq
      | folder entries' => exact isFolder_iff.mpr ⟨entries', hc⟩

theorem isFolder_dropLast (h : t.isFolder p = true) : t.isFolder p.dropLast = true := by
  obtain ⟨q, hq⟩ := List.dropLast_prefix p
  rw [← hq] at h
  exact isFolder_of_append h

/-- Below what is no folder there is nothing. -/
theorem lookup?_eq_none_of_append (h : t.isFolder p = false) (hq : q ≠ []) :
    t.lookup? (p ++ q) = none := by
  rw [lookup?_append]
  cases hp : t.lookup? p with
  | none => rfl
  | some c =>
      cases c with
      | file content =>
          obtain ⟨name, rest, rfl⟩ := List.exists_cons_of_ne_nil hq
          rfl
      | folder entries => rw [isFolder_iff.mpr ⟨entries, hp⟩] at h; cases h

/-! ### Putting -/

theorem lookup_putName (name name' : String) (c : FileTree) (entries : List (String × FileTree)) :
    (putName name c entries).lookup name' =
      if name' = name then some c else entries.lookup name' := by
  induction entries with
  | nil =>
      by_cases h : name' = name
      · simp [putName, h]
      · simp [putName, List.lookup, h, beq_eq_false_iff_ne.mpr h]
  | cons e entries ih =>
      obtain ⟨n, d⟩ := e
      unfold putName
      by_cases hn : n = name
      · rw [if_pos hn, List.lookup_cons, List.lookup_cons, hn]
        by_cases h : name' = name
        · simp [h]
        · simp [h, beq_eq_false_iff_ne.mpr h]
      · rw [if_neg hn, List.lookup_cons, List.lookup_cons, ih]
        by_cases h : name' = n
        · have hne : name' ≠ name := fun heq => hn (h.symm.trans heq)
          simp [h, hn]
        · simp [beq_eq_false_iff_ne.mpr h]

theorem fileAt_cons (name : String) (p : Place) :
    (folder entries).fileAt (name :: p) = (entries.lookup name).bind (·.fileAt p) := by
  unfold fileAt
  rw [lookup?, child?]
  cases entries.lookup name <;> rfl

theorem isFolder_cons (name : String) (p : Place) :
    (folder entries).isFolder (name :: p) = (entries.lookup name).any (·.isFolder p) := by
  unfold isFolder
  rw [lookup?, child?]
  cases entries.lookup name <;> rfl

theorem fileAt_empty (p : Place) : (folder []).fileAt p = none := by
  cases p <;> rfl

/-- Away from the place where something is put, folders stay and files are the same. -/
theorem put_apart (c : FileTree) (h : ¬q <+: p) :
    (t.isFolder p = true → (put c q t).isFolder p = true) ∧ (put c q t).fileAt p = t.fileAt p := by
  induction q generalizing t p with
  | nil => exact absurd List.nil_prefix h
  | cons name q ih =>
      cases t with
      | file content => exact ⟨id, rfl⟩
      | folder entries =>
          cases p with
          | nil => exact ⟨fun _ => rfl, rfl⟩
          | cons name' p =>
              rw [put, fileAt_cons, fileAt_cons, isFolder_cons, isFolder_cons, lookup_putName]
              by_cases hname : name' = name
              · rw [if_pos hname, hname, Option.bind_some, Option.any_some]
                rw [hname, List.cons_prefix_cons, and_iff_right rfl] at h
                cases entries.lookup name with
                | some d => exact ih h
                | none => exact ⟨fun hnone => (by cases hnone), (ih h).2.trans (fileAt_empty p)⟩
              · rw [if_neg hname]
                exact ⟨id, rfl⟩

/-- What is put into a folder is there. -/
theorem lookup?_put_append (c : FileTree) (name : String) (h : t.isFolder parent = true)
    (q : Place) : (put c (parent ++ [name]) t).lookup? (parent ++ name :: q) = c.lookup? q := by
  induction parent generalizing t with
  | nil =>
      obtain ⟨entries, hfolder⟩ := isFolder_iff.mp h
      obtain rfl : t = .folder entries := Option.some.inj hfolder
      rw [List.nil_append, List.nil_append, put, put, lookup?, child?, lookup_putName, if_pos rfl]
  | cons n parent ih =>
      obtain ⟨entries, hfolder⟩ := isFolder_iff.mp h
      cases t with
      | file content => cases hfolder
      | folder entries' =>
          rw [isFolder_cons] at h
          cases hn : entries'.lookup n with
          | none => rw [hn] at h; cases h
          | some d =>
              rw [hn, Option.any_some] at h
              rw [List.cons_append, List.cons_append, put, lookup?, child?, lookup_putName,
                if_pos rfl, hn]
              exact ih h

/-- What is put where no folder was leaves all folders. -/
theorem isFolder_put (c : FileTree) (hnot : t.isFolder q = false) (h : t.isFolder p = true) :
    (put c q t).isFolder p = true := by
  refine (put_apart c ?_).1 h
  rintro ⟨rest, rfl⟩
  rw [isFolder_of_append h] at hnot
  cases hnot

/-- A file that is put into a folder where no folder was is the only file that changes. -/
theorem fileAt_put_file (h : t.isFolder parent = true)
    (hnot : t.isFolder (parent ++ [name]) = false) (p : Place) :
    (put (.file content) (parent ++ [name]) t).fileAt p =
      if p = parent ++ [name] then some content else t.fileAt p := by
  by_cases hbelow : parent ++ [name] <+: p
  · obtain ⟨q, rfl⟩ := hbelow
    rw [List.append_assoc, List.singleton_append, fileAt, lookup?_put_append _ name h]
    cases q with
    | nil => rw [if_pos rfl]; rfl
    | cons n q =>
        have hne : parent ++ name :: n :: q ≠ parent ++ [name] := by simp
        have hnone := lookup?_eq_none_of_append hnot (List.cons_ne_nil n q)
        rw [List.append_assoc, List.singleton_append] at hnone
        rw [if_neg hne, fileAt, hnone]
        rfl
  · have hne : p ≠ parent ++ [name] := fun heq => hbelow (heq ▸ List.prefix_rfl)
    rw [if_neg hne]
    exact (put_apart _ hbelow).2

/-- An empty folder that is put into a folder where nothing was changes no file. -/
theorem fileAt_put_folder (h : t.isFolder parent = true)
    (hnone : t.lookup? (parent ++ [name]) = none) (p : Place) :
    (put (.folder []) (parent ++ [name]) t).fileAt p = t.fileAt p := by
  by_cases hbelow : parent ++ [name] <+: p
  · obtain ⟨q, rfl⟩ := hbelow
    have hempty : t.fileAt (parent ++ [name] ++ q) = none := by
      rw [fileAt, lookup?_append, hnone]
      rfl
    rw [hempty, List.append_assoc, List.singleton_append, fileAt, lookup?_put_append _ name h]
    exact fileAt_empty q
  · exact (put_apart _ hbelow).2

/-! ### Following paths -/

/-- The names of a path lead from folder to folder, and the last one into a folder. -/
theorem of_walk (hplace : t.isFolder place = true) (h : t.walk place names = .ok place')
    (hlast : names.getLast? = some last) (hne : last ≠ "..") :
    ∃ parent, place' = parent ++ [last] ∧ t.isFolder parent = true ∧
      place' = names.foldl (fun p n => if n = ".." then p.dropLast else p ++ [n]) place := by
  induction names generalizing place with
  | nil => cases hlast
  | cons name names ih =>
      unfold walk at h
      rw [List.foldl_cons]
      by_cases hup : name = ".."
      · rw [if_pos hup] at h ⊢
        cases names with
        | nil =>
            rw [List.getLast?_singleton, Option.some.injEq] at hlast
            exact absurd (hlast.symm.trans hup) hne
        | cons n rest =>
            exact ih (isFolder_dropLast hplace) h (by rwa [List.getLast?_cons_cons] at hlast)
      · rw [if_neg hup] at h ⊢
        split at h
        · cases h
        · cases names with
          | nil =>
              rw [List.getLast?_singleton, Option.some.injEq] at hlast
              rw [if_pos List.isEmpty_nil, Except.ok.injEq] at h
              exact ⟨place, by rw [← h, hlast], hplace, h.symm⟩
          | cons n rest =>
              rw [if_neg (by simp)] at h
              split at h
              next entries hfolder =>
                exact ih (isFolder_iff.mpr ⟨entries, hfolder⟩) h
                  (by rwa [List.getLast?_cons_cons] at hlast)
              · cases h
              · cases h

/-- A path that goes on below another one is followed from there. -/
theorem place_below (current : Place) (path : Path) (names : List String) :
    FileTree.place current (path.below names) =
      names.foldl (fun p n => if n = ".." then p.dropLast else p ++ [n])
        (FileTree.place current path) :=
  List.foldl_append

/-- Names that do not lead back are the names of folders. -/
theorem foldl_of_notMem (h : ".." ∉ names) (p : Place) :
    names.foldl (fun p n => if n = ".." then p.dropLast else p ++ [n]) p = p ++ names := by
  induction names generalizing p with
  | nil => exact (List.append_nil p).symm
  | cons name names ih =>
      rw [List.mem_cons, not_or] at h
      rw [List.foldl_cons, if_neg (Ne.symm h.1), ih h.2, List.append_assoc, List.singleton_append]

/-! ### Making folders and writing files -/

/-- Making folders changes no file and keeps all folders. -/
theorem of_makeFrom (making : Bool) (hplace : t.isFolder place = true) :
    (∀ p, (t.makeFrom place making names).2.fileAt p = t.fileAt p) ∧
      ∀ p, t.isFolder p = true → (t.makeFrom place making names).2.isFolder p = true := by
  induction names generalizing t place making with
  | nil => exact ⟨fun _ => rfl, fun _ h => h⟩
  | cons name names ih =>
      unfold makeFrom
      by_cases hup : name = ".."
      · rw [if_pos hup]
        exact ih making (isFolder_dropLast hplace)
      · rw [if_neg hup]
        split
        · exact ⟨fun _ => rfl, fun _ h => h⟩
        · dsimp only
          split
          next entries hfolder => exact ih making (isFolder_iff.mpr ⟨entries, hfolder⟩)
          · exact ⟨fun _ => rfl, fun _ h => h⟩
          next hnone =>
            split
            · exact ⟨fun _ => rfl, fun _ h => h⟩
            · have hnot : t.isFolder (place ++ [name]) = false := by
                unfold isFolder
                rw [hnone]
              have hmade :
                  (put (.folder []) (place ++ [name]) t).isFolder (place ++ [name]) = true :=
                isFolder_iff.mpr ⟨[], lookup?_put_append _ name hplace []⟩
              obtain ⟨hfiles, hfolders⟩ := ih true hmade
              exact ⟨fun p => (hfiles p).trans (fileAt_put_folder hplace hnone p),
                fun p hp => hfolders p (isFolder_put _ hnot hp)⟩

variable {current : Place} {path : Path}

theorem of_makeFolders (hstart : t.isFolder (start current path) = true) :
    (∀ p, (t.makeFolders current path).2.fileAt p = t.fileAt p) ∧
      ∀ p, t.isFolder p = true → (t.makeFolders current path).2.isFolder p = true := by
  unfold makeFolders
  split
  · exact ⟨fun _ => rfl, fun _ h => h⟩
  · exact of_makeFrom false hstart

/-- Writing a file changes the file at its place alone and keeps all folders. -/
theorem of_write (hstart : t.isFolder (start current path) = true)
    (hlast : path.names.getLast? = some last) (hne : last ≠ "..")
    (h : t.write current path content = .ok t') :
    (∀ p, t'.fileAt p = if p = FileTree.place current path then some content else t.fileAt p) ∧
      ∀ p, t.isFolder p = true → t'.isFolder p = true := by
  obtain ⟨place, hlocate, h₁⟩ := Refusal.bind_eq_ok.mp h
  obtain ⟨_, -, hwalk⟩ := Refusal.bind_eq_ok.mp hlocate
  obtain ⟨parent, hplace, hparent, hfold⟩ := of_walk hstart hwalk hlast hne
  have hpath : FileTree.place current path = parent ++ [last] := hfold.symm.trans hplace
  rw [hplace] at h₁
  cases hnot : t.isFolder (parent ++ [last]) with
  | true =>
      rw [hnot] at h₁
      cases h₁
  | false =>
      rw [hnot] at h₁
      obtain rfl := Refusal.pure_eq_ok.mp h₁
      rw [hpath]
      exact ⟨fileAt_put_file hparent hnot, fun p hp => isFolder_put _ hnot hp⟩

end TypePages.FileTree
