import TypePages.Proofs.Bindings
import TypePages.Proofs.Runs

/-!
What a run binds uids to.

A run reads the documents of its files one by one, and makes a note where a uid comes again.  Notes
are all that it adds to what `Catalog.ofDocuments` does, and reading changes no file, so every file
is read as it was at the start (`foldlM_addDocument_of_returns`).  The catalog of a run is therefore
that of the documents in its files.
-/

namespace TypePages.Run

variable {w w' : State} {c c' : Catalog} {files : List Path} {p : Path} {text : String}

/-- The document that a file holds. -/
def HoldsDocument (w : State) (p : Path) (doc : Value) : Prop :=
  ∃ bytes text, w.tree.read w.current p = .ok bytes ∧ decodeText bytes = .ok text ∧
    Yaml.document text = .ok doc

theorem exists_of_returns_readText (h : (readText p).Returns w text w') :
    (∃ bytes, w.tree.read w.current p = .ok bytes ∧ decodeText bytes = .ok text) ∧ w' = w := by
  obtain ⟨_, w₁, hget, h₁⟩ := returns_bind_iff.mp h
  obtain ⟨rfl, rfl⟩ := returns_get_iff.mp hget
  obtain ⟨bytes, w₂, hread, h₂⟩ := returns_bind_iff.mp h₁
  obtain ⟨hbytes, rfl⟩ := returns_ofFile_iff.mp hread
  obtain ⟨htext, rfl⟩ := returns_of_iff.mp h₂
  exact ⟨⟨bytes, hbytes, htext⟩, rfl⟩

/-- Besides a note on a uid that comes again, an item is added as it is without a run. -/
theorem addItem_of_returns {item : Value} (h : (addItem p c item).Returns w c' w') :
    Catalog.addItem c item = .ok c' := by
  obtain ⟨e, w₁, hread, h₁⟩ := returns_bind_iff.mp h
  obtain ⟨he, rfl⟩ := returns_of_iff.mp hread
  have hinsert : c' = c.insert e := by
    split at h₁
    · obtain ⟨_, w₂, -, h₂⟩ := returns_bind_iff.mp h₁
      exact (returns_pure_iff.mp h₂).1
    · exact (returns_pure_iff.mp h₁).1
  rw [hinsert]
  exact Refusal.bind_eq_ok.mpr ⟨e, he, rfl⟩

theorem foldlM_addItem_of_returns {items : List Value}
    (h : (items.foldlM (addItem p) c).Returns w c' w') :
    items.foldlM Catalog.addItem c = .ok c' := by
  induction items generalizing c w with
  | nil =>
      rw [(returns_pure_iff.mp h).1]
      rfl
  | cons item items ih =>
      rw [List.foldlM_cons] at h
      obtain ⟨c₁, w₁, hitem, hrest⟩ := returns_bind_iff.mp h
      rw [List.foldlM_cons]
      exact Refusal.bind_eq_ok.mpr ⟨c₁, addItem_of_returns hitem, ih hrest⟩

theorem addDocument_of_returns (h : (addFile c p).Returns w c' w') :
    ∃ doc, HoldsDocument w p doc ∧ Catalog.addDocument c doc = .ok c' := by
  obtain ⟨text, w₁, htext, h₁⟩ := returns_bind_iff.mp h
  obtain ⟨⟨bytes, hbytes, hdecoded⟩, rfl⟩ := exists_of_returns_readText htext
  obtain ⟨doc, w₂, hload, h₂⟩ := returns_bind_iff.mp h₁
  obtain ⟨hdoc, rfl⟩ := returns_of_iff.mp hload
  obtain ⟨items, w₃, hread, h₃⟩ := returns_bind_iff.mp h₂
  obtain ⟨hitems, rfl⟩ := returns_of_iff.mp hread
  exact ⟨doc, ⟨bytes, text, hbytes, hdecoded, hdoc⟩,
    Refusal.bind_eq_ok.mpr ⟨items, hitems, foldlM_addItem_of_returns h₃⟩⟩

/-- Reading a file changes no file, so each is read as it was at the start. -/
theorem foldlM_addDocument_of_returns (h : (files.foldlM addFile c).Returns w c' w') :
    ∃ docs, List.Forall₂ (HoldsDocument w) files docs ∧
      docs.foldlM Catalog.addDocument c = .ok c' := by
  induction files generalizing c w with
  | nil =>
      rw [(returns_pure_iff.mp h).1]
      exact ⟨[], .nil, rfl⟩
  | cons p files ih =>
      rw [List.foldlM_cons] at h
      obtain ⟨c₁, w₁, hfile, hrest⟩ := returns_bind_iff.mp h
      obtain ⟨htree, hcurrent⟩ := reads_addFile c p w c₁ w₁ hfile
      obtain ⟨doc, hdoc, hadd⟩ := addDocument_of_returns hfile
      obtain ⟨docs, hdocs, hall⟩ := ih hrest
      have hsame : HoldsDocument w₁ = HoldsDocument w := by
        funext p doc
        rw [HoldsDocument, HoldsDocument, htree, hcurrent]
      rw [hsame] at hdocs
      exact ⟨doc :: docs, .cons hdoc hdocs, Refusal.bind_eq_ok.mpr ⟨c₁, hadd, hall⟩⟩

/-- **A run binds uids as the documents of its files do.** -/
theorem catalog_binds (h : (catalog files).Returns w c w') :
    ∃ docs, List.Forall₂ (HoldsDocument w) files docs ∧ Catalog.ofDocuments docs = .ok c ∧
      Catalog.Binds docs c := by
  obtain ⟨c₁, w₁, hread, h₁⟩ := returns_bind_iff.mp h
  obtain ⟨hgranted, -⟩ := returns_pure_iff.mp h₁
  obtain ⟨docs, hdocs, hadd⟩ := foldlM_addDocument_of_returns hread
  have hloads := Catalog.loads_of_foldlM_addDocument hadd
  have hcatalog : Catalog.ofDocuments docs = .ok c :=
    Refusal.bind_eq_ok.mpr ⟨c₁, hadd, Refusal.pure_eq_ok.mpr hgranted.symm⟩
  have hbinds := Catalog.binds_written hloads
  rw [Except.ok.inj ((Catalog.ofDocuments_eq hloads).symm.trans hcatalog)] at hbinds
  exact ⟨docs, hdocs, hcatalog, hbinds⟩

end TypePages.Run
