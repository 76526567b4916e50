import TypePages.Proofs.Refusal
import TypePages.Run.Generate

/-!
What follows from a run that has not stopped.

A run is taken apart like everything else that may be refused, one bind at a time.  Up to the point
where the pages are written it only reads: it prints and makes notes, but the files and the current
folder are the ones it started with.  `Reads` says this of a step, and the steps of a run are put
together from ones that read until `generate_writes` is left with the writing.
-/

namespace TypePages.Run

variable {α β : Type} {x : Run α} {f : α → Run β} {w w₁ w' : State}

/-- The step returns a value from a state and leaves another state behind. -/
def Returns (x : Run α) (w : State) (a : α) (w' : State) : Prop :=
  (x.run.run w).run = (.ok a, w')

/-! ### Steps taken apart -/

theorem returns_pure_iff {a r : α} : (pure a : Run α).Returns w r w' ↔ r = a ∧ w' = w :=
  Refusal.run_pure_eq_ok

theorem returns_bind_iff {r : β} : (x >>= f).Returns w r w' ↔
    ∃ a w₁, x.Returns w a w₁ ∧ (f a).Returns w₁ r w' :=
  Refusal.run_bind_eq_ok

theorem returns_of_iff {r : Except Fault α} {a : α} :
    (Run.of r).Returns w a w' ↔ r = .ok a ∧ w' = w := by
  show (r.mapError Stop.fault, w) = (Except.ok a, w') ↔ r = .ok a ∧ w' = w
  rw [Prod.mk.injEq]
  refine and_congr ?_ eq_comm
  cases r with
  | error fault => exact iff_of_false (by simp [Except.mapError]) (by simp)
  | ok r => simp [Except.mapError]

theorem returns_ofFile_iff {r : Except FileFault α} {a : α} :
    (ofFile r).Returns w a w' ↔ r = .ok a ∧ w' = w := by
  rw [ofFile, returns_of_iff]
  refine and_congr ?_ Iff.rfl
  cases r with
  | error fault => exact iff_of_false (by simp [Except.mapError]) (by simp)
  | ok r => simp [Except.mapError]

theorem returns_get_iff {r : State} : (get : Run State).Returns w r w' ↔ r = w ∧ w' = w :=
  Refusal.run_get_eq_ok

theorem returns_set_iff {s : State} {u : PUnit} : (set s : Run PUnit).Returns w u w' ↔ w' = s := by
  show (Except.ok PUnit.unit, s) = (Except.ok u, w') ↔ w' = s
  simp [eq_comm]

theorem returns_modify_iff {g : State → State} {u : PUnit} :
    (modify g : Run PUnit).Returns w u w' ↔ w' = g w :=
  Refusal.run_modify_eq_ok

theorem not_returns_throw {s : Stop} {a : α} : ¬(throw s : Run α).Returns w a w' := by
  show ¬(Except.error s, w) = (Except.ok a, w')
  simp

/-! ### Steps that read -/

/-- Whenever the step returns, the files and the current folder are the ones from before. -/
def Reads (x : Run α) : Prop :=
  ∀ w a w', x.Returns w a w' → w'.tree = w.tree ∧ w'.current = w.current

theorem reads_pure (a : α) : (pure a : Run α).Reads := by
  intro w r w' h
  obtain ⟨-, rfl⟩ := returns_pure_iff.mp h
  exact ⟨rfl, rfl⟩

theorem Reads.bind (hx : x.Reads) (hf : ∀ a, (f a).Reads) : (x >>= f).Reads := by
  intro w r w' h
  obtain ⟨a, w₁, ha, hr⟩ := returns_bind_iff.mp h
  obtain ⟨htree, hcurrent⟩ := hx w a w₁ ha
  obtain ⟨htree', hcurrent'⟩ := hf a w₁ r w' hr
  exact ⟨htree'.trans htree, hcurrent'.trans hcurrent⟩

theorem reads_of (r : Except Fault α) : (Run.of r).Reads := by
  intro w a w' h
  obtain ⟨-, rfl⟩ := returns_of_iff.mp h
  exact ⟨rfl, rfl⟩

theorem reads_ofFile (r : Except FileFault α) : (ofFile r).Reads := reads_of _

theorem reads_get : (get : Run State).Reads := by
  intro w a w' h
  obtain ⟨-, rfl⟩ := returns_get_iff.mp h
  exact ⟨rfl, rfl⟩

theorem reads_throw (s : Stop) : (throw s : Run α).Reads :=
  fun _ _ _ h => absurd h not_returns_throw

theorem reads_print (line : String) : (print line).Reads := by
  intro w a w' h
  rw [returns_modify_iff.mp h]
  exact ⟨rfl, rfl⟩

theorem reads_report (notes : List Note) : (report notes).Reads := by
  intro w a w' h
  rw [returns_modify_iff.mp h]
  exact ⟨rfl, rfl⟩

theorem reads_foldlM {g : β → α → Run β} (hg : ∀ b a, (g b a).Reads) (as : List α) (b : β) :
    (as.foldlM g b).Reads := by
  induction as generalizing b with
  | nil => exact reads_pure b
  | cons a as ih =>
      rw [List.foldlM_cons]
      exact (hg b a).bind ih

theorem reads_readText (p : Path) : (readText p).Reads :=
  reads_get.bind fun w => (reads_ofFile (w.tree.read w.current p)).bind fun b =>
    reads_of (decodeText b)

theorem reads_metadataFiles (folder : Path) : (metadataFiles folder).Reads := by
  refine reads_get.bind fun w => (reads_ofFile _).bind fun found => ?_
  split
  · exact reads_throw _
  · exact reads_pure _

theorem reads_configuration (path : Option String) : (configuration path).Reads := by
  unfold configuration
  split
  · exact reads_pure _
  · exact reads_pure _
  · refine reads_get.bind fun w => (reads_ofFile _).bind fun found => ?_
    split
    · exact (reads_readText _).bind fun text => reads_of _
    · exact reads_pure _

theorem reads_requestedConfiguration (r : Request) : (requestedConfiguration r).Reads := by
  refine (reads_configuration r.config).bind fun config => ?_
  split
  · exact reads_pure _
  · exact reads_pure _
  · exact reads_of _

theorem reads_addItem (p : Path) (c : Catalog) (item : Value) : (addItem p c item).Reads := by
  refine (reads_of _).bind fun e => ?_
  split
  · exact (reads_report _).bind fun _ => reads_pure _
  · exact reads_pure _

theorem reads_addFile (c : Catalog) (p : Path) : (addFile c p).Reads :=
  (reads_readText p).bind fun text => (reads_of (Yaml.document text)).bind fun doc =>
    (reads_of (Catalog.itemsOf doc)).bind fun items => reads_foldlM (reads_addItem p) items c

theorem reads_catalog (files : List Path) : (catalog files).Reads :=
  (reads_foldlM reads_addFile files .empty).bind fun c => reads_pure c.granted

/-- A run that is not dry reads a configuration and a model, and then writes the pages of the
documented types over the files that it started with. -/
theorem generate_writes {r : Request} (hwet : r.dryRun = false)
    (h : (generate r).Returns w () w') : ∃ config root m targets types w₁,
      Config.pageRoot config = .ok root ∧ Targets.ofModel m root = .ok targets ∧
      m.documentedTypes = .ok types ∧ w₁.tree = w.tree ∧ w₁.current = w.current ∧
      (writeAll r config m targets types).Returns w₁ () w' := by
  obtain ⟨files, w₁, hfiles, h₁⟩ := returns_bind_iff.mp h
  obtain ⟨config, w₂, hconfig, h₂⟩ := returns_bind_iff.mp h₁
  obtain ⟨c, w₃, hcatalog, h₃⟩ := returns_bind_iff.mp h₂
  obtain ⟨m, w₄, hmodel, h₄⟩ := returns_bind_iff.mp h₃
  obtain ⟨targets, w₅, htargets, h₅⟩ := returns_bind_iff.mp h₄
  obtain ⟨types, w₆, htypes, h₆⟩ := returns_bind_iff.mp h₅
  obtain ⟨u, w₇, hreport, h₇⟩ := returns_bind_iff.mp h₆
  rw [if_neg (by simp [hwet])] at h₇
  obtain ⟨-, rfl⟩ := returns_of_iff.mp hmodel
  obtain ⟨hread, rfl⟩ := returns_of_iff.mp htargets
  obtain ⟨hdocumented, rfl⟩ := returns_of_iff.mp htypes
  obtain ⟨root, hroot, hmade⟩ := Refusal.bind_eq_ok.mp hread
  obtain ⟨htree₁, hcurrent₁⟩ := reads_metadataFiles _ _ _ _ hfiles
  obtain ⟨htree₂, hcurrent₂⟩ := reads_requestedConfiguration _ _ _ _ hconfig
  obtain ⟨htree₃, hcurrent₃⟩ := reads_catalog _ _ _ _ hcatalog
  obtain ⟨htree₇, hcurrent₇⟩ := reads_report _ _ _ _ hreport
  exact ⟨config, root, m, targets, types, w₇, hroot, hmade, hdocumented,
    htree₇.trans (htree₃.trans (htree₂.trans htree₁)),
    hcurrent₇.trans (hcurrent₃.trans (hcurrent₂.trans hcurrent₁)), h₇⟩

end TypePages.Run
