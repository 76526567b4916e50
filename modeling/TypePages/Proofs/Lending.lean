import TypePages.Proofs.History
import TypePages.Proofs.Synthesis

/-!
When the record of a member depends on what was synthesised before.

A synthesis asks what is written for two things.  Over its own member it finds what it would write
itself, so that nothing depends on having found it.  But a member without a first sentence looks for
one along the methods that it overrides, and there it may meet a comment that an earlier synthesis
has written.  `DonorSearch.lent_eq_iff` says on which sentences such a search depends, which are
those that it has asked for, and so when a record is the one that a fresh builder gives.
-/

namespace TypePages

/-! ### What a search depends on -/

namespace DonorSearch

variable {m : Model} {o o' : Overlay} {unvisited : List String} {pending : List Element}
  {d e x : Element} {s : DonorSearch} {sentence : String}

/-- The methods whose first sentence a search has asked for. -/
def asked (s : DonorSearch) : List Element := s.passed ++ s.donor.toList

/-- The donor that a search has found, with its sentence. -/
def lent (o : Overlay) (s : DonorSearch) : Option (Element × String) :=
  s.donor.map fun d => (d, o.firstSentence d)

@[simp] theorem asked_after : (after e s).asked = e :: s.asked := rfl

@[simp] theorem lent_after : (after e s).lent o = s.lent o := rfl

theorem lent_eq_some (h : (through m o unvisited pending).lent o = some (d, sentence)) :
    o.firstSentence d = sentence ∧ sentence ≠ "" := by
  obtain ⟨d', hd, heq⟩ := Option.map_eq_some_iff.mp h
  obtain ⟨rfl, rfl⟩ := Prod.mk.inj heq
  exact ⟨rfl, firstSentence_of_donor hd⟩

/-- Only unvisited methods are asked. -/
theorem uid_mem_of_asked (h : x ∈ (through m o unvisited pending).asked) : x.uid ∈ unvisited := by
  fun_induction through m o unvisited pending with
  | case1 => exact absurd h List.not_mem_nil
  | case2 unvisited e rest hmem hne =>
      rw [List.mem_singleton.mp h]
      exact hmem
  | case3 unvisited e rest hmem hempty ih =>
      rcases List.mem_cons.mp h with rfl | h
      · exact hmem
      · exact List.mem_of_mem_erase (ih h)
  | case4 unvisited e rest hmem ih => exact ih h

theorem mem_elements_of_overridden (h : x ∈ m.overridden e) : x ∈ m.elements := by
  obtain ⟨uid, -, hfind⟩ := List.mem_filterMap.mp h
  exact (Model.find?_eq_some_iff.mp hfind).1

/-- Only methods of the model are asked. -/
theorem mem_elements_of_asked (hpending : ∀ y ∈ pending, y ∈ m.elements)
    (h : x ∈ (through m o unvisited pending).asked) : x ∈ m.elements := by
  fun_induction through m o unvisited pending with
  | case1 => exact absurd h List.not_mem_nil
  | case2 unvisited e rest hmem hne =>
      rw [List.mem_singleton.mp h]
      exact hpending e List.mem_cons_self
  | case3 unvisited e rest hmem hempty ih =>
      rcases List.mem_cons.mp h with rfl | h
      · exact hpending x List.mem_cons_self
      · refine ih (fun y hy => ?_) h
        rcases List.mem_append.mp hy with hy | hy
        · exact mem_elements_of_overridden hy
        · exact hpending y (List.mem_cons_of_mem _ hy)
  | case4 unvisited e rest hmem ih => exact ih (fun y hy => hpending y (List.mem_cons_of_mem _ hy)) h

/-- **A search depends on the sentences that it has asked for.**  Over two overlays it finds the same
donor with the same sentence exactly if all of these are the same over both. -/
theorem lent_eq_iff :
    (through m o' unvisited pending).lent o' = (through m o unvisited pending).lent o ↔
      ∀ x ∈ (through m o unvisited pending).asked, o'.firstSentence x = o.firstSentence x := by
  fun_induction through m o unvisited pending with
  | case1 => simp [through, lent, asked]
  | case2 unvisited e rest hmem hne =>
      have hasked : (⟨[], some e⟩ : DonorSearch).asked = [e] := rfl
      rw [through, dif_pos hmem, hasked, List.forall_mem_singleton]
      by_cases hempty' : o'.firstSentence e = ""
      · -- The other search goes on and finds a method that has a sentence there.
        rw [if_neg (not_not_intro hempty'), lent_after]
        refine iff_of_false (fun heq => ?_) fun heq => hne (heq.symm.trans hempty')
        obtain ⟨hsentence, hne'⟩ := lent_eq_some heq
        exact hne' (hsentence.symm.trans hempty')
      · rw [if_pos hempty']
        show some (e, o'.firstSentence e) = some (e, o.firstSentence e) ↔ _
        simp
  | case3 unvisited e rest hmem hempty ih =>
      have hempty := not_not.mp hempty
      rw [through, dif_pos hmem, asked_after, lent_after, List.forall_mem_cons]
      by_cases hempty' : o'.firstSentence e = ""
      · rw [if_neg (not_not_intro hempty'), lent_after, ih, hempty, hempty']
        simp
      · -- The other search stops at a method without a sentence here.
        rw [if_pos hempty']
        refine iff_of_false (fun heq => ?_) fun heq => hempty' (heq.1.trans hempty)
        obtain ⟨hsentence, hne⟩ := lent_eq_some heq.symm
        exact hne (hsentence ▸ hempty)
  | case4 unvisited e rest hmem ih =>
      rw [through, dif_neg hmem]
      exact ih

theorem lent_ofMethod_eq_iff : (ofMethod m o' e).lent o' = (ofMethod m o e).lent o ↔
    ∀ x ∈ (ofMethod m o e).asked, o'.firstSentence x = o.firstSentence x :=
  lent_eq_iff

end DonorSearch

namespace Overlay

theorem firstSentence_congr {o o' : Overlay} {x : Element} (h : o.comment? x = o'.comment? x) :
    o.firstSentence x = o'.firstSentence x := by
  rw [firstSentence, firstSentence, body, body, h]

theorem firstSentence_write_of_ne {o : Overlay} {e x : Element} (c : Option Comment)
    (h : x.uid ≠ e.uid) : (o.write e c).firstSentence x = o.firstSentence x := by
  apply firstSentence_congr
  rw [comment?, comment?, installed_write_of_ne h]

end Overlay

namespace Builder

variable {b : Builder} {e x : Element} {es : List Element} {o o' : Overlay} {c : Option Comment}

/-! ### What a record depends on -/

/-- What a member borrows: a method and its first sentence. -/
def loan (b : Builder) (o : Overlay) (e : Element) : Option (Element × String) :=
  (b.donorOf o e).map fun d => (d, o.firstSentence d)

theorem loan_of_borrows (h : borrows o e = true) :
    b.loan o e = (DonorSearch.ofMethod b.model o e).lent o := by
  rw [loan, donorOf, if_pos h]
  rfl

theorem loan_of_not_borrows (h : borrows o e ≠ true) : b.loan o e = none := by
  rw [loan, donorOf, if_neg h]
  rfl

theorem donor_recordOf (b : Builder) (o : Overlay) (e : Element) :
    (b.recordOf o e).donor = (b.loan o e).map (·.1) := by
  show b.donorOf o e = ((b.donorOf o e).map fun d => (d, o.firstSentence d)).map (·.1)
  cases b.donorOf o e <;> rfl

theorem firstSentence_recordOf (b : Builder) (o : Overlay) (e : Element) :
    (b.recordOf o e).firstSentence = ((b.loan o e).map (·.2)).getD (o.firstSentence e) := by
  unfold recordOf loan
  cases b.donorOf o e <;> rfl

/-- Over two overlays that give a member the same comment its records differ in what is borrowed. -/
theorem recordOf_eq_iff (hcomment : o.comment? e = o'.comment? e) :
    b.recordOf o e = b.recordOf o' e ↔ b.loan o e = b.loan o' e := by
  constructor
  · intro h
    have hdonor : (b.loan o e).map (·.1) = (b.loan o' e).map (·.1) := by
      rw [← donor_recordOf, ← donor_recordOf, h]
    have hsentence : ((b.loan o e).map (·.2)).getD (o.firstSentence e) =
        ((b.loan o' e).map (·.2)).getD (o'.firstSentence e) := by
      rw [← firstSentence_recordOf, ← firstSentence_recordOf, h]
    rcases hl : b.loan o e with _ | ⟨d, t⟩ <;> rcases hl' : b.loan o' e with _ | ⟨d', t'⟩
    · rfl
    · simp [hl, hl'] at hdonor
    · simp [hl, hl'] at hdonor
    · simp only [hl, hl', Option.map_some, Option.some.injEq, Option.getD_some] at hdonor hsentence
      rw [hdonor, hsentence]
  · intro h
    have hdonor : (b.recordOf o e).donor = (b.recordOf o' e).donor := by
      rw [donor_recordOf, donor_recordOf, h]
    have hsentence : (b.recordOf o e).firstSentence = (b.recordOf o' e).firstSentence := by
      rw [firstSentence_recordOf, firstSentence_recordOf, h, Overlay.firstSentence_congr hcomment]
    have hrest : ∀ p : Overlay, b.recordOf p e = ⟨e, (b.recordOf p e).firstSentence,
        ((p.comment? e).getD .empty).body, ((p.comment? e).getD .empty).tags,
        (b.recordOf p e).donor⟩ := fun p => rfl
    rw [hrest o, hrest o', hdonor, hsentence, hcomment]

/-! ### The record that a fresh builder gives -/

/-- A member has no first sentence of its own on a fresh builder and looks for one to borrow. -/
def Seeks (b : Builder) (e : Element) : Prop :=
  ∃ c, b.commentFor e = .ok c ∧ borrows (Overlay.write {} e c) e = true

/-- The methods that are asked for a first sentence when a member seeks one on a fresh builder. -/
def consulted (b : Builder) (e : Element) : List Element := (DonorSearch.ofMethod b.model {} e).asked

/-- The comment that is written over a member has another first sentence than the documents. -/
def Rewords (b : Builder) (x : Element) : Prop :=
  ∃ w, b.commentFor x = .ok (some w) ∧ Comment.firstSentence w.body ≠ Overlay.firstSentence {} x

/-- No method that a member asks for a first sentence is one whose sentence the synthesis of some
elements has changed. -/
def Undisturbed (b : Builder) (P : Element → Prop) (e : Element) : Prop :=
  b.Seeks e → ∀ x ∈ b.consulted e, P x → ¬b.Rewords x

theorem mem_elements_of_consulted (h : x ∈ b.consulted e) : x ∈ b.model.elements :=
  DonorSearch.mem_elements_of_asked (fun _ => DonorSearch.mem_elements_of_overridden) h

theorem uid_ne_of_consulted (h : x ∈ b.consulted e) : x.uid ≠ e.uid :=
  ((b.model.nodup_uids.mem_erase_iff).mp (DonorSearch.uid_mem_of_asked h)).1

theorem firstSentence_of_installed_eq_none (h : o.installed x.uid = none) :
    o.firstSentence x = Overlay.firstSentence {} x :=
  Overlay.firstSentence_congr (Overlay.comment?_of_installed_eq_none h)

/-- A member's first sentence is the one of the documents unless a synthesis has reworded it. -/
theorem Written.firstSentence_eq_iff (h : b.Written es o) (hes : ∀ y ∈ es, y ∈ b.model.elements)
    (hx : x ∈ b.model.elements) :
    o.firstSentence x = Overlay.firstSentence {} x ↔ (x ∈ es → ¬b.Rewords x) := by
  by_cases hmem : x ∈ es
  · have hown := h.own x hmem
    have hkeeps : o.firstSentence x = Overlay.firstSentence {} x ↔ ¬b.Rewords x := by
      unfold Rewords
      rw [hown]
      cases hi : o.installed x.uid with
      | none => simp [firstSentence_of_installed_eq_none hi]
      | some w =>
          have hsame : o.firstSentence x = Comment.firstSentence w.body := by
            rw [Overlay.firstSentence, Overlay.body, Overlay.comment?, hi]
            rfl
          simp [hsame]
    rw [hkeeps]
    exact ⟨fun hnot _ => hnot, fun hnot => hnot hmem⟩
  · have hnone := h.installed_eq_none hes hx hmem
    exact iff_of_true (firstSentence_of_installed_eq_none hnone) fun hin => absurd hin hmem

/-- Over its own comment a member's loan is the one that a fresh builder gives exactly if the
methods that it asks have kept their sentences. -/
theorem loan_write_eq_iff (hcomment : (o.write e c).comment? e = (Overlay.write {} e c).comment? e) :
    b.loan (o.write e c) e = b.loan (Overlay.write {} e c) e ↔
      (borrows (Overlay.write {} e c) e = true →
        ∀ x ∈ b.consulted e, o.firstSentence x = Overlay.firstSentence {} x) := by
  have hborrows : borrows (o.write e c) e = borrows (Overlay.write {} e c) e := by
    rw [borrows, borrows, Overlay.firstSentence_congr hcomment]
  by_cases h : borrows (Overlay.write {} e c) e = true
  · have hsearch : DonorSearch.ofMethod b.model (Overlay.write {} e c) e =
        DonorSearch.ofMethod b.model {} e :=
      DonorSearch.ofMethod_congr fun x hne => Overlay.firstSentence_write_of_ne c hne
    rw [loan_of_borrows h, loan_of_borrows (hborrows.trans h), DonorSearch.lent_ofMethod_eq_iff,
      hsearch]
    simp only [h, true_imp_iff]
    refine forall₂_congr fun x hx => ?_
    have hne := uid_ne_of_consulted hx
    rw [Overlay.firstSentence_write_of_ne c hne, Overlay.firstSentence_write_of_ne c hne]
  · have hnot : borrows (o.write e c) e ≠ true := by rwa [hborrows]
    rw [loan_of_not_borrows h, loan_of_not_borrows hnot]
    simp [h]

theorem map_synthesize (b : Builder) (o : Overlay) (e : Element) :
    (b.synthesize o e).map (·.1) = (b.commentFor e).map fun c => b.recordOf (o.write e c) e := by
  rw [synthesize_eq]
  cases b.commentFor e <;> rfl

/-- **A record is the one that a fresh builder gives, exactly where the member is undisturbed.** -/
theorem synthesize_eq_fresh_iff (hes : ∀ y ∈ es, y ∈ b.model.elements) (hrun : b.Synthesized es o)
    (he : e ∈ b.model.elements) :
    (b.synthesize o e).map (·.1) = (b.synthesize {} e).map (·.1) ↔ b.Undisturbed (· ∈ es) e := by
  have hw := written_of_synthesized hrun hes
  rw [map_synthesize, map_synthesize]
  unfold Undisturbed Seeks
  cases hc : b.commentFor e with
  | error f => simp [Except.map]
  | ok c =>
      have hcomment : (o.write e c).comment? e = (Overlay.write {} e c).comment? e := by
        rw [Overlay.comment?, Overlay.comment?, Overlay.installed_write_self,
          Overlay.installed_write_self, hw.or_installed hes he hc]
        cases c <;> rfl
      show Except.ok _ = Except.ok _ ↔ _
      rw [Except.ok.injEq, recordOf_eq_iff hcomment, loan_write_eq_iff hcomment]
      simp only [Except.ok.injEq, exists_eq_left']
      refine imp_congr_right fun _ => forall₂_congr fun x hx => ?_
      exact hw.firstSentence_eq_iff hes (mem_elements_of_consulted hx)

end Builder

end TypePages
