import TypePages.Proofs.Completion
import TypePages.Proofs.Lending
import TypePages.Proofs.Rows

/-!
When a page can be built again.

A page is written into a draft, and writing it a second time starts from what the first time has
left: other comments, and otherwise the same.  Two drafts are *alike* when the same rows wait in
them and all that is written over their comments comes from syntheses, and a step is *steady* when
alike drafts make no difference to what it returns and adds to the page.  Steadiness passes to steps
that are put together from steady ones, so that it has to be shown only where the draft is read:
where the row of a member is written and where the rows are taken.
-/

namespace TypePages

namespace Builder

open Work

variable {b : Builder} {P Q : Element → Prop} {e x : Element} {o o' o₀ : Overlay} {r r₀ : Record}
  {k : Member.Kind} {d d' d₁ d₂ : Draft}

/-! ### Overlays that syntheses leave -/

/-- An overlay that syntheses of some elements have left. -/
def Reached (b : Builder) (P : Element → Prop) (o : Overlay) : Prop :=
  ∃ es, (∀ x ∈ es, P x) ∧ b.Synthesized es o

theorem Reached.snoc (h : b.Reached P o) (he : P e) (hstep : b.synthesize o e = .ok (r, o')) :
    b.Reached P o' := by
  obtain ⟨es, hes, hrun⟩ := h
  refine ⟨es ++ [e], fun x hx => ?_, hrun.snoc hstep⟩
  rcases List.mem_append.mp hx with hx | hx
  · exact hes x hx
  · rw [List.mem_singleton.mp hx]
    exact he

theorem Undisturbed.mono (h : b.Undisturbed P e) (hsub : ∀ x, Q x → P x) : b.Undisturbed Q e :=
  fun hseeks x hx hq => h hseeks x hx (hsub x hq)

/-- A donor noted again where it was noted before, if any was, is noted. -/
theorem or_eq_self {p q : Option Element} (h : p = none ∨ p = q) : q.or p = q := by
  rcases h with rfl | rfl
  · exact Option.or_none
  · exact Option.or_self

section

variable (hP : ∀ x, P x → x ∈ b.model.elements)

include hP

/-- The records of an undisturbed member are the one that a fresh builder gives. -/
theorem synthesizes_iff_fresh (hu : b.Undisturbed P e) (he : P e) (ho : b.Reached P o) :
    (∃ o', b.synthesize o e = .ok (r, o')) ↔ ∃ o', b.synthesize {} e = .ok (r, o') := by
  have hrecord : ∀ p : Overlay,
      (∃ o', b.synthesize p e = .ok (r, o')) ↔ (b.synthesize p e).map (·.1) = .ok r := by
    intro p
    rw [Refusal.map_eq_ok, Prod.exists]
    simp
  obtain ⟨es, hes, hrun⟩ := ho
  have hsame := (synthesize_eq_fresh_iff (fun y hy => hP y (hes y hy)) hrun (hP e he)).mpr
    (hu.mono hes)
  rw [hrecord, hrecord, hsame]

/-- Whenever a donor is noted for an undisturbed member it is the one that a fresh builder gives. -/
theorem donors_of_reached (hu : b.Undisturbed P e) (he : P e) (ho : b.Reached P o)
    (hfresh : b.synthesize {} e = .ok (r₀, o₀)) :
    o.donors e.uid = none ∨ o.donors e.uid = r₀.donor := by
  obtain ⟨es, hes, hrun⟩ := ho
  induction hrun with
  | nil => exact .inl rfl
  | @snoc es o x r o' run step ih =>
      have hinit : ∀ y ∈ es, P y := fun y hy => hes y (List.mem_append_left _ hy)
      have hbefore := ih hinit
      obtain ⟨c, -, -, rfl⟩ := synthesize_iff.mp step
      by_cases hxe : x = e
      · subst hxe
        obtain ⟨o₁, hagain⟩ := (synthesizes_iff_fresh hP hu he ⟨es, hinit, run⟩).mp ⟨_, step⟩
        rw [hfresh, Except.ok.injEq, Prod.mk.injEq] at hagain
        rw [Overlay.donors_lend_self, Overlay.donors_write, ← hagain.1]
        exact .inr (or_eq_self hbefore)
      · have hne : e.uid ≠ x.uid := fun huid =>
          hxe (Catalog.eq_of_uid_eq (hP x (hes x (by simp))) (hP e he) huid.symm)
        rw [Overlay.donors_lend_of_ne hne, Overlay.donors_write]
        exact hbefore

/-- The donor that is noted for an undisturbed member is the one of its record. -/
theorem donor?_of_synthesize (hu : b.Undisturbed P e) (he : P e) (ho : b.Reached P o)
    (h : b.synthesize o e = .ok (r, o')) : o'.donor? e = r.donor := by
  obtain ⟨o₀, hfresh⟩ := (synthesizes_iff_fresh hP hu he ho).mp ⟨o', h⟩
  have hbefore := donors_of_reached hP hu he ho hfresh
  obtain ⟨c, -, -, rfl⟩ := synthesize_iff.mp h
  rw [Overlay.donor?, Overlay.donors_lend_self, Overlay.donors_write]
  exact or_eq_self hbefore

end

/-! ### Steady steps -/

/-- The same rows wait in two drafts, and syntheses have left what is written over their comments. -/
structure Alike (b : Builder) (P : Element → Prop) (d d' : Draft) : Prop where
  left : b.Reached P d.overlay
  right : b.Reached P d'.overlay
  rows : d.rows = d'.rows

/-- From alike drafts a step returns the same value, adds the same lines and leaves alike drafts. -/
def Steady {α : Type} (b : Builder) (P : Element → Prop) (w : Work α) : Prop :=
  ∀ ⦃d₁ d₁' d₂ : Draft⦄ ⦃a : α⦄, b.Alike P d₁ d₂ → w.Returns d₁ a d₁' →
    ∃ d₂' lines, w.Returns d₂ a d₂' ∧ d₁'.tree = d₁.tree ++ lines ∧ d₂'.tree = d₂.tree ++ lines ∧
      b.Alike P d₁' d₂'

section

variable {α β : Type} {w : Work α} {f : α → Work β}

theorem steady_of (y : Except Fault α) : b.Steady P (Work.of y) := by
  intro d₁ d₁' d₂ a halike h
  obtain ⟨hy, rfl⟩ := returns_of_iff.mp h
  exact ⟨d₂, [], returns_of_iff.mpr ⟨hy, rfl⟩, (List.append_nil _).symm,
    (List.append_nil _).symm, halike⟩

theorem steady_pure (a : α) : b.Steady P (pure a) := steady_of (.ok a)

theorem Steady.bind (hw : b.Steady P w) (hf : ∀ a, b.Steady P (f a)) : b.Steady P (w >>= f) := by
  intro d₁ d₁' d₂ r halike h
  obtain ⟨a, e₁, hhead, htail⟩ := returns_bind_iff.mp h
  obtain ⟨e₂, lines, hhead', htree₁, htree₂, halike'⟩ := hw halike hhead
  obtain ⟨d₂', lines', htail', htree₁', htree₂', halike''⟩ := hf a halike' htail
  refine ⟨d₂', lines ++ lines', returns_bind_iff.mpr ⟨a, e₂, hhead', htail'⟩, ?_, ?_, halike''⟩
  · rw [htree₁', htree₁, List.append_assoc]
  · rw [htree₂', htree₂, List.append_assoc]

theorem steady_mapM {xs : List α} (h : ∀ x ∈ xs, b.Steady P (f x)) : b.Steady P (xs.mapM f) := by
  induction xs with
  | nil =>
      rw [List.mapM_nil]
      exact steady_pure []
  | cons x xs ih =>
      rw [List.mapM_cons]
      exact (h x List.mem_cons_self).bind fun y =>
        (ih fun z hz => h z (List.mem_cons_of_mem _ hz)).bind fun ys => steady_pure (y :: ys)

theorem steady_addLines (lines : List String) :
    b.Steady P (modify fun d => { d with tree := d.tree ++ lines }) := by
  intro d₁ d₁' d₂ a halike h
  obtain rfl := returns_modify_iff.mp h
  exact ⟨_, lines, returns_modify_iff.mpr rfl, rfl, rfl, halike.left, halike.right, halike.rows⟩

end

/-! ### The steps of a page -/

theorem steady_takeTable (k : Member.Kind) : b.Steady P (takeTable k) := by
  intro d₁ d₁' d₂ text halike h
  obtain ⟨rfl, rfl⟩ := returns_takeTable_iff.mp h
  refine ⟨_, [], returns_takeTable_iff.mpr ⟨by rw [halike.rows], rfl⟩, (List.append_nil _).symm,
    (List.append_nil _).symm, halike.left, halike.right, ?_⟩
  show (fun k' => if k' = k then [] else d₁.rows k') = fun k' => if k' = k then [] else d₂.rows k'
  rw [halike.rows]

/-- The overlay decides only in which context a row's sentence is read. -/
theorem rowOf_congr (h : o.donor? e = o'.donor? e) (sentence : String) :
    b.rowOf o k e sentence = b.rowOf o' k e sentence := by
  unfold rowOf
  rw [h]

theorem steady_memberStep (hP : ∀ x, P x → x ∈ b.model.elements) (hu : b.Undisturbed P e)
    (he : P e) : b.Steady P (b.memberStep k e) := by
  intro d₁ d₁' d₂ r halike h
  obtain ⟨o, row, hstep, hrow, rfl⟩ := returns_memberStep_iff.mp h
  obtain ⟨o', hstep'⟩ : ∃ o', b.synthesize d₂.overlay e = .ok (r, o') :=
    (synthesizes_iff_fresh hP hu he halike.right).mpr
      ((synthesizes_iff_fresh hP hu he halike.left).mp ⟨o, hstep⟩)
  have hdonor : o'.donor? e = o.donor? e := by
    rw [donor?_of_synthesize hP hu he halike.right hstep',
      donor?_of_synthesize hP hu he halike.left hstep]
  refine ⟨_, [], returns_memberStep_iff.mpr ⟨o', row, hstep', ?_, rfl⟩, (List.append_nil _).symm,
    (List.append_nil _).symm, halike.left.snoc he hstep, halike.right.snoc he hstep', ?_⟩
  · rw [rowOf_congr hdonor]
    exact hrow
  · show (fun k' => if k' = k then d₁.rows k ++ [row] else d₁.rows k') =
      fun k' => if k' = k then d₂.rows k ++ [row] else d₂.rows k'
    rw [halike.rows]

theorem steady_ownGroup (h : ∀ e ∈ b.members k, b.Steady P (b.memberStep k e)) :
    b.Steady P (b.ownGroup k) := by
  unfold ownGroup
  by_cases hempty : b.members k = []
  · simp only [hempty, List.isEmpty_nil, if_true]
    exact steady_pure []
  · simp only [List.isEmpty_iff, hempty, if_false]
    exact (steady_mapM h).bind fun records =>
      (steady_takeTable k).bind fun text => steady_pure _

theorem steady_otherGroups (b : Builder) (P : Element → Prop) (k : Member.Kind)
    (inherited : Bool) : b.Steady P (b.otherGroups k inherited) := by
  cases inherited with
  | false => exact steady_pure []
  | true => exact steady_of _

theorem steady_addShown (b : Builder) (P : Element → Prop) (k : Member.Kind)
    (shown : List Shown) : b.Steady P (b.addShown k shown) := by
  unfold addShown
  by_cases hempty : shown = []
  · simp only [hempty, List.isEmpty_nil, if_true]
    exact steady_pure []
  · simp only [List.isEmpty_iff, hempty, if_false]
    exact (steady_of _).bind fun heading => (steady_addLines _).bind fun _ => steady_pure _

theorem steady_addSection (h : ∀ e ∈ b.members k, b.Steady P (b.memberStep k e))
    (inherited : Bool) : b.Steady P (b.addSection k inherited) := by
  rw [addSection_eq]
  exact (steady_ownGroup h).bind fun own => (steady_otherGroups b P k inherited).bind fun others =>
    steady_addShown b P k (own ++ others)

/-- The page of a type has a row for a member. -/
def HasRow (b : Builder) (e : Element) : Prop := ∃ k ∈ b.kinds, e ∈ b.members k

theorem steady_build (hP : ∀ x, P x → x ∈ b.model.elements) (hrow : ∀ x, b.HasRow x → P x)
    (hu : ∀ x, b.HasRow x → b.Undisturbed P x) : b.Steady P b.build := by
  refine Steady.bind (steady_mapM fun k hk => steady_addSection (fun e he => ?_) _) fun groups =>
    steady_pure groups.flatten
  have hshown : b.HasRow e := ⟨k, (List.mem_filter.mp hk).1, he⟩
  exact steady_memberStep hP (hu e hshown) (hrow e hshown)

/-! ### The rows that wait -/

theorem rows_of_addSection {inherited : Bool} {groups : List RowGroup}
    (h : (b.addSection k inherited).Returns d groups d') (hrows : d.rows = fun _ => []) :
    d'.rows = fun _ => [] := by
  funext k'
  by_cases hk : k' = k
  · obtain ⟨own, others, d₁, hown, -, -, -, hrows₁⟩ := own_of_addSection h
    rw [hk, hrows₁]
    exact rows_self_of_ownGroup hown (congrFun hrows k)
  · exact ((spares_of_addSection h).rows k' hk).trans (congrFun hrows k')

theorem rows_of_build {groups : List RowGroup} (h : b.build.Returns d groups d')
    (hrows : d.rows = fun _ => []) : d'.rows = fun _ => [] := by
  obtain ⟨found, d₁, hmap, h₁⟩ := returns_bind_iff.mp h
  obtain ⟨-, rfl⟩ := returns_pure_iff.mp h₁
  have heach := returns_mapM_iff.mp hmap
  generalize b.kinds.filter b.hasWriter = ks at heach
  clear h hmap h₁
  induction heach with
  | nil => exact hrows
  | cons head _ ih => exact ih (rows_of_addSection head hrows)

/-! ### Building twice -/

/-- Where no member with a row is disturbed by the others a page is built again as before. -/
theorem build_again (hP : ∀ x, P x → x ∈ b.model.elements) (hrow : ∀ x, b.HasRow x → P x)
    (hu : ∀ x, b.HasRow x → b.Undisturbed P x) (hd : b.Reached P d.overlay)
    (hrows : d.rows = fun _ => []) {groups : List RowGroup} (h : b.build.Returns d groups d₁) :
    ∃ d₂ lines, b.build.Returns d₁ groups d₂ ∧ d₁.tree = d.tree ++ lines ∧
      d₂.tree = d₁.tree ++ lines := by
  have hsteady := steady_build hP hrow hu
  obtain ⟨_, _, _, _, _, hself⟩ := hsteady ⟨hd, hd, rfl⟩ h
  have halike : b.Alike P d d₁ := ⟨hd, hself.left, by rw [hrows, rows_of_build h hrows]⟩
  obtain ⟨d₂, lines, hagain, htree₁, htree₂, -⟩ := hsteady halike h
  exact ⟨d₂, lines, hagain, htree₁, htree₂⟩

/-! ### Records and pages -/

variable {m : Model} {targets : Targets} {messages : Value} {rules : Table.Rules} {owner : Element}
  {es : List Element}

theorem mem_membersOf_of_hasRow (hb : ofType m targets messages rules owner = .ok b)
    (h : b.HasRow e) : e ∈ m.membersOf owner := by
  obtain ⟨k, -, he⟩ := h
  have hvisible := (members_perm (reads_of_ofType hb)).mem_iff.mp he
  exact Table.mem_membersOf_of_mem_visible (of_ofType hb).2.2.2.1 hvisible

/-- **What was synthesised before shows in what is borrowed, and in nothing else.**  After a run of
syntheses a member has the record that a fresh builder gives exactly if it is undisturbed by the
run.  Where no member with a row is disturbed by the run or by other members with a row, a page is
built a second time with the same groups and the same lines. -/
theorem records_after_run (hb : ofType m targets messages rules owner = .ok b)
    (hes : ∀ x ∈ es, x ∈ m.membersOf owner) (hrun : b.Synthesized es o) :
    (∀ e ∈ m.membersOf owner, ((b.synthesize o e).map (·.1) = (b.synthesize {} e).map (·.1) ↔
        b.Undisturbed (· ∈ es) e)) ∧
      ((∀ e, b.HasRow e → b.Undisturbed (fun x => x ∈ es ∨ b.HasRow x) e) →
        ∀ d groups d₁, d.overlay = o → (d.rows = fun _ => []) → b.build.Returns d groups d₁ →
          ∃ d₂ lines, b.build.Returns d₁ groups d₂ ∧ d₁.tree = d.tree ++ lines ∧
            d₂.tree = d₁.tree ++ lines) := by
  have hmodel := (of_ofType hb).1
  have hmem : ∀ x ∈ m.membersOf owner, x ∈ b.model.elements := by
    intro x hx
    rw [hmodel]
    exact (Model.mem_membersOf_iff.mp hx).1
  refine ⟨fun e he => synthesize_eq_fresh_iff (fun x hx => hmem x (hes x hx)) hrun (hmem e he), ?_⟩
  intro hu d groups d₁ hd hrows h
  refine build_again (fun x hx => ?_) (fun x hx => .inr hx) hu ⟨es, fun x hx => .inl hx, hd ▸ hrun⟩
    hrows h
  rcases hx with hx | hx
  · exact hmem x (hes x hx)
  · exact hmem x (mem_membersOf_of_hasRow hb hx)

/-! The page of dials can be built again: the method that turns a dial borrows from the property
method, whose sentence stays.  A method that borrows from the getter has another record once the
getter has been synthesised. -/

theorem mem_visible_of_mem_members_dial (h : e ∈ (dialBuilder "public").members k) :
    e ∈ (dialBuilder "public").table.visible k :=
  (members_perm (reads_of_ofType ofType_dial)).mem_iff.mp h

theorem hasRow_dial (h : (dialBuilder "public").HasRow e) : e = angle ∨ e = getAngle ∨ e = turn := by
  obtain ⟨k, -, he⟩ := h
  have hshown : ∀ k', ∀ x ∈ (dialBuilder "public").table.visible k', x ∈ [angle, getAngle, turn] := by
    intro k'
    cases k' <;> decide +kernel
  simpa using hshown k e (mem_visible_of_mem_members_dial he)

theorem commentFor_turn (least : String) : (dialBuilder least).commentFor turn = .ok none := rfl

theorem writable_dial (k : Member.Kind) (h : (dialBuilder "public").hasWriter k = true) :
    (dialBuilder "public").Writable k := by
  have hkind : k = .properties ∨ k = .methods := by
    revert h
    cases k <;> decide +kernel
  rcases hkind with rfl | rfl
  · have hangle : ∀ e ∈ (dialBuilder "public").members .properties, e = angle := by
      intro e he
      have hvisible := mem_visible_of_mem_members_dial he
      have hall : (dialBuilder "public").table.visible .properties = [angle] := by decide +kernel
      rw [hall] at hvisible
      exact List.mem_singleton.mp hvisible
    refine ⟨⟨["## Properties", ""], ?_⟩, fun _ => ⟨[], rfl⟩, fun e he => ?_, fun e he => ⟨_, rfl⟩⟩
    · rw [← Refusal.toOption_eq_some_iff]
      decide +kernel
    · rw [hangle e he]
      exact ⟨_, commentFor_angle "public"⟩
  · have hmethods : ∀ e ∈ (dialBuilder "public").members .methods, e = getAngle ∨ e = turn := by
      intro e he
      have hvisible := mem_visible_of_mem_members_dial he
      have hall : (dialBuilder "public").table.visible .methods = [getAngle, turn] := by
        decide +kernel
      rw [hall] at hvisible
      simpa using hvisible
    refine ⟨⟨["## Methods", ""], ?_⟩, fun _ => ⟨[], rfl⟩, fun e he => ?_, fun e he => ⟨_, rfl⟩⟩
    · rw [← Refusal.toOption_eq_some_iff]
      decide +kernel
    · rcases hmethods e he with rfl | rfl
      · exact ⟨_, commentFor_getAngle "public"⟩
      · exact ⟨_, commentFor_turn "public"⟩

/-- A method that overrides none asks none. -/
theorem consulted_of_overrides_eq_nil (h : e.overrides = []) : b.consulted e = [] := by
  have hnone : b.model.overridden e = [] := by
    rw [Model.overridden, h]
    rfl
  rw [consulted, DonorSearch.ofMethod, hnone, DonorSearch.through]
  rfl

theorem consulted_turn : (dialBuilder "public").consulted turn = [angle] := by
  have hoverridden : (dialBuilder "public").model.overridden turn = [angle] := by decide +kernel
  have hmem : angle.uid ∈ (dialBuilder "public").model.uids.erase turn.uid := by decide +kernel
  have hne : Overlay.firstSentence {} angle ≠ "" := by decide +kernel
  rw [consulted, DonorSearch.ofMethod, hoverridden, DonorSearch.through, dif_pos hmem, if_pos hne]
  rfl

/-- The property method keeps its sentence, so whoever borrows it is undisturbed. -/
theorem not_rewords_angle : ¬(dialBuilder "public").Rewords angle := by
  rintro ⟨w, hw, hne⟩
  rw [commentFor_angle, Except.ok.injEq, Option.some.injEq] at hw
  subst hw
  exact hne (by decide +kernel)

theorem undisturbed_dial (he : e = angle ∨ e = getAngle ∨ e = turn) :
    (dialBuilder "public").Undisturbed P e := by
  intro _ x hx _
  rcases he with rfl | rfl | rfl
  · rw [consulted_of_overrides_eq_nil rfl] at hx
    exact absurd hx List.not_mem_nil
  · rw [consulted_of_overrides_eq_nil rfl] at hx
    exact absurd hx List.not_mem_nil
  · rw [consulted_turn, List.mem_singleton] at hx
    rw [hx]
    exact not_rewords_angle

theorem records_after_run_dial :
    ofType (dials "public") [] dialMessages ⟨.standard, true⟩ dial = .ok (dialBuilder "public") ∧
      ∃ o, (dialBuilder "public").Synthesized [getAngle, angle] o ∧
        ((dialBuilder "public").synthesize o turn).map (·.1) =
          ((dialBuilder "public").synthesize {} turn).map (·.1) ∧
        ∃ groups d₁ d₂ lines, (dialBuilder "public").build.Returns { overlay := o } groups d₁ ∧
          (dialBuilder "public").build.Returns d₁ groups d₂ ∧ d₁.tree = lines ∧
          d₂.tree = lines ++ lines := by
  obtain ⟨_, o₁, h₁⟩ := exists_synthesize (commentFor_getAngle "public") {}
  obtain ⟨_, o, h₂⟩ := exists_synthesize (commentFor_angle "public") o₁
  have hrun : (dialBuilder "public").Synthesized [getAngle, angle] o :=
    (Synthesized.nil.snoc h₁).snoc h₂
  obtain ⟨hrecords, hpages⟩ := records_after_run ofType_dial (by decide +kernel) hrun
  obtain ⟨groups, d₁, hbuild⟩ := total_build (fun k _ => writable_dial k) { overlay := o }
  obtain ⟨d₂, lines, hagain, htree₁, htree₂⟩ := hpages
    (fun e he => undisturbed_dial (hasRow_dial he)) { overlay := o } groups d₁ rfl rfl hbuild
  refine ⟨ofType_dial, o, hrun, ?_, groups, d₁, d₂, lines, hbuild, hagain, htree₁, ?_⟩
  · exact (hrecords turn (by decide +kernel)).mpr (undisturbed_dial (.inr (.inr rfl)))
  · rw [htree₂, htree₁]
    rfl

/-- The method that borrows from the getter looks no further if there is a sentence over it. -/
theorem loan_aim {o : Overlay} (hself : o.firstSentence aim = "") :
    (dialBuilder "protected").loan o aim =
      if o.firstSentence getAngle = "" then none else some (getAngle, o.firstSentence getAngle) := by
  have hborrows : borrows o aim = true := by
    rw [borrows, hself]
    rfl
  have hoverridden : (dialBuilder "protected").model.overridden aim = [getAngle] := by
    decide +kernel
  have hmem : getAngle.uid ∈ (dialBuilder "protected").model.uids.erase aim.uid := by decide +kernel
  have hlast : (dialBuilder "protected").model.overridden getAngle ++ [] = [] := by decide +kernel
  rw [loan_of_borrows hborrows, DonorSearch.ofMethod, hoverridden, DonorSearch.through,
    dif_pos hmem]
  by_cases hempty : o.firstSentence getAngle = ""
  · rw [if_neg (not_not_intro hempty), if_pos hempty, hlast, DonorSearch.through]
    rfl
  · rw [if_pos hempty, if_neg hempty]
    rfl

theorem record_changes_aim :
    ofType (dials "protected") [] dialMessages ⟨.standard, true⟩ dial =
        .ok (dialBuilder "protected") ∧
      getAngle ∈ (dials "protected").membersOf dial ∧ aim ∈ (dials "protected").membersOf dial ∧
      ∃ o r o₁ r₀ o₀, (dialBuilder "protected").Synthesized [getAngle] o ∧
        (dialBuilder "protected").synthesize o aim = .ok (r, o₁) ∧
        (dialBuilder "protected").synthesize {} aim = .ok (r₀, o₀) ∧
        r.firstSentence = "Gets the value of the property angle." ∧ r.donor = some getAngle ∧
        r₀.firstSentence = "" ∧ r₀.donor = none := by
  have haim : (dialBuilder "protected").commentFor aim = .ok none := rfl
  obtain ⟨_, o, h₁⟩ := exists_synthesize (commentFor_getAngle "protected") {}
  have hgetter : o.firstSentence getAngle = "Gets the value of the property angle." := by
    have hcomment := comment?_of_synthesize (source_getAngle "protected")
      (propertyComment_getAngle "protected") h₁
    rw [Overlay.firstSentence, Overlay.body, hcomment]
    decide +kernel
  have hself : o.firstSentence aim = "" := by
    have hmem : ∀ x ∈ [] ++ [getAngle], x ∈ (dials "protected").elements := by decide +kernel
    have haim : aim ∈ (dials "protected").elements := by decide +kernel
    have hnone := (written_of_synthesized (.snoc .nil h₁) hmem).installed_eq_none hmem haim
      (by decide +kernel)
    rw [firstSentence_of_installed_eq_none hnone]
    decide +kernel
  have hloan := loan_aim hself
  have hfresh := loan_aim (o := {}) (by decide +kernel)
  rw [if_neg (by rw [hgetter]; decide), hgetter] at hloan
  rw [if_pos (by decide +kernel)] at hfresh
  refine ⟨by cbv, by decide +kernel, by decide +kernel, o, _, _, _, _, .snoc .nil h₁,
    synthesize_iff.mpr ⟨none, haim, rfl, rfl⟩, synthesize_iff.mpr ⟨none, haim, rfl, rfl⟩, ?_⟩
  show ((dialBuilder "protected").recordOf o aim).firstSentence = _ ∧
    ((dialBuilder "protected").recordOf o aim).donor = _ ∧
    ((dialBuilder "protected").recordOf {} aim).firstSentence = _ ∧
    ((dialBuilder "protected").recordOf {} aim).donor = _
  simp only [firstSentence_recordOf, donor_recordOf, hloan, hfresh]
  exact ⟨rfl, rfl, by decide +kernel, rfl⟩

end Builder

end TypePages
