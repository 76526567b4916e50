import TypePages.Proofs.Links
import TypePages.Proofs.Rebuild
import TypePages.Proofs.Sentences

/-!
What the first page of a type leaves written of each record.

A page synthesises every member once.  So what a synthesis has written over its member stands there
until the page is complete, and so does the donor that it has noted: `Builder.Holds` says this of
the overlay and of the records that were made so far, and it passes from one row to the next and
from one section to the next.  The rows themselves are made from the records, too, and so every
table of the page shows what the overlay holds in the end.
-/

namespace TypePages

namespace DonorSearch

variable {m : Model} {o : Overlay} {e d : Element}

/-- A donor is a method of the model. -/
theorem mem_elements_of_donor (h : m.donor? o e = some d) : d ∈ m.elements := by
  have hasked : d ∈ (through m o (m.uids.erase e.uid) (m.overridden e)).asked :=
    List.mem_append_right _ (Option.mem_toList.mpr h)
  exact mem_elements_of_asked (fun _ => mem_elements_of_overridden) hasked

end DonorSearch

namespace Table

variable {rules : Rules} {m : Model} {owner : Element} {t : Table}

/-- What a member is documented from is a member of its type. -/
theorem source_mem_membersOf (ht : read rules m owner = .ok t) {uid : String} {source : Element}
    (h : (Sources.ofTable t).find? uid = some source) : source ∈ m.membersOf owner := by
  obtain ⟨p, e, hbelongs, hsource, -⟩ := (mem_entries_iff ht).mp (mem_entries_of_find? h)
  exact hsource.mem_membersOf ht hbelongs.visible

end Table

namespace Builder

open Work

variable {b : Builder} {m : Model} {targets : Targets} {messages : Value} {rules : Table.Rules}
  {owner e : Element} {o o' : Overlay} {r : Record} {records : List Record} {k : Member.Kind}
  {d d' : Draft}

/-! ### What is written over a member -/

/-- What is written over a member of a loaded model does not start with a blank. -/
theorem flush_commentFor (hb : ofType m targets messages rules owner = .ok b) (hm : m.Loaded)
    {w : Comment} (h : b.commentFor e = .ok (some w)) : Chars.Flush w.body.toList := by
  obtain ⟨-, -, -, ht, hsources⟩ := of_ofType hb
  obtain ⟨s, hs⟩ := Option.isSome_iff_exists.mp (isSome_commentFor h).symm
  obtain ⟨w', hw, heq⟩ := (commentFor_of_source hs).mp h
  obtain rfl := Option.some.inj heq
  have hsource : s ∈ m.elements :=
    (Model.mem_membersOf_iff.mp (Table.source_mem_membersOf ht (hsources ▸ hs))).1
  have hsentence : ∀ key, b.accessorComment key e (s.comment.getD .empty) = .ok w →
      Chars.Flush w.body.toList := by
    intro key hkey
    obtain ⟨name, -, h₁⟩ := Refusal.bind_eq_ok.mp hkey
    obtain ⟨sentence, -, h₂⟩ := Refusal.bind_eq_ok.mp h₁
    rw [← Refusal.pure_eq_ok.mp h₂, Text.collapse, String.toList_ofList]
    exact Chars.flush_collapse _
  obtain ⟨role, -, h₁⟩ := Refusal.bind_eq_ok.mp hw
  cases role with
  | getter => exact hsentence _ h₁
  | setter => exact hsentence _ h₁
  | property =>
      obtain ⟨tags, -, h₂⟩ := Refusal.bind_eq_ok.mp h₁
      rw [← Refusal.pure_eq_ok.mp h₂]
      exact (hm s hsource).flush

/-! ### Records of a first page -/

/-- A record of a member of its type that is made from what the documents say. -/
structure Sound (b : Builder) (r : Record) : Prop where
  member : r.member ∈ b.model.membersOf b.owner
  own : r.donor = none → r.firstSentence = Comment.firstSentence r.body
  /-- A member borrows from an element of the model, and only where it has no body. -/
  lent : ∀ donor, r.donor = some donor → donor ∈ b.model.elements ∧ r.body = "" ∧
    (donor.parent ≠ some b.owner.uid → r.firstSentence = Overlay.firstSentence {} donor)

/-- What an overlay holds of the records that were made on the way from nothing written. -/
structure Holds (b : Builder) (records : List Record) (o : Overlay) : Prop where
  sound : ∀ r ∈ records, b.Sound r
  comment : ∀ r ∈ records, (o.comment? r.member).getD .empty = ⟨r.body, r.tags⟩
  donor : ∀ r ∈ records, o.donor? r.member = r.donor
  /-- Nothing else is written. -/
  other : ∀ uid, (∀ r ∈ records, r.member.uid ≠ uid) → o.installed uid = none ∧ o.donors uid = none

theorem holds_nil : b.Holds [] {} where
  sound := by simp
  comment := by simp
  donor := by simp
  other _ _ := ⟨rfl, rfl⟩

/-- What is declared elsewhere is not written over. -/
theorem Holds.installed_eq_none (h : b.Holds records o) (he : e ∈ b.model.elements)
    (hparent : e.parent ≠ some b.owner.uid) : o.installed e.uid = none := by
  refine (h.other e.uid fun r hr huid => hparent ?_).1
  obtain ⟨hmem, hmember⟩ := Model.mem_membersOf_iff.mp (h.sound r hr).member
  exact Catalog.eq_of_uid_eq hmem he huid ▸ hmember

/-! ### Records that are added -/

section

variable (hb : ofType m targets messages rules owner = .ok b) (hm : m.Loaded)

include hb hm

/-- What a synthesis finds written over its member does not start with a blank. -/
theorem flush_body_of_write (h : b.Holds records o) (he : e ∈ m.membersOf owner)
    (hnew : ∀ r ∈ records, r.member.uid ≠ e.uid) {c : Option Comment}
    (hc : b.commentFor e = .ok c) : Chars.Flush ((o.write e c).body e).toList := by
  cases c with
  | some w =>
      rw [Overlay.write, body_install]
      exact flush_commentFor hb hm hc
  | none =>
      rw [Overlay.write, Overlay.body, Overlay.comment?_of_installed_eq_none (h.other e.uid hnew).1]
      have hflush := (hm e (Model.mem_membersOf_iff.mp he).1).flush
      cases hcomment : e.comment with
      | none => exact Chars.flush_nil
      | some c =>
          rw [hcomment] at hflush
          exact hflush

/-- The record of a member that is new to the records is sound. -/
theorem sound_of_synthesize (h : b.Holds records o) (he : e ∈ m.membersOf owner)
    (hnew : ∀ r ∈ records, r.member.uid ≠ e.uid) (hstep : b.synthesize o e = .ok (r, o')) :
    b.Sound r := by
  have hmember : e ∈ b.model.membersOf b.owner := by rwa [(of_ofType hb).1, owner_of_ofType hb]
  obtain ⟨c, hc, rfl, -⟩ := synthesize_iff.mp hstep
  have hfirst : ∀ found, b.donorOf (o.write e c) e = found →
      (b.recordOf (o.write e c) e).firstSentence =
        found.elim ((o.write e c).firstSentence e) (o.write e c).firstSentence := by
    rintro _ rfl
    rw [firstSentence_recordOf, loan]
    cases b.donorOf (o.write e c) e <;> rfl
  refine ⟨hmember, fun hnone => ?_, fun donor hdonor => ?_⟩
  · rw [body_recordOf]
    exact hfirst none hnone
  · have hlent := hfirst (some donor) hdonor
    have hdonor : b.donorOf (o.write e c) e = some donor := hdonor
    unfold donorOf at hdonor
    split at hdonor
    next hborrows =>
      rw [borrows, Bool.and_eq_true, beq_iff_eq] at hborrows
      have hmem := DonorSearch.mem_elements_of_donor hdonor
      refine ⟨hmem, ?_, fun hparent => ?_⟩
      · rw [body_recordOf]
        exact Comment.eq_empty_of_firstSentence (flush_body_of_write hb hm h he hnew hc) hborrows.2
      · have hne : donor.uid ≠ e.uid := by
          intro huid
          obtain ⟨hemem, heparent⟩ := Model.mem_membersOf_iff.mp hmember
          exact hparent (Catalog.eq_of_uid_eq hmem hemem huid ▸ heparent)
        rw [hlent, Option.elim_some, Overlay.firstSentence_write_of_ne c hne]
        exact firstSentence_of_installed_eq_none (h.installed_eq_none hmem hparent)
    · cases hdonor

/-- A synthesis of a member that is new to the records adds its record, and its record alone. -/
theorem Holds.snoc (h : b.Holds records o) (he : e ∈ m.membersOf owner)
    (hnew : ∀ r ∈ records, r.member.uid ≠ e.uid) (hstep : b.synthesize o e = .ok (r, o')) :
    b.Holds (records ++ [r]) o' := by
  have hsound := sound_of_synthesize hb hm h he hnew hstep
  obtain ⟨c, -, rfl, rfl⟩ := synthesize_iff.mp hstep
  constructor
  · intro x hx
    rcases List.mem_append.mp hx with hx | hx
    · exact h.sound x hx
    · rw [List.mem_singleton.mp hx]
      exact hsound
  · intro x hx
    rcases List.mem_append.mp hx with hx | hx
    · rw [Overlay.comment?, Overlay.installed_lend, Overlay.installed_write_of_ne (hnew x hx)]
      exact h.comment x hx
    · rw [List.mem_singleton.mp hx, Overlay.comment?, Overlay.installed_lend]
      rfl
  · intro x hx
    rcases List.mem_append.mp hx with hx | hx
    · rw [Overlay.donor?, Overlay.donors_lend_of_ne (hnew x hx), Overlay.donors_write]
      exact h.donor x hx
    · rw [List.mem_singleton.mp hx, Overlay.donor?]
      show ((o.write e c).lend e _).donors e.uid = _
      rw [Overlay.donors_lend_self, Overlay.donors_write, (h.other e.uid hnew).2, Option.or_none]
  · intro uid huid
    have hold := h.other uid fun x hx => huid x (List.mem_append_left _ hx)
    have hne : uid ≠ e.uid := (huid (b.recordOf (o.write e c) e) (by simp)).symm
    rw [Overlay.installed_lend, Overlay.installed_write_of_ne hne, Overlay.donors_lend_of_ne hne,
      Overlay.donors_write]
    exact hold

/-- The steps for members that are new to the records add a record for each of them. -/
theorem holds_of_memberSteps {es : List Element} {added : List Record}
    (hsteps : Each (b.memberStep k) es d added d') (h : b.Holds records d.overlay)
    (hes : ∀ e ∈ es, e ∈ m.membersOf owner) (hnodup : (es.map (·.uid)).Nodup)
    (hnew : ∀ r ∈ records, ∀ e ∈ es, r.member.uid ≠ e.uid) :
    b.Holds (records ++ added) d'.overlay := by
  induction hsteps generalizing records with
  | nil => exact (List.append_nil records).symm ▸ h
  | @cons e es r added d d₁ d' head _ ih =>
      rw [List.map_cons, List.nodup_cons] at hnodup
      have hmember := member_of_memberStep head
      obtain ⟨o, row, hstep, -, rfl⟩ := returns_memberStep_iff.mp head
      have h₁ := h.snoc hb hm (hes e List.mem_cons_self)
        (fun x hx => hnew x hx e List.mem_cons_self) hstep
      have hlater : ∀ x ∈ records ++ [r], ∀ y ∈ es, x.member.uid ≠ y.uid := by
        intro x hx y hy
        rcases List.mem_append.mp hx with hx | hx
        · exact hnew x hx y (List.mem_cons_of_mem _ hy)
        · rw [List.mem_singleton.mp hx, hmember]
          exact fun huid => hnodup.1 (huid ▸ List.mem_map_of_mem hy)
      rw [List.append_cons records r added]
      exact ih h₁ (fun x hx => hes x (List.mem_cons_of_mem _ hx)) hnodup.2 hlater

/-! ### Sections -/

/-- The own members of a kind have a group, unless there are none, with a record for each. -/
theorem holds_of_ownGroup {shown : List Shown} (hgroup : (b.ownGroup k).Returns d shown d')
    (h : b.Holds records d.overlay) (hmem : ∀ e ∈ b.members k, e ∈ m.membersOf owner)
    (hnew : ∀ r ∈ records, ∀ e ∈ b.members k, r.member.uid ≠ e.uid) :
    ∃ added, b.Holds (records ++ added) d'.overlay ∧ added.map (·.member) = b.members k ∧
      (b.members k = [] ∧ shown = [] ∨ b.members k ≠ [] ∧
        ∃ text, shown = [(⟨k, b.owner, b.owner, b.members k, added, false⟩, text)]) := by
  have hnodup : ((b.members k).map (·.uid)).Nodup := by
    simpa using nodup_members (reads_of_ofType hb) (List.nodup_singleton k)
  rcases returns_ownGroup_iff.mp hgroup with
    ⟨hempty, rfl, rfl⟩ | ⟨hne, added, d₁, hsteps, rfl, rfl⟩
  · exact ⟨[], (List.append_nil records).symm ▸ h, hempty.symm, .inl ⟨hempty, rfl⟩⟩
  · have hholds := holds_of_memberSteps hb hm hsteps h hmem hnodup hnew
    exact ⟨added, hholds, (rows_of_memberSteps hsteps hnodup).1, .inr ⟨hne, _, rfl⟩⟩

end

/-- The records of the own ones among some groups. -/
def ownRecords (groups : List RowGroup) : List Record :=
  (groups.filter fun g => !g.isInherited).flatMap (·.records)

theorem ownRecords_append (groups groups' : List RowGroup) :
    ownRecords (groups ++ groups') = ownRecords groups ++ ownRecords groups' := by
  rw [ownRecords, List.filter_append, List.flatMap_append]
  rfl

theorem mem_ownRecords_iff {groups : List RowGroup} :
    r ∈ ownRecords groups ↔ ∃ g ∈ groups, g.isInherited = false ∧ r ∈ g.records := by
  rw [ownRecords, List.mem_flatMap]
  simp only [List.mem_filter, Bool.not_eq_true', and_assoc]

/-- The element in whose type a record is read: the donor of its text, or else its member. -/
def teller (r : Record) : Element := r.donor.getD r.member

/-- What the sections of some kinds add to a page that had no rows waiting. -/
structure Adds (b : Builder) (ks : List Member.Kind) (groups : List RowGroup)
    (lines : List String) : Prop where
  /-- There is a record for each member, in the order of the kinds. -/
  members : (ownRecords groups).map (·.member) = ks.flatMap b.members
  /-- Among the lines stands a table for each own group. -/
  tabled : ∀ g ∈ groups, g.isInherited = false → b.Tabled teller [] lines g
  /-- Each kind with members has an own group. -/
  complete : ∀ k ∈ ks, b.members k ≠ [] →
    ∃ g ∈ groups, g.isInherited = false ∧ g.kind = k ∧ g.members = b.members k

theorem adds_nil : b.Adds [] [] [] where
  members := rfl
  tabled := by simp
  complete := by simp

theorem Adds.append {ks ks' : List Member.Kind} {groups groups' : List RowGroup}
    {lines lines' : List String} (h : b.Adds ks groups lines) (h' : b.Adds ks' groups' lines') :
    b.Adds (ks ++ ks') (groups ++ groups') (lines ++ lines') := by
  constructor
  · rw [ownRecords_append, List.map_append, List.flatMap_append, h.members, h'.members]
  · intro g hg hnot
    rcases List.mem_append.mp hg with hg | hg
    · exact (h.tabled g hg hnot).mono (List.subset_append_left _ _)
    · exact (h'.tabled g hg hnot).mono (List.subset_append_right _ _)
  · intro k hk hne
    rcases List.mem_append.mp hk with hk | hk
    · obtain ⟨g, hg, hown⟩ := h.complete k hk hne
      exact ⟨g, List.mem_append_left _ hg, hown⟩
    · obtain ⟨g, hg, hown⟩ := h'.complete k hk hne
      exact ⟨g, List.mem_append_right _ hg, hown⟩

/-- Nothing among the groups of supertypes is an own group. -/
theorem ownRecords_others {inherited : Bool} {others : List Shown}
    (hothers : (b.otherGroups k inherited).Returns d others d') :
    ownRecords (others.map (·.1)) = [] := by
  rw [ownRecords, List.filter_eq_nil_iff.mpr, List.flatMap_nil]
  intro g hg
  simp [isInherited_of_otherGroups hothers g hg]

section

variable (hb : ofType m targets messages rules owner = .ok b) (hm : m.Loaded)

include hb hm

theorem adds_of_addSection {inherited : Bool} {groups : List RowGroup}
    (hsection : (b.addSection k inherited).Returns d groups d')
    (h : b.Holds records d.overlay) (hrows : d.rows k = [])
    (hmem : ∀ e ∈ b.members k, e ∈ m.membersOf owner)
    (hnew : ∀ r ∈ records, ∀ e ∈ b.members k, r.member.uid ≠ e.uid) :
    ∃ lines, d'.tree = d.tree ++ lines ∧ b.Holds (records ++ ownRecords groups) d'.overlay ∧
      b.Adds [k] groups lines := by
  obtain ⟨lines, htree, htabled⟩ := tabled_of_addSection (reads_of_ofType hb) hsection
  obtain ⟨own, others, d₁, hown, hothers, hadd, hoverlay, -⟩ := own_of_addSection hsection
  obtain ⟨added, hholds, hmembers, hshown⟩ := holds_of_ownGroup hb hm hown h hmem hnew
  obtain ⟨rfl, -⟩ := returns_addShown_iff.mp hadd
  have hadded : ownRecords ((own ++ others).map (·.1)) = added := by
    rw [List.map_append, ownRecords_append, ownRecords_others hothers, List.append_nil]
    rcases hshown with ⟨hempty, rfl⟩ | ⟨-, text, rfl⟩
    · rw [hempty, List.map_eq_nil_iff] at hmembers
      rw [hmembers]
      rfl
    · simp [ownRecords]
  rw [hadded]
  refine ⟨lines, htree, hoverlay ▸ hholds, ?_, fun g hg hnot => ?_, fun k' hk' hne => ?_⟩
  · rw [hadded, hmembers, List.flatMap_singleton]
  · obtain ⟨hkind, -, htable⟩ := htabled g hg hnot
    rw [hrows] at htable
    refine htable.congr fun r hr => ?_
    have hr' : r ∈ added := hadded ▸ mem_ownRecords_iff.mpr ⟨g, hg, hnot, hr⟩
    rw [Record.context, hoverlay, hholds.donor r (List.mem_append_right _ hr')]
    rfl
  · rw [List.mem_singleton.mp hk'] at hne ⊢
    rcases hshown with ⟨hempty, -⟩ | ⟨-, text, rfl⟩
    · exact absurd hempty hne
    · exact ⟨_, List.mem_cons_self, rfl, rfl, rfl⟩

/-- Sections one after the other add what each of them adds. -/
theorem adds_of_each {show? : Member.Kind → Bool} {ks : List Member.Kind}
    {found : List (List RowGroup)} (hnodup : ks.Nodup)
    (hsections : Each (fun k => b.addSection k (show? k)) ks d found d')
    (h : b.Holds records d.overlay) (hrows : d.rows = fun _ => [])
    (hmem : ∀ e ∈ ks.flatMap b.members, e ∈ m.membersOf owner)
    (hnew : ∀ r ∈ records, ∀ e ∈ ks.flatMap b.members, r.member.uid ≠ e.uid) :
    ∃ lines, d'.tree = d.tree ++ lines ∧ b.Holds (records ++ ownRecords found.flatten) d'.overlay ∧
      b.Adds ks found.flatten lines := by
  induction hsections generalizing records with
  | nil => exact ⟨[], (List.append_nil _).symm, by simpa [ownRecords] using h, adds_nil⟩
  | @cons k ks groups found d d₁ d' head _ ih =>
      have hapart := nodup_members (reads_of_ofType hb) hnodup
      rw [List.flatMap_cons, List.map_append, List.nodup_append] at hapart
      rw [List.flatMap_cons, List.forall_mem_append] at hmem
      rw [List.nodup_cons] at hnodup
      obtain ⟨lines, htree, hholds, hadds⟩ := adds_of_addSection hb hm head h (congrFun hrows k)
        hmem.1 fun r hr e he => hnew r hr e (List.mem_append_left _ he)
      have hlater : ∀ r ∈ records ++ ownRecords groups, ∀ e ∈ ks.flatMap b.members,
          r.member.uid ≠ e.uid := by
        intro r hr e he
        rcases List.mem_append.mp hr with hr | hr
        · exact hnew r hr e (List.mem_append_right _ he)
        · have hmember := List.mem_map_of_mem (f := (·.member)) hr
          rw [hadds.members, List.flatMap_singleton] at hmember
          exact hapart.2.2 _ (List.mem_map_of_mem hmember) _ (List.mem_map_of_mem he)
      obtain ⟨lines', htree', hholds', hadds'⟩ :=
        ih hnodup.2 hholds (rows_of_addSection head hrows) hmem.2 hlater
      refine ⟨lines ++ lines', by rw [htree', htree, List.append_assoc], ?_, hadds.append hadds'⟩
      rwa [List.flatten_cons, ownRecords_append, ← List.append_assoc]

end

/-! ### A first page -/

/-- A kind without a writer has no members. -/
theorem members_of_hasWriter (hb : ofType m targets messages rules owner = .ok b)
    (hwriter : b.hasWriter k = false) : b.members k = [] := by
  have hnone := allVisible_of_hasWriter hwriter
  rw [Table.allVisible, List.append_eq_nil_iff] at hnone
  have hperm := members_perm (k := k) (reads_of_ofType hb)
  rw [hnone.1] at hperm
  exact hperm.eq_nil

theorem flatMap_members_hasWriter (hb : ofType m targets messages rules owner = .ok b)
    (ks : List Member.Kind) : (ks.filter b.hasWriter).flatMap b.members = ks.flatMap b.members := by
  induction ks with
  | nil => rfl
  | cons k ks ih =>
      cases hwriter : b.hasWriter k with
      | true => rw [List.filter_cons_of_pos hwriter, List.flatMap_cons, List.flatMap_cons, ih]
      | false =>
          rw [List.filter_cons_of_neg (by simp [hwriter]), ih, List.flatMap_cons,
            members_of_hasWriter hb hwriter, List.nil_append]

/-- The first page of a type leaves the records of its groups in the overlay. -/
theorem adds_of_build (hb : ofType m targets messages rules owner = .ok b) (hm : m.Loaded)
    {groups : List RowGroup} (h : b.build.Returns d groups d') (hoverlay : d.overlay = {})
    (hrows : d.rows = fun _ => []) :
    ∃ lines, d'.tree = d.tree ++ lines ∧ b.Holds (ownRecords groups) d'.overlay ∧
      b.Adds b.kinds groups lines := by
  obtain ⟨found, d₁, hmap, h₁⟩ := returns_bind_iff.mp h
  obtain ⟨rfl, rfl⟩ := returns_pure_iff.mp h₁
  have hmem : ∀ e ∈ (b.kinds.filter b.hasWriter).flatMap b.members, e ∈ m.membersOf owner := by
    intro e he
    obtain ⟨k, hk, he⟩ := List.mem_flatMap.mp he
    exact mem_membersOf_of_hasRow hb ⟨k, (List.mem_filter.mp hk).1, he⟩
  obtain ⟨lines, htree, hholds, hadds⟩ := adds_of_each hb hm (b.nodup_kinds.filter _)
    (returns_mapM_iff.mp hmap) (hoverlay ▸ holds_nil) hrows hmem (by simp)
  refine ⟨lines, htree, hholds, ?_, hadds.tabled, fun k hk hne => ?_⟩
  · rw [hadds.members, flatMap_members_hasWriter hb]
  · refine hadds.complete k (List.mem_filter.mpr ⟨hk, ?_⟩) hne
    by_contra hwriter
    exact hne (members_of_hasWriter hb (Bool.not_eq_true _ ▸ hwriter))

end Builder

end TypePages
