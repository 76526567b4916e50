import TypePages.Proofs.WaitingRows

/-!
Sections that are written whole or not at all.

A section can be refused in many places: at the comment or the name of a member, at a supertype, at
the heading.  But the page is touched in one step, behind all of these, and with it the section ends.
So a call that is refused has not come to this step, which is `tree_of_refused`, and where a page is
refused the calls before the one that failed have each added a whole section.
-/

namespace TypePages

namespace Work

variable {α β : Type} {w : Work α} {f : α → Work β} {d d' : Draft} {fault : Fault}

/-- The step is refused from a draft and leaves another draft behind. -/
def Refused (w : Work α) (d : Draft) (fault : Fault) (d' : Draft) : Prop :=
  (w.run.run d).run = (.error fault, d')

theorem after_of_refused (h : w.Refused d fault d') : w.after d = d' := congrArg Prod.snd h

/-- A step that leaves no value leaves a draft without one. -/
theorem exists_refused (h : (w.run.run d).run.1.toOption.isSome = false) :
    ∃ fault d', w.Refused d fault d' := by
  unfold Refused
  rcases hrun : (w.run.run d).run with ⟨o, d'⟩
  rw [hrun] at h
  cases o with
  | error fault => exact ⟨fault, d', rfl⟩
  | ok a => cases h

theorem not_refused_pure {a : α} : ¬(pure a : Work α).Refused d fault d' := by
  intro h
  cases congrArg Prod.fst h

theorem not_refused_modify {g : Draft → Draft} :
    ¬(modify g : Work PUnit).Refused d fault d' := by
  intro h
  cases congrArg Prod.fst h

theorem refused_of_iff {x : Except Fault α} :
    (Work.of x).Refused d fault d' ↔ x = .error fault ∧ d' = d := by
  show (x, d) = (Except.error fault, d') ↔ x = .error fault ∧ d' = d
  rw [Prod.mk.injEq]
  exact and_congr Iff.rfl eq_comm

/-- A step is refused at its first part, or behind it. -/
theorem refused_bind_iff : (w >>= f).Refused d fault d' ↔
    w.Refused d fault d' ∨ ∃ a d₁, w.Returns d a d₁ ∧ (f a).Refused d₁ fault d' := by
  unfold Refused Returns
  rw [ExceptT.run_bind, StateT.run_bind]
  simp only [Id.run_bind]
  rcases (w.run.run d).run with ⟨o, d₁⟩
  cases o with
  | error e =>
      show (Except.error e, d₁) = (Except.error fault, d') ↔ _
      simp
  | ok a =>
      constructor
      · intro h
        exact .inr ⟨a, d₁, rfl, h⟩
      · rintro (h | ⟨a', d₂, heq, h⟩)
        · cases congrArg Prod.fst h
        · obtain ⟨rfl, rfl⟩ : a = a' ∧ d₁ = d₂ := by simpa using heq
          exact h

end Work

namespace Builder

open Work

variable {b : Builder} {k : Member.Kind} {e : Element} {d d' : Draft} {fault : Fault}

/-! ### A section that is refused -/

theorem keeps_tree_memberStep (b : Builder) (k : Member.Kind) (e : Element) (tree : List String) :
    Keeps (fun d => d.tree = tree) (b.memberStep k e) := by
  have hrecord : Keeps (fun d => d.tree = tree) (b.recordStep e) :=
    keeps_recordStep b e fun _ _ _ hd => hd
  refine hrecord.bind fun r _ => Keeps.bind ?_ fun _ _ => keeps_pure r
  exact keeps_get.bind fun d _ => (keeps_of _).bind fun row _ => keeps_modify fun _ hd => hd

/-- The own members of a kind leave the page alone, also when they are refused. -/
theorem keeps_tree_ownGroup (b : Builder) (k : Member.Kind) (tree : List String) :
    Keeps (fun d => d.tree = tree) (b.ownGroup k) := by
  unfold ownGroup
  dsimp only
  split
  · exact keeps_pure []
  · refine (keeps_mapM fun e _ => keeps_tree_memberStep b k e tree).bind fun records _ => ?_
    refine Keeps.bind ?_ fun text _ => keeps_pure _
    exact keeps_get.bind fun d _ => Keeps.bind (keeps_modify fun _ hd => hd) fun _ _ => keeps_pure _

theorem refused_otherGroups {inherited : Bool}
    (h : (b.otherGroups k inherited).Refused d fault d') : d' = d := by
  cases inherited with
  | false => exact absurd h not_refused_pure
  | true => exact (refused_of_iff.mp h).2

/-- The lines of a section are the last thing that happens to it. -/
theorem refused_addShown {shown : List Shown} (h : (b.addShown k shown).Refused d fault d') :
    d' = d := by
  unfold addShown at h
  split at h
  · exact absurd h not_refused_pure
  · rcases refused_bind_iff.mp h with h | ⟨heading, d₁, -, h⟩
    · exact (refused_of_iff.mp h).2
    · rcases refused_bind_iff.mp h with h | ⟨_, d₂, -, h⟩
      · exact absurd h not_refused_modify
      · exact absurd h not_refused_pure

/-- **A section that is refused has not touched the page.** -/
theorem tree_of_refused {inherited : Bool}
    (h : (b.addSection k inherited).Refused d fault d') : d'.tree = d.tree := by
  rw [addSection_eq] at h
  rcases refused_bind_iff.mp h with hown | ⟨own, d₁, hown, h₁⟩
  · exact after_of_refused hown ▸ keeps_tree_ownGroup b k d.tree d rfl
  · rw [← (of_returns_ownGroup hown).1]
    rcases refused_bind_iff.mp h₁ with hothers | ⟨others, d₂, hothers, h₂⟩
    · rw [refused_otherGroups hothers]
    · obtain ⟨rfl, -⟩ := of_returns_otherGroups hothers
      rw [refused_addShown h₂]

/-! ### A section that is written -/

/-- The text that shows a group to its end: a table with a row for each own member and no other, or
the block of a supertype. -/
inductive InFull (b : Builder) (o : Overlay) (k : Member.Kind) : RowGroup → String → Prop
  | own {g : RowGroup} {text : String} (isOwn : g.isInherited = false)
      (members_eq : g.members = b.members k) (records_eq : g.records.map (·.member) = g.members)
      (isTable : b.IsTable k (·.context o) [] g.records text) : InFull b o k g text
  | inherited {g : RowGroup} {text : String}
      (found : b.inheritedGroup? k g.origin = .ok (some (g, text))) : InFull b o k g text

/-- The lines of a kind whose section is whole: none if there is nothing to show, and otherwise its
heading and the text of each group. -/
def Whole (b : Builder) (o : Overlay) (k : Member.Kind) (lines : List String) : Prop :=
  ∃ own inherited, b.Shows k own inherited ∧
    (own ++ inherited = [] ∧ lines = [] ∨ own ++ inherited ≠ [] ∧ ∃ heading blocks,
      b.heading k = .ok heading ∧ List.Forall₂ (b.InFull o k) (own ++ inherited) blocks ∧
        lines = heading ++ blocks.flatMap (fun text => [text, ""]) ++ [""])

/-- Whether a section is whole depends on the donors of its members only. -/
theorem Whole.congr {o o' : Overlay} {lines : List String} (h : b.Whole o k lines)
    (hdonors : ∀ e ∈ b.members k, o'.donors e.uid = o.donors e.uid) : b.Whole o' k lines := by
  obtain ⟨own, inherited, hshows, hlines⟩ := h
  refine ⟨own, inherited, hshows, hlines.imp_right ?_⟩
  rintro ⟨hne, heading, blocks, hheading, hall, hlines⟩
  refine ⟨hne, heading, blocks, hheading, hall.imp fun g text hfull => ?_, hlines⟩
  cases hfull with
  | own isOwn members_eq records_eq isTable =>
      refine .own isOwn members_eq records_eq (isTable.congr fun r hr => ?_)
      exact Record.context_congr (hdonors r.member
        (members_eq ▸ records_eq ▸ List.mem_map_of_mem hr))
  | inherited found => exact .inherited found

variable {rules : Table.Rules} {m : Model}

theorem inFull_of_ownGroup (hr : Table.Reads rules m b.owner b.table) {shown : List Shown}
    (hrows : d.rows k = []) (h : (b.ownGroup k).Returns d shown d') :
    ∀ s ∈ shown, b.InFull d'.overlay k s.1 s.2 := by
  intro s hs
  obtain ⟨-, hnot, hmembers, hrecords, htable⟩ := isTable_of_ownGroup hr h s hs
  exact .own hnot hmembers hrecords (hrows ▸ htable)

theorem drained_of_returns {inherited : Bool} {groups : List RowGroup} (hd : b.Drained d)
    (h : (b.addSection k inherited).Returns d groups d') : b.Drained d' :=
  after_of_returns h ▸ keeps_drained k inherited d hd

/-- A section that returns is whole. -/
theorem whole_of_addSection (hr : Table.Reads rules m b.owner b.table) (hk : k ∈ b.kinds)
    (hd : b.Drained d) {groups : List RowGroup}
    (h : (b.addSection k (b.showsInherited k)).Returns d groups d') :
    ∃ lines, b.Whole d'.overlay k lines ∧ d'.tree = d.tree ++ lines := by
  obtain ⟨own, others, d₁, hown, hothers, h₂, hoverlay, -⟩ := own_of_addSection h
  rw [hoverlay]
  have hfull : ∀ s ∈ own ++ others, b.InFull d₁.overlay k s.1 s.2 := by
    intro s hs
    rcases List.mem_append.mp hs with hs | hs
    · exact inFull_of_ownGroup hr (hd k (total_ownGroup_of_returns hown)) hown s hs
    · exact .inherited (inheritedGroup?_of_mem_otherGroups hothers hs)
  obtain ⟨htree, hfoundOwn⟩ := of_returns_ownGroup hown
  obtain ⟨-, hfoundOthers⟩ := of_returns_otherGroups hothers
  have hshows := Found.shows ⟨hfoundOwn, hfoundOthers⟩ hr hk
  have happend : own.map (·.1) ++ others.map (·.1) = (own ++ others).map (·.1) :=
    List.map_append.symm
  obtain ⟨-, ⟨hnil, rfl⟩ | ⟨hne, heading, hheading, rfl⟩⟩ := returns_addShown_iff.mp h₂
  · refine ⟨[], ⟨_, _, hshows, .inl ⟨?_, rfl⟩⟩, htree ▸ (List.append_nil _).symm⟩
    rw [happend, hnil, List.map_nil]
  · refine ⟨_, ⟨_, _, hshows, .inr ⟨?_, heading, (own ++ others).map (·.2), hheading, ?_, rfl⟩⟩, ?_⟩
    · rw [happend]
      exact mt List.map_eq_nil_iff.mp hne
    · rw [happend, List.forall₂_map_left_iff, List.forall₂_map_right_iff, List.forall₂_same]
      exact hfull
    · rw [List.flatMap_map, htree]

/-! ### A page that is refused -/

/-- Where the sections of a page are refused, one kind is, behind whole sections. -/
theorem whole_before_refused (hr : Table.Reads rules m b.owner b.table) {ks : List Member.Kind}
    (hks : ∀ k ∈ ks, k ∈ b.kinds) (hnodup : ks.Nodup) (hd : b.Drained d)
    (h : ((ks.filter b.hasWriter).mapM fun k => b.addSection k (b.showsInherited k)).Refused
      d fault d') :
    ∃ before k rest found sections d₁, ks = before ++ k :: rest ∧ b.hasWriter k = true ∧
      b.EachSection before d found d₁ ∧
      (b.addSection k (b.showsInherited k)).Refused d₁ fault d' ∧
      List.Forall₂ (b.Whole d₁.overlay) before sections ∧
      d₁.tree = d.tree ++ sections.flatten := by
  induction ks generalizing d with
  | nil => exact absurd h not_refused_pure
  | cons k ks ih =>
      have hrest : ∀ k' ∈ ks, k' ∈ b.kinds := fun k' hk' => hks k' (List.mem_cons_of_mem k hk')
      have hnodup' := (List.nodup_cons.mp hnodup).2
      cases hw : b.hasWriter k with
      | false =>
          -- A kind of which the type shows nothing is passed over, and its section is empty.
          have hskip : ∀ ks' : List Member.Kind, (k :: ks').filter b.hasWriter =
              ks'.filter b.hasWriter := fun ks' => List.filter_cons_of_neg (by simp [hw])
          have hwhole : ∀ o, b.Whole o k [] := fun o =>
            ⟨[], [], shows_nil (allVisible_of_hasWriter hw), .inl ⟨rfl, rfl⟩⟩
          rw [hskip] at h
          obtain ⟨before, k', rest, found, sections, d₁, rfl, hk', heach, hrefused, hall, htree⟩ :=
            ih hrest hnodup' hd h
          refine ⟨k :: before, k', rest, found, [] :: sections, d₁, rfl, hk', ?_, hrefused,
            .cons (hwhole _) hall, htree⟩
          rw [EachSection, hskip]
          exact heach
      | true =>
          have htake : ∀ ks' : List Member.Kind, (k :: ks').filter b.hasWriter =
              k :: ks'.filter b.hasWriter := fun ks' => List.filter_cons_of_pos hw
          rw [htake, List.mapM_cons] at h
          rcases refused_bind_iff.mp h with h | ⟨groups, d₁, hreturns, h⟩
          · exact ⟨[], k, ks, [], [], d, rfl, hw, .nil d, h, .nil, (List.append_nil _).symm⟩
          · -- No rows wait behind a section that returned, so the rest starts as this one did.
            rcases refused_bind_iff.mp h with h | ⟨found, d₂, -, h⟩
            · obtain ⟨before, k', rest, found, sections, d₂, rfl, hk', heach, hrefused, hall,
                htree⟩ := ih hrest hnodup' (drained_of_returns hd hreturns) h
              obtain ⟨lines, hwhole, htree₁⟩ :=
                whole_of_addSection hr (hks k List.mem_cons_self) hd hreturns
              -- The sections in between are of other kinds, so this one is whole at the end, too.
              have hapart : (k :: before.filter b.hasWriter).Nodup := hnodup.sublist
                ((List.filter_sublist.trans (List.sublist_append_left before _)).cons_cons k)
              have hwhole := hwhole.congr (donors_of_each_members hr hapart heach)
              refine ⟨k :: before, k', rest, groups :: found, lines :: sections, d₂, rfl, hk', ?_,
                hrefused, .cons hwhole hall, ?_⟩
              · rw [EachSection, htake]
                exact .cons hreturns heach
              · rw [htree, htree₁, List.flatten_cons, List.append_assoc]
            · exact absurd h not_refused_pure

variable {targets : Targets} {messages : Value} {owner : Element}

/-- **Sections are written whole or not at all.**  A section that is refused leaves the page as it
was, of whatever kind it is and whatever was written before.  A page that is refused, also behind
earlier calls on its builder, has added the whole sections of the kinds in front of the one that
failed, and nothing else. -/
theorem whole_or_untouched (hb : ofType m targets messages rules owner = .ok b) :
    (∀ k inherited d fault d', (b.addSection k inherited).Refused d fault d' →
        d'.tree = d.tree) ∧
      ∀ d tree fault d', b.Called d → b.build.Refused { d with tree } fault d' →
        ∃ before k rest found sections d₁, b.kinds = before ++ k :: rest ∧ b.hasWriter k = true ∧
          b.EachSection before { d with tree } found d₁ ∧
          (b.addSection k (b.showsInherited k)).Refused d₁ fault d' ∧
          List.Forall₂ (b.Whole d₁.overlay) before sections ∧
          d'.tree = tree ++ sections.flatten := by
  refine ⟨fun k inherited d fault d' h => tree_of_refused h, fun d tree fault d' hd h => ?_⟩
  have hsections : ((b.kinds.filter b.hasWriter).mapM fun k =>
      b.addSection k (b.showsInherited k)).Refused { d with tree } fault d' := by
    rcases refused_bind_iff.mp h with h | ⟨found, d₁, -, h⟩
    · exact h
    · exact absurd h not_refused_pure
  have hdrained : b.Drained { d with tree } := hd.drained
  obtain ⟨before, k, rest, found, sections, d₁, hkinds, hk, heach, hrefused, hall, htree⟩ :=
    whole_before_refused (reads_of_ofType hb) (fun _ hk => hk) b.nodup_kinds hdrained hsections
  exact ⟨before, k, rest, found, sections, d₁, hkinds, hk, heach, hrefused, hall,
    (tree_of_refused hrefused).trans htree⟩

/-! Without the message for inherited methods, a point has its section of fields and no other. -/

/-- The builder of points without the message for inherited methods. -/
def muteBuilder : Builder :=
  { pointBuilder with
    messages := Config.named [("fields_summary", .text "Fields"),
      ("methods_summary", .text "Methods")] }

/-- The section of the fields of a point. -/
def fieldLines : List String :=
  ["## Fields", "", "| Modifier and Type | Field | Description |\n|---|---|---|\n|  | [x](#x) |  |",
    "", ""]

theorem whole_or_untouched_point :
    ofType points [] muteBuilder.messages ⟨.standard, true⟩ point = .ok muteBuilder ∧
      (∃ fault d', (muteBuilder.addSection .methods true).Refused { tree := ["# Point"] } fault d' ∧
        d'.tree = ["# Point"]) ∧
      ∃ fault d', muteBuilder.Called {} ∧
        muteBuilder.build.Refused { tree := ["# Point"] } fault d' ∧
        d'.tree = "# Point" :: fieldLines ∧
        ∃ before k rest found sections d₁, muteBuilder.kinds = before ++ k :: rest ∧
          muteBuilder.EachSection before { tree := ["# Point"] } found d₁ ∧
          List.Forall₂ (muteBuilder.Whole d₁.overlay) before sections ∧
          sections.flatten = fieldLines := by
  have hb : ofType points [] muteBuilder.messages ⟨.standard, true⟩ point = .ok muteBuilder := by
    cbv
  obtain ⟨fault, d', hrefused⟩ : ∃ fault d',
      (muteBuilder.addSection .methods true).Refused { tree := ["# Point"] } fault d' :=
    exists_refused (by decide +kernel)
  obtain ⟨fault', d'', hbuild⟩ : ∃ fault d',
      muteBuilder.build.Refused { tree := ["# Point"] } fault d' :=
    exists_refused (by decide +kernel)
  have htree : (muteBuilder.build.after { tree := ["# Point"] }).tree = "# Point" :: fieldLines := by
    decide +kernel
  have hcalled : muteBuilder.Called {} := .start rfl
  obtain ⟨huntouched, hwhole⟩ := whole_or_untouched hb
  obtain ⟨before, k, rest, found, sections, d₁, hkinds, -, heach, -, hall, htree'⟩ :=
    hwhole {} ["# Point"] fault' d'' hcalled hbuild
  rw [after_of_refused hbuild] at htree
  have happend : ["# Point"] ++ sections.flatten = ["# Point"] ++ fieldLines :=
    htree'.symm.trans htree
  exact ⟨hb, ⟨fault, d', hrefused, huntouched .methods true _ fault d' hrefused⟩, fault', d'',
    hcalled, hbuild, htree, before, k, rest, found, sections, d₁, hkinds, heach, hall,
    List.append_cancel_left happend⟩

end Builder

end TypePages
