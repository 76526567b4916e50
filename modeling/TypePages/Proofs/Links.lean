import TypePages.Proofs.Nearest
import TypePages.Proofs.Rows

/-!
Where the links to inherited members arrive.

A page links an inherited member on the page of the supertype that declares it, and the two pages are
written apart.  They fit together for two reasons.  A supertype sorts and filters its own members by
the same rules by which a subtype looks at them, so what it hands down it shows itself.  And the
anchor of a member depends on the member alone, so both pages spell it the same.

Both pages are told by their texts.  On the one stands a table, which is read as a row for each own
member; on the other stand a heading and the links, with commas between them (`IsLinkText`).
-/

namespace TypePages

namespace Table

variable {rules : Rules} {m : Model} {owner a e : Element} {k : Member.Kind} {t ta : Table}

/-- What a supertype hands down to a type it shows itself. -/
theorem Reads.mem_visible_of_mem_inherited (h : Reads rules m owner t) (ha : Reads rules m a ta)
    (hmem : a ∈ t.family.tail) (he : e ∈ t.inherited k) (hparent : e.parent = some a.uid) :
    e ∈ ta.visible k := by
  obtain ⟨hdeclared, -, hdocuments⟩ := h.declared_of_parent he hmem hparent
  exact ha.mem_visible_iff.mpr ⟨hdeclared, hdocuments⟩

end Table

namespace Builder

open Work

variable {b : Builder} {k : Member.Kind} {d d' : Draft} {a e : Element} {t : Target} {g : RowGroup}
  {groups : List RowGroup}

/-! ### The lines of a page -/

/-- Each of the supertypes' groups is the one that its own type gives. -/
theorem inheritedGroup?_of_mem_otherGroups {inherited : Bool} {others : List Shown}
    (h : (b.otherGroups k inherited).Returns d others d') {s : Shown} (hs : s ∈ others) :
    b.inheritedGroup? k s.1.origin = .ok (some s) := by
  obtain ⟨-, ⟨-, rfl⟩ | ⟨-, hgroups⟩⟩ := of_returns_otherGroups h
  · exact absurd hs List.not_mem_nil
  · obtain ⟨a, -, ha⟩ := (Refusal.mem_iff_of_filterMapM_eq_ok hgroups).mp hs
    obtain ⟨-, -, attributed, heading, links, rfl, -⟩ := inheritedGroup?_eq_some ha
    exact ha

/-- The lines of some groups hold the text of each of them. -/
theorem texts_of_addShown {shown : List Shown} (h : (b.addShown k shown).Returns d groups d') :
    groups = shown.map (·.1) ∧ ∃ lines, d'.tree = d.tree ++ lines ∧ ∀ s ∈ shown, s.2 ∈ lines := by
  obtain ⟨rfl, ⟨rfl, rfl⟩ | ⟨-, heading, -, rfl⟩⟩ := returns_addShown_iff.mp h
  · exact ⟨rfl, [], (List.append_nil _).symm, by simp⟩
  · refine ⟨rfl, _, rfl, fun s hs => ?_⟩
    refine List.mem_append_left _ (List.mem_append_right _ (List.mem_flatMap.mpr ⟨s, hs, ?_⟩))
    exact List.mem_cons_self

/-- What each section says of its groups and lines, from drafts of a kind that it leads to again, a
page says of all its groups and lines. -/
theorem lines_of_build {I : Draft → Prop} {P : RowGroup → Prop} {Q : RowGroup → String → Prop}
    (hstep : ∀ {k d d' groups}, I d →
      (b.addSection k (b.showsInherited k)).Returns d groups d' →
      I d' ∧ ∃ lines, d'.tree = d.tree ++ lines ∧ ∀ g ∈ groups, P g → ∃ text ∈ lines, Q g text)
    (hd : I d) (h : b.build.Returns d groups d') :
    ∃ lines, d'.tree = d.tree ++ lines ∧ ∀ g ∈ groups, P g → ∃ text ∈ lines, Q g text := by
  obtain ⟨found, d₁, hmap, h₁⟩ := returns_bind_iff.mp h
  obtain ⟨rfl, rfl⟩ := returns_pure_iff.mp h₁
  have heach := returns_mapM_iff.mp hmap
  generalize b.kinds.filter b.hasWriter = ks at heach
  clear h hmap h₁
  induction heach with
  | nil => exact ⟨[], (List.append_nil _).symm, by simp⟩
  | cons head _ ih =>
      obtain ⟨hd₁, lines, htree, hall⟩ := hstep hd head
      obtain ⟨lines', htree', hall'⟩ := ih hd₁
      refine ⟨lines ++ lines', by rw [htree', htree, List.append_assoc], fun g hg hP => ?_⟩
      rw [List.flatten_cons] at hg
      rcases List.mem_append.mp hg with hg | hg
      · obtain ⟨text, hmem, htext⟩ := hall g hg hP
        exact ⟨text, List.mem_append_left _ hmem, htext⟩
      · obtain ⟨text, hmem, htext⟩ := hall' g hg hP
        exact ⟨text, List.mem_append_right _ hmem, htext⟩

/-! ### The tables of own members -/

variable {rules : Table.Rules} {m : Model}

/-- The groups of supertypes are inherited. -/
theorem isInherited_of_otherGroups {others : List Shown} {inherited : Bool}
    (h : (b.otherGroups k inherited).Returns d others d') :
    ∀ g ∈ others.map (·.1), g.isInherited = true := by
  obtain ⟨-, ⟨-, rfl⟩ | ⟨-, hfound⟩⟩ := of_returns_otherGroups h
  · simp
  · exact List.forall_mem_map.mpr fun s hs => (mem_inheritedGroups hfound hs).2.1

/-- A group that is not inherited is one of the own ones. -/
theorem exists_own_of_not_inherited {own others : List Shown} {inherited : Bool}
    (hothers : (b.otherGroups k inherited).Returns d others d')
    (hg : g ∈ (own ++ others).map (·.1)) (hnot : g.isInherited = false) : ∃ s ∈ own, s.1 = g := by
  rw [List.map_append] at hg
  rcases List.mem_append.mp hg with hg | hg
  · exact List.mem_map.mp hg
  · rw [isInherited_of_otherGroups hothers g hg] at hnot
    cases hnot

/-- Among some lines stands the table of an own group, behind rows that waited before. -/
structure Tabled (b : Builder) (context : Record → Element) (waiting : List Row)
    (lines : List String) (g : RowGroup) : Prop where
  members : g.records.map (·.member) = g.members
  table : ∃ text ∈ lines, b.IsTable g.kind context waiting g.records text

theorem Tabled.mono {context : Record → Element} {waiting : List Row} {lines lines' : List String}
    (h : b.Tabled context waiting lines g) (hsub : lines ⊆ lines') :
    b.Tabled context waiting lines' g := by
  obtain ⟨text, htext, htable⟩ := h.table
  exact ⟨h.members, text, hsub htext, htable⟩

theorem Tabled.congr {context context' : Record → Element} {waiting : List Row}
    {lines : List String} (h : b.Tabled context waiting lines g)
    (hcontext : ∀ r ∈ g.records, context' r = context r) : b.Tabled context' waiting lines g := by
  obtain ⟨text, htext, htable⟩ := h.table
  exact ⟨h.members, text, htext, htable.congr hcontext⟩

theorem tabled_of_addSection (hr : Table.Reads rules m b.owner b.table) {inherited : Bool}
    (h : (b.addSection k inherited).Returns d groups d') : ∃ lines, d'.tree = d.tree ++ lines ∧
      ∀ g ∈ groups, g.isInherited = false → g.kind = k ∧ g.members = b.members k ∧
        b.Tabled (·.context d'.overlay) (d.rows k) lines g := by
  obtain ⟨own, others, d₁, hown, hothers, hadd, hoverlay, -⟩ := own_of_addSection h
  obtain ⟨rfl, lines, htree, htexts⟩ := texts_of_addShown hadd
  rw [(of_returns_ownGroup hown).1] at htree
  refine ⟨lines, htree, fun g hg hnot => ?_⟩
  obtain ⟨s, hs, rfl⟩ := exists_own_of_not_inherited hothers hg hnot
  obtain ⟨hkind, -, hall, hmembers, htable⟩ := isTable_of_ownGroup hr hown s hs
  refine ⟨hkind, hall, hmembers, s.2, htexts s (List.mem_append_left _ hs), ?_⟩
  rw [hkind, hoverlay]
  exact htable

/-- The tables of a page are read in the end as they were when their sections were added. -/
theorem tabled_of_each (hr : Table.Reads rules m b.owner b.table) {show? : Member.Kind → Bool}
    {ks : List Member.Kind} {found : List (List RowGroup)} (hnodup : ks.Nodup)
    (h : Each (fun k => b.addSection k (show? k)) ks d found d') :
    ∃ lines, d'.tree = d.tree ++ lines ∧ ∀ g ∈ found.flatten, g.isInherited = false →
      g.kind ∈ ks ∧ b.Tabled (·.context d'.overlay) (d.rows g.kind) lines g := by
  induction h with
  | nil => exact ⟨[], (List.append_nil _).symm, by simp⟩
  | @cons k ks groups found d d₁ d' head tail ih =>
      have hdonors := donors_of_each_members hr hnodup tail
      rw [List.nodup_cons] at hnodup
      obtain ⟨lines, htree, hall⟩ := tabled_of_addSection hr head
      obtain ⟨lines', htree', hall'⟩ := ih hnodup.2
      refine ⟨lines ++ lines', by rw [htree', htree, List.append_assoc], fun g hg hnot => ?_⟩
      rw [List.flatten_cons] at hg
      rcases List.mem_append.mp hg with hg | hg
      · obtain ⟨rfl, hmembers, htabled⟩ := hall g hg hnot
        refine ⟨List.mem_cons_self, (htabled.congr fun r hrec => ?_).mono
          (List.subset_append_left _ _)⟩
        refine Record.context_congr (hdonors r.member ?_)
        rw [← hmembers, ← htabled.members]
        exact List.mem_map_of_mem hrec
      · obtain ⟨hmem, htabled⟩ := hall' g hg hnot
        have hne : g.kind ≠ k := fun heq => hnodup.1 (heq ▸ hmem)
        rw [(spares_of_addSection head).rows g.kind hne] at htabled
        exact ⟨List.mem_cons_of_mem k hmem, htabled.mono (List.subset_append_right _ _)⟩

/-- Every own group that a page returns stands on it as a table of its records. -/
theorem tabled_of_build (hr : Table.Reads rules m b.owner b.table)
    (h : b.build.Returns d groups d') : ∃ lines, d'.tree = d.tree ++ lines ∧
      ∀ g ∈ groups, g.isInherited = false →
        b.Tabled (·.context d'.overlay) (d.rows g.kind) lines g := by
  obtain ⟨found, d₁, hmap, h₁⟩ := returns_bind_iff.mp h
  obtain ⟨rfl, rfl⟩ := returns_pure_iff.mp h₁
  obtain ⟨lines, htree, hall⟩ :=
    tabled_of_each hr (b.nodup_kinds.filter _) (returns_mapM_iff.mp hmap)
  exact ⟨lines, htree, fun g hg hnot => (hall g hg hnot).2⟩

/-! ### The links to inherited members -/

/-- A text is the link to a member on the page of a type. -/
def IsLink (b : Builder) (k : Member.Kind) (t : Target) (e : Element) (text : String) : Prop :=
  ∃ title, b.IsTitle k e title ∧
    text = "[" ++ title ++ "](" ++ Text.before '#' t.page ++ "#" ++ Anchor.ofMember e ++ ")"

/-- A text shows inherited members below a heading that links their type, by a link to each of them
on the page of the type. -/
def IsLinkText (b : Builder) (g : RowGroup) (t : Target) (text : String) : Prop :=
  ∃ said links, b.message (g.kind.key ++ "_inherited_from")
      [if g.origin.kind.isInterfaceLike then "interface" else "class",
        "[" ++ g.origin.name ++ "](" ++ t.page ++ ")"] = .ok said ∧
    text = "### " ++ said ++ "\n\n" ++ ", ".intercalate links ∧
    List.Forall₂ (b.IsLink g.kind t) g.members links

theorem isLink_of_inheritedLink {type : Element} {isLast : Bool} {text : String}
    (ht : b.targets.find? type.uid = some t) (h : b.inheritedLink k type e isLast = .ok text) :
    ∃ shown, b.IsLink k t e shown ∧ text = if isLast then shown else shown ++ "," := by
  obtain ⟨title, htitle, h₁⟩ := Refusal.bind_eq_ok.mp h
  rw [ht, Refusal.pure_eq_ok] at h₁
  have hlink : link title (t.ofMember e).page =
      "[" ++ title ++ "](" ++ Text.before '#' t.page ++ "#" ++ Anchor.ofMember e ++ ")" := by
    simp only [link, Target.ofMember, String.append_assoc]
  exact ⟨_, ⟨title, isTitle_iff.mp htitle, hlink⟩, h₁.symm⟩

theorem links_of_inheritedLinks {type : Element} {es : List Element} {parts : List String}
    (ht : b.targets.find? type.uid = some t) (h : b.inheritedLinks k type es = .ok parts) :
    ∃ links, List.Forall₂ (b.IsLink k t) es links ∧ parts.length = es.length ∧
      Text.join " " parts = ", ".intercalate links := by
  induction es generalizing parts with
  | nil =>
      rw [inheritedLinks, Except.ok.injEq] at h
      exact h ▸ ⟨[], .nil, rfl, rfl⟩
  | cons e es ih =>
      obtain ⟨first, hfirst, h₁⟩ := Refusal.bind_eq_ok.mp h
      obtain ⟨rest, hrest, h₂⟩ := Refusal.bind_eq_ok.mp h₁
      obtain rfl := Refusal.pure_eq_ok.mp h₂
      obtain ⟨shown, hshown, rfl⟩ := isLink_of_inheritedLink ht hfirst
      obtain ⟨links, hlinks, hlength, hjoin⟩ := ih hrest
      refine ⟨shown :: links, .cons hshown hlinks, congrArg Nat.succ hlength, ?_⟩
      rw [Text.join_eq] at hjoin ⊢
      cases es with
      | nil =>
          -- The last link has no comma.
          obtain rfl := List.forall₂_nil_left_iff.mp hlinks
          obtain rfl := List.length_eq_zero_iff.mp hlength
          rw [String.intercalate_singleton, String.intercalate_singleton]
          rfl
      | cons e' es =>
          have hrestne : rest ≠ [] := List.ne_nil_of_length_eq_add_one hlength
          have hlinksne : links ≠ [] :=
            List.ne_nil_of_length_eq_add_one (hlinks.length_eq.symm.trans rfl)
          rw [String.intercalate_cons_of_ne_nil hrestne, String.intercalate_cons_of_ne_nil hlinksne,
            hjoin]
          have hcomma : ", " = "," ++ " " := rfl
          rw [hcomma, ← String.append_assoc]
          rfl

/-- A text that ends in a parenthesis ends in no blank. -/
theorem trimEnd_of_last {s : String} (h : s.toList.getLast? = some ')') : Text.trimEnd s = s := by
  have hself : Chars.trimEnd s.toList = s.toList := by
    refine List.rdropWhile_eq_self_iff.mpr fun hne => ?_
    rw [List.getLast?_eq_some_getLast hne, Option.some.injEq] at h
    rw [h]
    decide
  rw [Text.trimEnd, hself, String.ofList_toList]

theorem IsLink.getLast? {text : String} (h : b.IsLink k t e text) :
    text.toList.getLast? = some ')' := by
  obtain ⟨title, -, rfl⟩ := h
  rw [String.toList_append]
  exact List.getLast?_concat

/-- Links with commas between them end as the last of them does. -/
theorem getLast?_of_links {es : List Element} {links : List String} (hne : es ≠ [])
    (h : List.Forall₂ (b.IsLink k t) es links) (start : String) :
    (start ++ ", ".intercalate links).toList.getLast? = some ')' := by
  induction h generalizing start with
  | nil => exact absurd rfl hne
  | @cons e text es links head tail ih =>
      cases tail with
      | nil =>
          rw [String.intercalate_singleton, String.toList_append, List.getLast?_append,
            head.getLast?]
          rfl
      | cons head' tail =>
          rw [String.intercalate_cons_cons, ← String.append_assoc]
          exact ih (List.cons_ne_nil _ _) _

/-- The group of a supertype with a page is shown by links on this page. -/
theorem isLinkText_of_inheritedGroup? {text : String} (h : b.inheritedGroup? k a = .ok (some (g, text)))
    (hattributed : g.attributedTo = a) (ht : b.targets.find? a.uid = some t) :
    b.IsLinkText g t text := by
  obtain ⟨-, hne, attributed, heading, parts, heq, hheading, hparts⟩ := inheritedGroup?_eq_some h
  obtain ⟨rfl, rfl⟩ := Prod.mk.inj heq
  obtain rfl : attributed = a := hattributed
  obtain ⟨said, hsaid, h₁⟩ := Refusal.bind_eq_ok.mp hheading
  rw [ht] at hsaid
  obtain rfl := Refusal.pure_eq_ok.mp h₁
  obtain ⟨links, hlinks, -, hjoin⟩ := links_of_inheritedLinks ht hparts
  refine ⟨said, links, hsaid, ?_, hlinks⟩
  have hlast := getLast?_of_links hne hlinks ("### " ++ said ++ "\n\n")
  have hbreaks : "\n\n" = "\n" ++ "\n" := rfl
  rw [← trimEnd_of_last hlast, ← hjoin, block, Text.join_eq, hbreaks, List.cons_append,
    List.singleton_append, String.intercalate_cons_cons, String.intercalate_cons_cons,
    String.intercalate_singleton, String.empty_append]
  simp only [String.append_assoc]

/-- Every inherited group that a page returns stands on it as its supertype gives it. -/
theorem linked_of_build (h : b.build.Returns d groups d') :
    ∃ lines, d'.tree = d.tree ++ lines ∧ ∀ g ∈ groups, g.isInherited = true →
      ∃ text ∈ lines, ∃ k, b.inheritedGroup? k g.origin = .ok (some (g, text)) := by
  refine lines_of_build (I := fun _ => True) (fun {k d d' groups} _ hreturns => ?_) trivial h
  obtain ⟨own, others, d₁, hown, hothers, hadd, -⟩ := own_of_addSection hreturns
  obtain ⟨rfl, lines, htree, htexts⟩ := texts_of_addShown hadd
  rw [(of_returns_ownGroup hown).1] at htree
  refine ⟨trivial, lines, htree, fun g hg hinherited => ?_⟩
  obtain ⟨s, hs, rfl⟩ := List.mem_map.mp hg
  refine ⟨s.2, htexts s hs, k, ?_⟩
  rcases List.mem_append.mp hs with hs | hs
  · obtain ⟨-, ⟨-, rfl⟩ | ⟨-, records, text, rfl⟩⟩ := of_returns_ownGroup hown
    · exact absurd hs List.not_mem_nil
    · rw [List.mem_singleton.mp hs] at hinherited
      cases hinherited
  · exact inheritedGroup?_of_mem_otherGroups hothers hs

/-! ### The two pages -/

variable {targets targets' : Targets} {messages messages' : Value} {owner : Element}
  {ba : Builder} {groupsA : List RowGroup} {dA dA' : Draft}

/-- The page of a supertype shows itself what it hands down to a type. -/
theorem exists_own_of_inherited (hb : ofType m targets messages rules owner = .ok b)
    (h : b.build.Returns d groups d') (hg : g ∈ groups) (hinherited : g.isInherited = true)
    (hA : g.origin.kind ≠ .annotationType)
    (hba : ofType m targets' messages' rules g.origin = .ok ba)
    (ha : ba.build.Returns dA groupsA dA') :
    ∃ own ∈ groupsA, own.kind = g.kind ∧ own.isInherited = false ∧ own.origin = g.origin ∧
      ∀ e ∈ g.members, e ∈ own.members := by
  have hr := reads_of_ofType hb
  have hra := reads_of_ofType hba
  have horigin := owner_of_ofType hba
  obtain ⟨hkinds, hsections⟩ := mem_groups_of_build hb h
  obtain ⟨own, inherited, hshows, hiff⟩ := hsections g.kind (hkinds g hg)
  have hmem := hshows.mem_inherited_of_isInherited ((hiff g).mp ⟨hg, rfl⟩) hinherited
  have htail := hshows.origin_mem_tail hmem
  have hvisible : ∀ e ∈ g.members, e ∈ ba.table.visible g.kind := by
    intro e he
    have hparent := (hshows.sound g (List.mem_append_right _ hmem) e he).2
    rw [horigin] at hra
    exact hr.mem_visible_of_mem_inherited hra htail
      (hshows.mem_inherited_of_mem_group hr hmem he) hparent
  -- A kind with inherited members is handed down, and the supertype has a section of it.
  have hdown : g.kind.isHandedDown = true := by
    rw [← showsInherited_eq (hkinds g hg)]
    by_contra hnot
    rw [hshows.onlyOwn (Bool.not_eq_true _ ▸ hnot)] at hmem
    exact absurd hmem List.not_mem_nil
  have hkindA : g.kind ∈ ba.kinds := (mem_kinds_iff hdown).mpr (horigin ▸ hA)
  obtain ⟨ownA, inheritedA, hshowsA, hiffA⟩ := (mem_groups_of_build hba ha).2 g.kind hkindA
  obtain ⟨e, he⟩ := List.exists_mem_of_ne_nil _
    (hshows.nonempty g (List.mem_append_right _ hmem))
  rcases hshowsA.own_eq with ⟨-, hnone⟩ | ⟨gA, rfl, hnot, hfrom, hperm⟩
  · have hempty := hvisible e he
    rw [hnone] at hempty
    exact absurd hempty List.not_mem_nil
  · obtain ⟨hgA, hkind⟩ := (hiffA gA).mpr (List.mem_append_left _ (List.mem_singleton_self _))
    exact ⟨gA, hgA, hkind, hnot, hfrom.trans horigin,
      fun e he => hperm.mem_iff.mpr (hvisible e he)⟩

/-- **Links to inherited members arrive.**  The page of the supertype shows all of them in its own
group of the kind, in a table that has a row for each record of the group, and for each inherited
member a line with a link to its anchor.  Where the group is attributed to the supertype and this has
a page, the links to the members name the page and these anchors. -/
theorem inherited_links_arrive (hb : ofType m targets messages rules owner = .ok b)
    (h : b.build.Returns d groups d') (hg : g ∈ groups) (hinherited : g.isInherited = true)
    (hA : g.origin.kind ≠ .annotationType)
    (hba : ofType m targets' messages' rules g.origin = .ok ba)
    (ha : ba.build.Returns dA groupsA dA') :
    ∃ own ∈ groupsA, (own.kind = g.kind ∧ own.isInherited = false ∧ own.origin = g.origin ∧
        ∀ e ∈ g.members, e ∈ own.members) ∧
      (∃ linesA, dA'.tree = dA.tree ++ linesA ∧ own.records.map (·.member) = own.members ∧
        ∃ text ∈ linesA,
          ba.IsTable g.kind (·.context dA'.overlay) (dA.rows g.kind) own.records text ∧
          ∀ e ∈ g.members, ∃ title, ba.IsTitle g.kind e title ∧ ∃ line ∈ Text.lines text,
            Text.collapse ("[" ++ title ++ "](#" ++ Anchor.ofMember e ++ ")" ++ callText g.kind e) ∈
              Markdown.readRow line) ∧
      (g.attributedTo = g.origin → ∀ t, targets.find? g.origin.uid = some t →
        ∃ lines, d'.tree = d.tree ++ lines ∧ ∃ text ∈ lines, b.IsLinkText g t text) := by
  obtain ⟨own, hown, hkind, hnot, hfrom, hmembers⟩ :=
    exists_own_of_inherited hb h hg hinherited hA hba ha
  refine ⟨own, hown, ⟨hkind, hnot, hfrom, hmembers⟩, ?_, fun hattributed t ht => ?_⟩
  · obtain ⟨linesA, htree, hall⟩ := tabled_of_build (reads_of_ofType hba) ha
    obtain ⟨hrecords, text, htext, htable⟩ := hall own hown hnot
    rw [hkind] at htable
    refine ⟨linesA, htree, hrecords, text, htext, htable, fun e he => ?_⟩
    obtain ⟨r, hr, rfl⟩ := List.mem_map.mp (hrecords ▸ hmembers e he)
    exact htable.exists_line hr
  · rw [← targets_of_ofType hb] at ht
    obtain ⟨lines, htree, hall⟩ := linked_of_build h
    obtain ⟨text, htext, k, hfound⟩ := hall g hg hinherited
    exact ⟨lines, htree, text, htext, isLinkText_of_inheritedGroup? hfound hattributed ht⟩

/-! The page of points links the drawing of figures on the page of figures. -/

/-- The target of figures. -/
def figureTarget : Target := ⟨"Figure", "/api/Figure"⟩

/-- The builder of points, with a target for figures. -/
def linkedPointBuilder : Builder := { pointBuilder with targets := [("Figure", figureTarget)] }

/-- The builder of figures. -/
def figureBuilder : Builder where
  model := points
  targets := [("Figure", figureTarget)]
  messages := pointMessages
  naming := .standard
  table := ⟨points, .standard, figure, .protectedOnly, [(.methods, drawing)], [], []⟩
  sources := ⟨[]⟩

theorem inherited_links_arrive_point :
    ofType points [("Figure", figureTarget)] pointMessages ⟨.standard, true⟩ point =
        .ok linkedPointBuilder ∧
      ofType points [("Figure", figureTarget)] pointMessages ⟨.standard, true⟩ figure =
        .ok figureBuilder ∧
      ∃ groups d' groupsA dA', linkedPointBuilder.build.Returns {} groups d' ∧
        figureBuilder.build.Returns {} groupsA dA' ∧
        "### Inherited\n\n[draw](/api/Figure#draw)" ∈ d'.tree ∧
        ∃ text ∈ dA'.tree, ∃ line ∈ Text.lines text, "[draw](#draw)()" ∈ Markdown.readRow line := by
  have hpoint : ofType points [("Figure", figureTarget)] pointMessages ⟨.standard, true⟩ point =
      .ok linkedPointBuilder := by cbv
  have hfigure : ofType points [("Figure", figureTarget)] pointMessages ⟨.standard, true⟩ figure =
      .ok figureBuilder := by cbv
  have hgroups : (linkedPointBuilder.build.run.run {}).run.1.toOption.map (List.drop 1) =
      some [⟨.methods, figure, figure, [drawing], [], true⟩] := by decide +kernel
  have hreturns : (figureBuilder.build.run.run {}).run.1.toOption.map (fun _ => ()) = some () := by
    decide +kernel
  obtain ⟨groups, d', hbuild, hgroups⟩ := exists_returns hgroups
  obtain ⟨groupsA, dA', hbuildA, -⟩ := exists_returns hreturns
  have hg : ⟨.methods, figure, figure, [drawing], [], true⟩ ∈ groups :=
    List.mem_of_mem_drop (hgroups ▸ List.mem_cons_self)
  obtain ⟨own, -, -, ⟨linesA, htreeA, -, textA, htextA, -, hrows⟩, hlinks⟩ :=
    inherited_links_arrive hpoint hbuild hg rfl (by decide) hfigure hbuildA
  obtain ⟨lines, htree, text, htext, said, links, hsaid, rfl, hrefs⟩ :=
    hlinks rfl figureTarget rfl
  obtain ⟨title, htitle, line, hline, hcell⟩ := hrows drawing List.mem_cons_self
  obtain rfl : title = "draw" := htitle
  have hmessage : (linkedPointBuilder.message "methods_inherited_from"
      ["class", "[Figure](/api/Figure)"]).toOption = some "Inherited" := by decide +kernel
  obtain rfl : said = "Inherited" :=
    Option.some.inj ((congrArg Except.toOption hsaid).symm.trans hmessage)
  obtain rfl : links = ["[draw](/api/Figure#draw)"] := by
    cases hrefs with
    | cons head tail =>
        cases tail
        obtain ⟨title, htitle, rfl⟩ := head
        obtain rfl : title = "draw" := htitle
        decide +kernel
  refine ⟨hpoint, hfigure, groups, d', groupsA, dA', hbuild, hbuildA, ?_, textA, ?_, line, hline, ?_⟩
  · rw [htree]
    exact List.mem_append_right _ htext
  · rw [htreeA]
    exact List.mem_append_right _ htextA
  · have hlink : Text.collapse ("[" ++ "draw" ++ "](#" ++ Anchor.ofMember drawing ++ ")" ++
        callText .methods drawing) = "[draw](#draw)()" := by decide +kernel
    rwa [hlink] at hcell

end Builder

end TypePages
