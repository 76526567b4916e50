import TypePages.Config.Basic
import TypePages.Proofs.Hiding
import TypePages.Proofs.Order
import TypePages.Proofs.Sections

/-!
Which members the groups of a summary hold.

Two selections have to fit together.  The table decides which members a type shows, with those of
all its supertypes in one list; the section of a kind sorts that list and takes out, for each
supertype that is public or has a page, what this supertype declares.  They do because the table
shows each member once and each member is declared by one type.
-/

namespace TypePages

namespace Builder

open Work

variable {b : Builder} {k : Member.Kind} {d d' : Draft} {a : Element}

/-! ### What the groups of a kind show -/

/-- An element is declared in the type itself or in a supertype that is public or linkable. -/
def DeclaredWhereShown (b : Builder) (e : Element) : Prop :=
  e.parent = some b.owner.uid ∨
    ∃ a ∈ b.table.family.tail, e.parent = some a.uid ∧ b.model.PublicOrLinkable a

/-- The groups of own and of inherited members show what the table selects for a kind. -/
structure Shows (b : Builder) (k : Member.Kind) (own inherited : List RowGroup) : Prop where
  /-- There is one group of own members unless there are none, and it holds all of them. -/
  own_eq : own = [] ∧ b.table.visible k = [] ∨
    ∃ g, own = [g] ∧ g.isInherited = false ∧ g.origin = b.owner ∧
      g.members.Perm (b.table.visible k)
  inherited_eq : ∀ g ∈ inherited, g.isInherited = true
  /-- Groups of inherited members follow the order of the supertypes. -/
  order : (inherited.map (·.origin)).Sublist b.table.family.tail
  onlyOwn : b.showsInherited k = false → inherited = []
  /-- No two groups come from one type. -/
  distinct : ((own ++ inherited).map (·.origin.uid)).Nodup
  kind_eq : ∀ g ∈ own ++ inherited, g.kind = k
  /-- A group holds only what the table selects, and only what its type declares. -/
  sound : ∀ g ∈ own ++ inherited, ∀ e ∈ g.members,
    e ∈ b.table.allVisible k ∧ e.parent = some g.origin.uid
  /-- What is declared where it is shown is in one group. -/
  once : ∀ e ∈ b.table.allVisible k, b.DeclaredWhereShown e →
    ((own ++ inherited).filter (e ∈ ·.members)).length = 1
  /-- What is declared elsewhere is in none. -/
  never : ∀ e, ¬b.DeclaredWhereShown e → ∀ g ∈ own ++ inherited, e ∉ g.members
  nonempty : ∀ g ∈ own ++ inherited, g.members ≠ []
  ascending : ∀ g ∈ own ++ inherited,
    g.members.Pairwise fun e e' => Element.compare e e' = .lt

variable {rules : Table.Rules} {m : Model}

theorem showsInherited_eq (hk : k ∈ b.kinds) : b.showsInherited k = k.isHandedDown := by
  unfold kinds at hk
  unfold showsInherited
  by_cases hvariant : b.owner.kind = .annotationType
  · rw [if_pos hvariant] at hk
    have hnot : k.isHandedDown = false := by
      simp only [List.mem_cons, List.not_mem_nil, or_false] at hk
      rcases hk with rfl | rfl | rfl <;> rfl
    simp [hvariant, hnot]
  · simp [hvariant]

theorem mem_membersFrom_iff (hr : Table.Reads rules m b.owner b.table) {e : Element} :
    e ∈ b.membersFrom k a ↔ e ∈ b.table.allVisible k ∧ e.parent = some a.uid := by
  rw [membersFrom, List.mem_filter, (Element.sorted_perm (hr.nodup_allVisible k)).mem_iff,
    beq_iff_eq]

theorem members_perm (hr : Table.Reads rules m b.owner b.table) :
    (b.members k).Perm (b.table.visible k) :=
  Element.sorted_perm ((hr.nodup_allVisible k).sublist ((List.sublist_append_left _ _).map _))

/-- A kind of which the type shows nothing has no groups. -/
theorem shows_nil (hempty : b.table.allVisible k = []) : b.Shows k [] [] where
  own_eq := .inl ⟨rfl, (List.append_eq_nil_iff.mp hempty).1⟩
  inherited_eq := by simp
  order := List.nil_sublist _
  onlyOwn _ := rfl
  distinct := by simp
  kind_eq := by simp
  sound := by simp
  once := by simp [hempty]
  never := by simp
  nonempty := by simp
  ascending := by simp

/-- What the two halves of a section have found for a kind. -/
structure Found (b : Builder) (k : Member.Kind) (own others : List Shown) : Prop where
  own : b.members k = [] ∧ own = [] ∨ b.members k ≠ [] ∧
    ∃ records text, own = [(⟨k, b.owner, b.owner, b.members k, records, false⟩, text)]
  others : b.showsInherited k = false ∧ others = [] ∨
    b.showsInherited k = true ∧ b.inheritedGroups k = .ok others

namespace Found

variable {own others : List Shown} (hf : b.Found k own others)

include hf

theorem of_mem_own {s : Shown} (hs : s ∈ own) : s.1.kind = k ∧ s.1.isInherited = false ∧
    s.1.origin = b.owner ∧ s.1.members = b.members k ∧ s.1.members ≠ [] := by
  rcases hf.own with ⟨-, rfl⟩ | ⟨hne, records, text, rfl⟩
  · simp at hs
  · rw [List.mem_singleton.mp hs]
    exact ⟨rfl, rfl, rfl, rfl, hne⟩

theorem of_mem_others {s : Shown} (hs : s ∈ others) : s.1.kind = k ∧ s.1.isInherited = true ∧
    s.1.members = b.membersFrom k s.1.origin ∧ s.1.members ≠ [] ∧
      b.model.PublicOrLinkable s.1.origin := by
  rcases hf.others with ⟨-, rfl⟩ | ⟨-, h⟩
  · simp at hs
  · exact mem_inheritedGroups h hs

theorem of_mem {s : Shown} (hs : s ∈ own ++ others) : s.1.kind = k ∧ s.1.members ≠ [] := by
  rcases List.mem_append.mp hs with hs | hs
  · obtain ⟨hkind, -, -, -, hne⟩ := hf.of_mem_own hs
    exact ⟨hkind, hne⟩
  · obtain ⟨hkind, -, -, hne, -⟩ := hf.of_mem_others hs
    exact ⟨hkind, hne⟩

theorem origins_others : (others.map (·.1.origin)).Sublist b.table.family.tail := by
  rcases hf.others with ⟨-, rfl⟩ | ⟨-, h⟩
  · exact List.nil_sublist _
  · exact sublist_of_inheritedGroups h

theorem origin_mem_tail {s : Shown} (hs : s ∈ others) : s.1.origin ∈ b.table.family.tail :=
  hf.origins_others.subset (List.mem_map_of_mem hs)

/-- The groups come from the type and its supertypes, nearest first. -/
theorem origins : ((own ++ others).map (·.1.origin)).Sublist b.table.family := by
  have htail := hf.origins_others
  show List.Sublist _ (b.owner :: b.table.family.tail)
  rcases hf.own with ⟨-, rfl⟩ | ⟨-, records, text, rfl⟩
  · exact htail.cons _
  · exact htail.cons_cons _

theorem ascending {s : Shown} (hs : s ∈ own ++ others) :
    s.1.members.Pairwise fun e e' => Element.compare e e' = .lt := by
  rcases List.mem_append.mp hs with hs | hs
  · obtain ⟨-, -, -, hmembers, -⟩ := hf.of_mem_own hs
    rw [hmembers]
    exact Element.sorted_ascending _
  · obtain ⟨-, -, hmembers, -⟩ := hf.of_mem_others hs
    rw [hmembers]
    exact (Element.sorted_ascending _).filter _

variable (hr : Table.Reads rules m b.owner b.table)

include hr

/-- A group holds only what the table selects, and only what its type declares. -/
theorem sound {s : Shown} (hs : s ∈ own ++ others) {e : Element} (he : e ∈ s.1.members) :
    e ∈ b.table.allVisible k ∧ e.parent = some s.1.origin.uid := by
  rcases List.mem_append.mp hs with hs | hs
  · obtain ⟨-, -, horigin, hmembers, -⟩ := hf.of_mem_own hs
    rw [hmembers, (members_perm hr).mem_iff] at he
    rw [horigin]
    exact ⟨List.mem_append_left _ he, Table.parent_of_mem_declared (hr.mem_visible_iff.mp he).1⟩
  · obtain ⟨-, -, hmembers, -⟩ := hf.of_mem_others hs
    rw [hmembers] at he
    exact (mem_membersFrom_iff hr).mp he

/-- What is declared where it is shown is in some group. -/
theorem exists_mem (hk : k ∈ b.kinds) {e : Element} (he : e ∈ b.table.allVisible k)
    (hwhere : b.DeclaredWhereShown e) : ∃ s ∈ own ++ others, e ∈ s.1.members := by
  rcases hwhere with hparent | ⟨a, ha, hparent, hp⟩
  · have hvisible := (members_perm hr).mem_iff.mpr (hr.mem_visible_of_parent he hparent)
    rcases hf.own with ⟨hnil, -⟩ | ⟨-, records, text, rfl⟩
    · rw [hnil] at hvisible
      simp at hvisible
    · exact ⟨_, List.mem_append_left _ (List.mem_singleton_self _), hvisible⟩
  · have hfrom : e ∈ b.membersFrom k a := (mem_membersFrom_iff hr).mpr ⟨he, hparent⟩
    rcases hf.others with ⟨hnot, -⟩ | ⟨-, hgroups⟩
    · -- A kind that is not handed down shows only what the type declares itself.
      have hinherited := hr.mem_inherited_of_parent he ha hparent
      rw [showsInherited_eq hk, Table.isHandedDown_of_mem_inherited hinherited] at hnot
      cases hnot
    · obtain ⟨s, hs, rfl⟩ := exists_inheritedGroup hgroups ha hp (List.ne_nil_of_mem hfrom)
      have hmembers := (mem_inheritedGroups hgroups hs).2.2.1
      exact ⟨s, List.mem_append_right _ hs, hmembers ▸ hfrom⟩

/-- Two groups never come from types of one uid. -/
theorem nodup_origins : ((own ++ others).map (·.1.origin.uid)).Nodup := by
  have hsub := hf.origins.map (·.uid)
  rw [List.map_map] at hsub
  exact hr.nodup_family.sublist hsub

/-- A group that holds an element is the only one, since its type is the one that declares it. -/
theorem length_filter_mem {e : Element} (hex : ∃ s ∈ own ++ others, e ∈ s.1.members) :
    ((own ++ others).filter (e ∈ ·.1.members)).length = 1 := by
  obtain ⟨s, hs, he⟩ := hex
  have hmem : s ∈ (own ++ others).filter (e ∈ ·.1.members) :=
    List.mem_filter.mpr ⟨hs, by simpa using he⟩
  have hsame : ∀ uid ∈ ((own ++ others).filter (e ∈ ·.1.members)).map (·.1.origin.uid),
      uid = s.1.origin.uid := by
    intro uid huid
    obtain ⟨s', hs', rfl⟩ := List.mem_map.mp huid
    obtain ⟨hs', he'⟩ := List.mem_filter.mp hs'
    have hparent := (hf.sound hr hs' (by simpa using he')).2
    exact Option.some.inj (hparent.symm.trans (hf.sound hr hs he).2)
  have hsub : ((own ++ others).filter (e ∈ ·.1.members)).Sublist (own ++ others) :=
    List.filter_sublist
  have hnodup := (hf.nodup_origins hr).sublist (hsub.map _)
  rw [List.eq_replicate_of_mem hsame, List.nodup_replicate, List.length_map] at hnodup
  exact Nat.le_antisymm hnodup (List.length_pos_of_mem hmem)

/-- What is declared where it is not shown is in no group. -/
theorem notMem_of_nowhere {e : Element} (hnowhere : ¬b.DeclaredWhereShown e) {s : Shown}
    (hs : s ∈ own ++ others) : e ∉ s.1.members := by
  intro he
  have hparent := (hf.sound hr hs he).2
  rcases List.mem_append.mp hs with hs | hs
  · rw [(hf.of_mem_own hs).2.2.1] at hparent
    exact hnowhere (.inl hparent)
  · exact hnowhere (.inr ⟨_, hf.origin_mem_tail hs, hparent, (hf.of_mem_others hs).2.2.2.2⟩)

theorem own_eq : own.map (·.1) = [] ∧ b.table.visible k = [] ∨
    ∃ g, own.map (·.1) = [g] ∧ g.isInherited = false ∧ g.origin = b.owner ∧
      g.members.Perm (b.table.visible k) := by
  rcases hf.own with ⟨hnil, rfl⟩ | ⟨-, records, text, rfl⟩
  · have hperm := members_perm (k := k) hr
    rw [hnil] at hperm
    exact .inl ⟨rfl, List.nil_perm.mp hperm⟩
  · exact .inr ⟨_, rfl, rfl, rfl, members_perm hr⟩

/-- **The groups of a kind show what the table selects, each member once.** -/
theorem shows (hk : k ∈ b.kinds) : b.Shows k (own.map (·.1)) (others.map (·.1)) where
  own_eq := hf.own_eq hr
  inherited_eq := List.forall_mem_map.mpr fun s hs => (hf.of_mem_others hs).2.1
  order := by
    rw [List.map_map]
    exact hf.origins_others
  onlyOwn hnot := by
    rcases hf.others with ⟨-, rfl⟩ | ⟨hinherits, -⟩
    · rfl
    · rw [hnot] at hinherits
      exact Bool.noConfusion hinherits
  distinct := by
    rw [← List.map_append, List.map_map]
    exact hf.nodup_origins hr
  kind_eq := by
    rw [← List.map_append, List.forall_mem_map]
    exact fun s hs => (hf.of_mem hs).1
  sound := by
    rw [← List.map_append, List.forall_mem_map]
    exact fun s hs e he => hf.sound hr hs he
  once e he hwhere := by
    rw [← List.map_append, List.filter_map, List.length_map]
    exact hf.length_filter_mem hr (hf.exists_mem hr hk he hwhere)
  never e hnowhere := by
    rw [← List.map_append, List.forall_mem_map]
    exact fun s hs => hf.notMem_of_nowhere hr hnowhere hs
  nonempty := by
    rw [← List.map_append, List.forall_mem_map]
    exact fun s hs => (hf.of_mem hs).2
  ascending := by
    rw [← List.map_append, List.forall_mem_map]
    exact fun s hs => hf.ascending hs

end Found

/-! ### The sections of a page -/

/-- The lines of a kind: none without groups, and otherwise its heading and a block for each group.
-/
def IsSection (b : Builder) (k : Member.Kind) (groups : List RowGroup) (lines : List String) :
    Prop :=
  groups = [] ∧ lines = [] ∨ groups ≠ [] ∧ ∃ heading, ∃ blocks : List String,
    b.heading k = .ok heading ∧ blocks.length = groups.length ∧
      lines = heading ++ blocks.flatMap (fun text => [text, ""]) ++ [""]

/-- What a kind adds to the groups and to the lines of a page. -/
structure SectionOf (b : Builder) (k : Member.Kind) (groups : List RowGroup)
    (lines : List String) : Prop where
  shows : ∃ own inherited, groups = own ++ inherited ∧ b.Shows k own inherited
  lines : b.IsSection k groups lines

theorem SectionOf.kind_eq {groups : List RowGroup} {lines : List String}
    (h : b.SectionOf k groups lines) : ∀ g ∈ groups, g.kind = k := by
  obtain ⟨own, inherited, rfl, hshows⟩ := h.shows
  exact hshows.kind_eq

/-- Adds the lines of some groups of a kind to the page. -/
def addShown (b : Builder) (k : Member.Kind) (shown : List Shown) : Work (List RowGroup) := do
  if shown.isEmpty then return []
  let heading ← Work.of (b.heading k)
  let lines := heading ++ shown.flatMap (fun (_, text) => [text, ""]) ++ [""]
  modify fun d => { d with tree := d.tree ++ lines }
  return shown.map (·.1)

/-- The groups of inherited members, for a kind whose section shows them. -/
def otherGroups (b : Builder) (k : Member.Kind) (inherited : Bool) : Work (List Shown) :=
  if inherited then Work.of (b.inheritedGroups k) else pure []

theorem addSection_eq (b : Builder) (k : Member.Kind) (inherited : Bool) :
    b.addSection k inherited = (do
      let own ← b.ownGroup k
      let others ← b.otherGroups k inherited
      b.addShown k (own ++ others)) := by
  cases inherited with
  | false => rfl
  | true => rfl

/-- The supertypes' groups are found without touching the draft. -/
theorem of_returns_otherGroups {others : List Shown} {inherited : Bool}
    (h : (b.otherGroups k inherited).Returns d others d') : d' = d ∧
      (inherited = false ∧ others = [] ∨ inherited = true ∧ b.inheritedGroups k = .ok others) := by
  cases inherited with
  | false =>
      obtain ⟨rfl, rfl⟩ := returns_pure_iff.mp h
      exact ⟨rfl, .inl ⟨rfl, rfl⟩⟩
  | true =>
      obtain ⟨hgroups, rfl⟩ := returns_of_iff.mp h
      exact ⟨rfl, .inr ⟨rfl, hgroups⟩⟩

/-- Where there is anything to show its lines are added under the heading of the kind. -/
theorem returns_addShown_iff {shown : List Shown} {groups : List RowGroup} :
    (b.addShown k shown).Returns d groups d' ↔ groups = shown.map (·.1) ∧ (shown = [] ∧ d' = d ∨
      shown ≠ [] ∧ ∃ heading, b.heading k = .ok heading ∧ d' = { d with
        tree := d.tree ++ (heading ++ shown.flatMap (fun (_, text) => [text, ""]) ++ [""]) }) := by
  unfold addShown
  by_cases hempty : shown = []
  · simp only [hempty, List.isEmpty_nil, if_true, returns_pure_iff, List.map_nil, ne_eq,
      not_true_eq_false, true_and, false_and, or_false]
  · simp only [List.isEmpty_iff, hempty, if_false, ne_eq, not_false_eq_true, true_and, false_and,
      false_or]
    constructor
    · intro h
      obtain ⟨heading, _, h₁, h₂⟩ := returns_bind_iff.mp h
      obtain ⟨hheading, rfl⟩ := returns_of_iff.mp h₁
      obtain ⟨_, _, h₃, h₄⟩ := returns_bind_iff.mp h₂
      obtain rfl := returns_modify_iff.mp h₃
      obtain ⟨rfl, rfl⟩ := returns_pure_iff.mp h₄
      exact ⟨rfl, heading, hheading, rfl⟩
    · rintro ⟨rfl, heading, hheading, rfl⟩
      exact returns_bind_iff.mpr ⟨heading, d, returns_of_iff.mpr ⟨hheading, rfl⟩,
        returns_bind_iff.mpr ⟨⟨⟩, _, returns_modify_iff.mpr rfl,
          returns_pure_iff.mpr ⟨rfl, rfl⟩⟩⟩

theorem of_returns_addShown {shown : List Shown} {groups : List RowGroup}
    (h : (b.addShown k shown).Returns d groups d') : groups = shown.map (·.1) ∧
      ∃ lines, b.IsSection k groups lines ∧ d'.tree = d.tree ++ lines := by
  obtain ⟨rfl, ⟨rfl, rfl⟩ | ⟨hne, heading, hheading, rfl⟩⟩ := returns_addShown_iff.mp h
  · exact ⟨rfl, [], .inl ⟨rfl, rfl⟩, (List.append_nil _).symm⟩
  · refine ⟨rfl, _, .inr ⟨by simpa using hne, heading, shown.map (·.2), hheading, ?_, rfl⟩, ?_⟩
    · rw [List.length_map, List.length_map]
    · rw [List.flatMap_map]

/-- Adding a section finds the groups of the kind and adds their lines to the page. -/
theorem of_returns_addSection {groups : List RowGroup}
    (h : (b.addSection k (b.showsInherited k)).Returns d groups d') :
    ∃ own others lines, b.Found k own others ∧ groups = own.map (·.1) ++ others.map (·.1) ∧
      b.IsSection k groups lines ∧ d'.tree = d.tree ++ lines := by
  rw [addSection_eq] at h
  obtain ⟨own, d₁, hown, h₁⟩ := returns_bind_iff.mp h
  obtain ⟨others, d₂, hothers, h₂⟩ := returns_bind_iff.mp h₁
  obtain ⟨htree, hfound⟩ := of_returns_ownGroup hown
  obtain ⟨rfl, hinherits⟩ := of_returns_otherGroups hothers
  obtain ⟨hgroups, lines, hlines, htree'⟩ := of_returns_addShown h₂
  rw [htree] at htree'
  exact ⟨own, others, lines, ⟨hfound, hinherits⟩, by rw [hgroups, List.map_append], hlines,
    htree'⟩

theorem allVisible_of_hasWriter (h : b.hasWriter k = false) : b.table.allVisible k = [] := by
  unfold hasWriter Table.has at h
  simpa using h

/-- The thread of a page through its sections. -/
abbrev EachSection (b : Builder) (ks : List Member.Kind) : Draft → List (List RowGroup) → Draft →
    Prop :=
  Each (fun k => b.addSection k (b.showsInherited k)) (ks.filter b.hasWriter)

variable {ks : List Member.Kind} {found : List (List RowGroup)}

/-- The first of several kinds adds its section, which is empty if the type shows nothing of it. -/
theorem sectionOf_head (hr : Table.Reads rules m b.owner b.table) (hk : k ∈ b.kinds)
    (h : b.EachSection (k :: ks) d found d') :
    ∃ groups lines d₁ rest, b.SectionOf k groups lines ∧ d₁.tree = d.tree ++ lines ∧
      found.flatten = groups ++ rest.flatten ∧ b.EachSection ks d₁ rest d' := by
  cases hw : b.hasWriter k with
  | false =>
      rw [EachSection, List.filter_cons_of_neg (by simp [hw])] at h
      have hshows := shows_nil (allVisible_of_hasWriter hw)
      exact ⟨[], [], d, found, ⟨⟨[], [], rfl, hshows⟩, .inl ⟨rfl, rfl⟩⟩, (List.append_nil _).symm,
        rfl, h⟩
  | true =>
      rw [EachSection, List.filter_cons_of_pos hw] at h
      cases h with
      | @cons _ _ groups rest _ d₁ _ head tail =>
          obtain ⟨own, others, lines, hfound, hgroups, hlines, htree⟩ := of_returns_addSection head
          exact ⟨groups, lines, d₁, rest, ⟨⟨_, _, hgroups, hfound.shows hr hk⟩, hlines⟩, htree,
            rfl, tail⟩

/-- The sections of a list of kinds follow each other in its order. -/
theorem sections_of_each (hr : Table.Reads rules m b.owner b.table) (hks : ∀ k ∈ ks, k ∈ b.kinds)
    (hnodup : ks.Nodup) (h : b.EachSection ks d found d') :
    ∃ (groupsOf : Member.Kind → List RowGroup) (linesOf : Member.Kind → List String),
      found.flatten = ks.flatMap groupsOf ∧ d'.tree = d.tree ++ ks.flatMap linesOf ∧
        ∀ k ∈ ks, b.SectionOf k (groupsOf k) (linesOf k) := by
  induction ks generalizing d found with
  | nil =>
      cases h
      exact ⟨fun _ => [], fun _ => [], rfl, (List.append_nil _).symm, by simp⟩
  | cons k ks ih =>
      obtain ⟨hnot, hnodup⟩ := List.nodup_cons.mp hnodup
      obtain ⟨groups, lines, d₁, rest, hsection, htree, hflat, h₁⟩ :=
        sectionOf_head hr (hks k List.mem_cons_self) h
      obtain ⟨groupsOf, linesOf, hflat₁, htree₁, hall⟩ :=
        ih (fun k' hk' => hks k' (List.mem_cons_of_mem _ hk')) hnodup h₁
      have hne : ∀ k' ∈ ks, k' ≠ k := fun k' hk' heq => hnot (heq ▸ hk')
      refine ⟨Function.update groupsOf k groups, Function.update linesOf k lines, ?_, ?_, ?_⟩
      · rw [hflat, hflat₁, List.flatMap_cons, Function.update_self]
        exact congrArg _ (List.flatMap_congr fun k' hk' => by
          rw [Function.update_of_ne (hne k' hk')])
      · rw [htree₁, htree, List.flatMap_cons, Function.update_self, List.append_assoc]
        exact congrArg _ (congrArg _ (List.flatMap_congr fun k' hk' => by
          rw [Function.update_of_ne (hne k' hk')]))
      · intro k' hk'
        rcases List.mem_cons.mp hk' with rfl | hk'
        · rw [Function.update_self, Function.update_self]
          exact hsection
        · rw [Function.update_of_ne (hne k' hk'), Function.update_of_ne (hne k' hk')]
          exact hall k' hk'

theorem nodup_kinds (b : Builder) : b.kinds.Nodup := by
  unfold kinds
  split
  · decide
  · decide

/-- Groups of pairwise different kinds fall apart again by their kinds. -/
theorem filter_kind_flatMap {groupsOf : Member.Kind → List RowGroup} (hnodup : ks.Nodup)
    (hkind : ∀ k ∈ ks, ∀ g ∈ groupsOf k, g.kind = k) (hk : k ∈ ks) :
    (ks.flatMap groupsOf).filter (·.kind = k) = groupsOf k := by
  induction ks with
  | nil => simp at hk
  | cons k' ks ih =>
      obtain ⟨hnot, hnodup⟩ := List.nodup_cons.mp hnodup
      have hrest := fun k hk => hkind k (List.mem_cons_of_mem k' hk)
      rw [List.flatMap_cons, List.filter_append]
      by_cases heq : k' = k
      · subst heq
        have hself : (groupsOf k').filter (·.kind = k') = groupsOf k' :=
          List.filter_eq_self.mpr fun g hg => by simpa using hkind k' List.mem_cons_self g hg
        have hnone : (ks.flatMap groupsOf).filter (·.kind = k') = [] := by
          refine List.filter_eq_nil_iff.mpr fun g hg => ?_
          obtain ⟨k, hk, hg⟩ := List.mem_flatMap.mp hg
          have hgk := hrest k hk g hg
          simpa [hgk] using fun heq : k = k' => hnot (heq ▸ hk)
        rw [hself, hnone, List.append_nil]
      · have hnone : (groupsOf k').filter (·.kind = k) = [] := by
          refine List.filter_eq_nil_iff.mpr fun g hg => ?_
          simpa [hkind k' List.mem_cons_self g hg] using heq
        have hmem : k ∈ ks := (List.mem_cons.mp hk).resolve_left fun h => heq h.symm
        rw [hnone, List.nil_append]
        exact ih hnodup hrest hmem

/-! ### All sections -/

variable {targets : Targets} {messages : Value} {owner : Element}

/-- The sections of a page follow the order of the kinds. -/
theorem sections_of_build (hb : ofType m targets messages rules owner = .ok b)
    {groups : List RowGroup} (h : b.build.Returns d groups d') :
    ∃ (groupsOf : Member.Kind → List RowGroup) (linesOf : Member.Kind → List String),
      groups = b.kinds.flatMap groupsOf ∧ d'.tree = d.tree ++ b.kinds.flatMap linesOf ∧
        ∀ k ∈ b.kinds, b.SectionOf k (groupsOf k) (linesOf k) := by
  obtain ⟨found, d₁, heach, h₁⟩ := returns_bind_iff.mp h
  obtain ⟨rfl, rfl⟩ := returns_pure_iff.mp h₁
  exact sections_of_each (reads_of_ofType hb) (fun _ hk => hk) b.nodup_kinds
    (returns_mapM_iff.mp heach)

/-- **A page shows every member that its type selects, each in one group of the type that declares
it.**  A kind has a section where it has a group, and the sections follow the order of the kinds. -/
theorem groups_of_build (hb : ofType m targets messages rules owner = .ok b)
    {groups : List RowGroup} (h : b.build.Returns d groups d') :
    groups = (b.kinds.flatMap fun k => groups.filter (·.kind = k)) ∧
      ∃ linesOf : Member.Kind → List String, d'.tree = d.tree ++ b.kinds.flatMap linesOf ∧
        ∀ k ∈ b.kinds, b.SectionOf k (groups.filter (·.kind = k)) (linesOf k) := by
  obtain ⟨groupsOf, linesOf, rfl, htree, hall⟩ := sections_of_build hb h
  have hfilter : ∀ k ∈ b.kinds, (b.kinds.flatMap groupsOf).filter (·.kind = k) = groupsOf k :=
    fun k hk => filter_kind_flatMap b.nodup_kinds (fun k hk => (hall k hk).kind_eq) hk
  refine ⟨?_, linesOf, htree, fun k hk => ?_⟩
  · rw [List.flatMap_congr hfilter]
  · rw [hfilter k hk]
    exact hall k hk

/-! A point has a field of its own and a method of its figure, and so a section of each kind. -/

/-- The class of points. -/
def point : Element := Table.sampleType .classType "Point" (some "Figure") []

/-- A field of points. -/
def abscissa : Element where
  uid := "Point.x"
  kind := .field
  name := "x"
  fullName := "Point.x"
  parent := some "Point"
  access := "public"

/-- The class of figures. -/
def figure : Element := Table.sampleType .classType "Figure" none []

/-- A method of figures. -/
def drawing : Element := Table.sampleMethod "Figure" "draw" "public" []

/-- Points and figures. -/
def points : Model where
  elements := [point, abscissa, figure, drawing]
  distinct_uids := by decide +kernel
  minAccess := .text "protected"
  external := []

/-- The messages that the page of points needs. -/
def pointMessages : Value :=
  Config.named [("fields_summary", .text "Fields"), ("methods_summary", .text "Methods"),
    ("methods_inherited_from", .text "Inherited")]

/-- The builder of points. -/
def pointBuilder : Builder where
  model := points
  targets := []
  messages := pointMessages
  naming := .standard
  table := ⟨points, .standard, point, .protectedOnly, [(.fields, abscissa)],
    [(figure, [(.methods, drawing)])], []⟩
  sources := ⟨[]⟩

theorem groups_of_build_point :
    ofType points [] pointMessages ⟨.standard, true⟩ point = .ok pointBuilder ∧
      ∃ groups d', pointBuilder.build.Returns {} groups d' ∧
        groups.map (fun g => (g.kind, g.members.map (·.uid))) =
          [(.fields, ["Point.x"]), (.methods, ["Figure.draw"])] ∧
        ∃ linesOf : Member.Kind → List String,
          d'.tree = pointBuilder.kinds.flatMap linesOf ∧ ∀ k ∈ pointBuilder.kinds,
            pointBuilder.SectionOf k (groups.filter (·.kind = k)) (linesOf k) := by
  have hb : ofType points [] pointMessages ⟨.standard, true⟩ point = .ok pointBuilder := by cbv
  have hgroups : (pointBuilder.build.run.run {}).run.1.toOption.map
      (List.map fun g => (g.kind, g.members.map (·.uid))) =
        some [(.fields, ["Point.x"]), (.methods, ["Figure.draw"])] := by decide +kernel
  obtain ⟨groups, d', hbuild, hgroups⟩ := exists_returns hgroups
  obtain ⟨-, linesOf, htree, hall⟩ := groups_of_build hb hbuild
  exact ⟨hb, groups, d', hbuild, hgroups, linesOf, htree, hall⟩

end Builder

end TypePages
