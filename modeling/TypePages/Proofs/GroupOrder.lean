import TypePages.Proofs.Reordered

/-!
Pages built of models that hold the same elements in another order.

Both builds go through the same kinds and, for each kind, through the same supertypes, and both
leave out the same ones: a supertype has a group if it is shown at all and a key is inherited from
it, and neither depends on the order.  So the groups correspond one by one.  A group of own members
is sorted, and two orders of the same elements are sorted alike.  A group of inherited members need
not be the same, for its supertype may declare two members with one hiding key; its keys are.
-/

namespace TypePages

/-- The groups show the same members of the same type, or at least members with the same keys if the
type inherits them. -/
structure RowGroup.Alike (g g' : RowGroup) : Prop where
  kind : g.kind = g'.kind
  origin : g.origin = g'.origin
  attributedTo : g.attributedTo = g'.attributedTo
  isInherited : g.isInherited = g'.isInherited
  own : g.isInherited = false → g.members = g'.members
  keys : ∀ key, (∃ e ∈ g.members, e.hidingKey = key) ↔ ∃ e ∈ g'.members, e.hidingKey = key

namespace Builder

open Model (Reordered)
open Work

variable {b b' : Builder} {k : Member.Kind} {rules : Table.Rules} {m m' : Model} {a owner : Element}
  {key : List String}

/-! ### Two builders of one type -/

/-- The builders are made for one type, from models that differ in the order of elements alone. -/
structure OneType (rules : Table.Rules) (b b' : Builder) : Prop where
  reordered : Reordered b.model b'.model
  owner : b.owner = b'.owner
  reads : Table.Reads rules b.model b.owner b.table
  reads' : Table.Reads rules b'.model b.owner b'.table

theorem oneType_of_ofType {targets targets' : Targets} {messages messages' : Value}
    (h : Reordered m m') (hb : ofType m targets messages rules owner = .ok b)
    (hb' : ofType m' targets' messages' rules owner = .ok b') : OneType rules b b' where
  reordered := by rwa [(of_ofType hb).1, (of_ofType hb').1]
  owner := (owner_of_ofType hb).trans (owner_of_ofType hb').symm
  reads := (of_ofType hb).1 ▸ reads_of_ofType hb
  reads' := by
    rw [(of_ofType hb').1, owner_of_ofType hb, ← owner_of_ofType hb']
    exact reads_of_ofType hb'

namespace OneType

variable (h : OneType rules b b')

include h

theorem reads_right : Table.Reads rules b'.model b'.owner b'.table := h.owner ▸ h.reads'

theorem hasWriter_eq (k : Member.Kind) : b.hasWriter k = b'.hasWriter k :=
  h.reads.has_eq h.reads' h.reordered k

theorem kinds_eq : b.kinds = b'.kinds := by
  rw [kinds, kinds, h.owner]

theorem showsInherited_eq (k : Member.Kind) : b.showsInherited k = b'.showsInherited k := by
  rw [showsInherited, showsInherited, h.owner]

theorem ancestors_eq : b.table.ancestors.map (·.1) = b'.table.ancestors.map (·.1) := by
  rw [← Table.tail_family, ← Table.tail_family, h.reads.family_eq_of_reordered h.reads' h.reordered]

theorem members_eq (k : Member.Kind) : b.members k = b'.members k :=
  Element.sorted_eq_of_perm (h.reads.visible_perm h.reads' h.reordered k)
    ((h.reads.nodup_allVisible k).sublist ((List.sublist_append_left _ _).map _))

theorem attributedTo_eq (a : Element) : b.attributedTo a = b'.attributedTo a := by
  rw [attributedTo, attributedTo, h.owner, h.reordered.isPackagePrivate_eq,
    h.reordered.isLinkable_eq]

end OneType

/-! ### Groups of inherited members -/

/-- What is shown of a supertype is what is inherited from it. -/
theorem mem_membersFrom_iff_inherited (hr : Table.Reads rules m b.owner b.table)
    (ha : a ∈ b.table.family.tail) {e : Element} :
    e ∈ b.membersFrom k a ↔ e ∈ b.table.inherited k ∧ e.parent = some a.uid := by
  rw [mem_membersFrom_iff hr]
  exact and_congr_left fun hparent =>
    ⟨fun he => hr.mem_inherited_of_parent he ha hparent, List.mem_append_right _⟩

theorem exists_key_membersFrom_iff (hr : Table.Reads rules m b.owner b.table)
    (ha : a ∈ b.table.family.tail) :
    (∃ e ∈ b.membersFrom k a, e.hidingKey = key) ↔ b.table.InheritsKey k a key := by
  simp only [mem_membersFrom_iff_inherited hr ha, and_assoc]
  rfl

theorem membersFrom_ne_nil_iff (hr : Table.Reads rules m b.owner b.table)
    (ha : a ∈ b.table.family.tail) :
    b.membersFrom k a ≠ [] ↔ ∃ key, b.table.InheritsKey k a key := by
  constructor
  · intro hne
    obtain ⟨e, he⟩ := List.exists_mem_of_ne_nil _ hne
    exact ⟨e.hidingKey, (exists_key_membersFrom_iff hr ha).mp ⟨e, he, rfl⟩⟩
  · rintro ⟨key, hkey⟩
    obtain ⟨e, he, -⟩ := (exists_key_membersFrom_iff hr ha).mpr hkey
    exact List.ne_nil_of_mem he

theorem attributedTo_of_inheritedGroup? {s : Shown} (h : b.inheritedGroup? k a = .ok (some s)) :
    b.attributedTo a = .ok s.1.attributedTo := by
  obtain ⟨shown, -, h₁⟩ := Refusal.bind_eq_ok.mp h
  split at h₁
  next => cases h₁
  next =>
    dsimp only at h₁
    split at h₁
    next => cases h₁
    next =>
      obtain ⟨heading, -, h₂⟩ := Refusal.bind_eq_ok.mp h₁
      obtain ⟨attributed, hattributed, h₃⟩ := Refusal.bind_eq_ok.mp h₂
      obtain ⟨links, -, h₄⟩ := Refusal.bind_eq_ok.mp h₃
      obtain rfl := Option.some.inj (Refusal.pure_eq_ok.mp h₄)
      exact hattributed

namespace OneType

variable (h : OneType rules b b')

include h

/-- A supertype has a group in both orders, with the same keys, or in neither. -/
theorem inheritedGroup?_rel (ha : a ∈ b.table.family.tail) {o o' : Option Shown}
    (ho : b.inheritedGroup? k a = .ok o) (ho' : b'.inheritedGroup? k a = .ok o') :
    Option.Rel (fun s s' => s.1.Alike s'.1) o o' := by
  have hkeys : ∀ key, b.table.InheritsKey k a key ↔ b'.table.InheritsKey k a key :=
    fun key => h.reads.inheritsKey_congr h.reads' h.reordered ha
  have ha' : a ∈ b'.table.family.tail :=
    h.reads.family_eq_of_reordered h.reads' h.reordered ▸ ha
  have hne_iff : b.membersFrom k a ≠ [] ↔ b'.membersFrom k a ≠ [] := by
    rw [membersFrom_ne_nil_iff h.reads ha, membersFrom_ne_nil_iff h.reads_right ha']
    exact exists_congr hkeys
  have hp_iff := h.reordered.publicOrLinkable_iff a
  rcases inheritedGroup?_eq_ok ho with ⟨rfl, hnone⟩ | ⟨attributed, heading, links, rfl, -, hp, hne⟩
  · rcases inheritedGroup?_eq_ok ho' with ⟨rfl, -⟩ | ⟨_, _, _, -, -, hp', hne'⟩
    · exact .none
    · exact absurd (hnone (hp_iff.mpr hp')) (hne_iff.mpr hne')
  · rcases inheritedGroup?_eq_ok ho' with
      ⟨-, hnone'⟩ | ⟨attributed', heading', links', rfl, -, -, -⟩
    · exact absurd (hnone' (hp_iff.mp hp)) (hne_iff.mp hne)
    · have hattributed := attributedTo_of_inheritedGroup? ho
      rw [h.attributedTo_eq, attributedTo_of_inheritedGroup? ho', Except.ok.injEq] at hattributed
      refine .some ⟨rfl, rfl, hattributed.symm, rfl, nofun, fun key => ?_⟩
      rw [exists_key_membersFrom_iff h.reads ha, exists_key_membersFrom_iff h.reads_right ha']
      exact hkeys key

theorem inheritedGroups_alike {others others' : List Shown}
    (hothers : b.inheritedGroups k = .ok others) (hothers' : b'.inheritedGroups k = .ok others') :
    List.Forall₂ (fun s s' => s.1.Alike s'.1) others others' := by
  rw [inheritedGroups, ← h.ancestors_eq] at hothers'
  obtain ⟨hall, rfl⟩ := Refusal.filterMapM_eq_ok.mp hothers
  obtain ⟨hall', rfl⟩ := Refusal.filterMapM_eq_ok.mp hothers'
  have hsame : List.Forall₂ (fun a a' => a = a' ∧ a ∈ b.table.family.tail)
      (b.table.ancestors.map (·.1)) (b.table.ancestors.map (·.1)) :=
    List.forall₂_same.mpr fun a ha => ⟨rfl, ha⟩
  refine List.rel_filterMap ?_ hsame
  rintro a _ ⟨rfl, ha⟩
  obtain ⟨o, ho⟩ := hall a ha
  obtain ⟨o', ho'⟩ := hall' a ha
  show Option.Rel _ (b.inheritedGroup? k a).toOption.join (b'.inheritedGroup? k a).toOption.join
  rw [ho, ho']
  exact h.inheritedGroup?_rel ha ho ho'

/-- Both orders find the same of a kind. -/
theorem found_alike {own others own' others' : List Shown} (hf : b.Found k own others)
    (hf' : b'.Found k own' others') :
    List.Forall₂ (fun s s' => s.1.Alike s'.1) (own ++ others) (own' ++ others') := by
  have hmembers := h.members_eq k
  have hown : List.Forall₂ (fun s s' => s.1.Alike s'.1) own own' := by
    rcases hf.own with ⟨hnil, rfl⟩ | ⟨hne, records, text, rfl⟩
    · rcases hf'.own with ⟨-, rfl⟩ | ⟨hne', -⟩
      · exact .nil
      · exact absurd (hmembers ▸ hnil) hne'
    · rcases hf'.own with ⟨hnil', -⟩ | ⟨-, records', text', rfl⟩
      · exact absurd (hmembers.trans hnil') hne
      · refine .cons ⟨rfl, h.owner, h.owner, rfl, fun _ => hmembers, fun key => ?_⟩ .nil
        rw [hmembers]
  have hothers : List.Forall₂ (fun s s' => s.1.Alike s'.1) others others' := by
    have hshows := h.showsInherited_eq k
    rcases hf.others with ⟨hnot, rfl⟩ | ⟨hinherits, hgroups⟩
    · rcases hf'.others with ⟨-, rfl⟩ | ⟨hinherits', -⟩
      · exact .nil
      · rw [← hshows, hnot] at hinherits'
        cases hinherits'
    · rcases hf'.others with ⟨hnot', -⟩ | ⟨-, hgroups'⟩
      · rw [← hshows, hinherits] at hnot'
        cases hnot'
      · exact h.inheritedGroups_alike hgroups hgroups'
  exact List.rel_append hown hothers

/-- One section after the other, both builds add groups that are alike. -/
theorem sections_alike {ks : List Member.Kind} {d d₁ d' d₁' : Draft}
    {found found' : List (List RowGroup)}
    (hs : Each (fun k => b.addSection k (b.showsInherited k)) ks d found d₁)
    (hs' : Each (fun k => b'.addSection k (b'.showsInherited k)) ks d' found' d₁') :
    List.Forall₂ (List.Forall₂ RowGroup.Alike) found found' := by
  induction hs generalizing d' found' with
  | nil =>
      cases hs'
      exact .nil
  | cons head _ ih =>
      cases hs' with
      | cons head' tail' =>
          obtain ⟨own, others, -, hf, rfl, -⟩ := of_returns_addSection head
          obtain ⟨own', others', -, hf', rfl, -⟩ := of_returns_addSection head'
          refine .cons ?_ (ih tail')
          rw [← List.map_append, ← List.map_append, List.forall₂_map_left_iff,
            List.forall₂_map_right_iff]
          exact h.found_alike hf hf'

theorem build_alike {d d₁ d' d₁' : Draft} {groups groups' : List RowGroup}
    (hbuild : b.build.Returns d groups d₁) (hbuild' : b'.build.Returns d' groups' d₁') :
    List.Forall₂ RowGroup.Alike groups groups' := by
  obtain ⟨found, _, heach, h₁⟩ := returns_bind_iff.mp hbuild
  obtain ⟨found', _, heach', h₁'⟩ := returns_bind_iff.mp hbuild'
  obtain ⟨rfl, -⟩ := returns_pure_iff.mp h₁
  obtain ⟨rfl, -⟩ := returns_pure_iff.mp h₁'
  have hks : b'.kinds.filter b'.hasWriter = b.kinds.filter b.hasWriter := by
    rw [h.kinds_eq, List.filter_congr fun k _ => h.hasWriter_eq k]
  rw [hks] at heach'
  exact List.rel_flatten (h.sections_alike (returns_mapM_iff.mp heach) (returns_mapM_iff.mp heach'))

end OneType

/-- **What a page shows does not depend on the order of the elements.**  Whatever is read in one
order is read in another, with the same family of the type; and where both pages are built their
groups correspond: own members are the same, and the same keys are inherited from the same types. -/
theorem groups_of_reordered (h : Reordered m m') (rules : Table.Rules) (owner : Element) :
    (∀ t, Table.read rules m owner = .ok t →
      ∃ t', Table.read rules m' owner = .ok t' ∧ t'.family = t.family) ∧
    ∀ targets targets' messages b b', ofType m targets messages rules owner = .ok b →
      ofType m' targets' messages rules owner = .ok b' →
      ∀ d d₁ d' d₁' groups groups', b.build.Returns d groups d₁ → b'.build.Returns d' groups' d₁' →
        List.Forall₂ RowGroup.Alike groups groups' :=
  ⟨fun _ ht => Table.read_reordered h ht, fun _ _ _ _ _ hb hb' _ _ _ _ _ _ hbuild hbuild' =>
    (oneType_of_ofType h hb hb').build_alike hbuild hbuild'⟩

/-! Figures declare the drawing twice, as a class does that narrows what a method returns.  Points
inherit one of the two, the one that comes first. -/

/-- A second method of figures with the name and the parameters of the first. -/
def bridge : Element := { drawing with uid := "Figure.draw/bridge" }

/-- Points and figures, with the second drawing behind the first. -/
def drawingFirst : Model where
  elements := [point, figure, drawing, bridge]
  distinct_uids := by decide +kernel
  minAccess := .text "protected"
  external := []

/-- Points and figures, with the second drawing in front. -/
def bridgeFirst : Model where
  elements := [point, figure, bridge, drawing]
  distinct_uids := by decide +kernel
  minAccess := .text "protected"
  external := []

theorem reordered_bridgeFirst : drawingFirst.Reordered bridgeFirst :=
  ⟨((List.Perm.swap bridge drawing []).cons figure).cons point, rfl, rfl⟩

/-- The builder of points in a model with the given drawings. -/
def drawnBuilder (m : Model) (drawings : List Element) : Builder where
  model := m
  targets := []
  messages := pointMessages
  naming := .standard
  table := ⟨m, .standard, point, .protectedOnly, [],
    [(figure, drawings.map fun e => (.methods, e))], []⟩
  sources := ⟨[]⟩

theorem groups_of_reordered_bridge : drawingFirst.Reordered bridgeFirst ∧
    ∃ b b' groups d₁ groups' d₁',
      ofType drawingFirst [] pointMessages ⟨.standard, true⟩ point = .ok b ∧
      ofType bridgeFirst [] pointMessages ⟨.standard, true⟩ point = .ok b' ∧
      b.build.Returns {} groups d₁ ∧ b'.build.Returns {} groups' d₁' ∧
      List.Forall₂ RowGroup.Alike groups groups' ∧
      groups.map (·.members.map (·.uid)) = [["Figure.draw"]] ∧
      groups'.map (·.members.map (·.uid)) = [["Figure.draw/bridge"]] := by
  have hb : ofType drawingFirst [] pointMessages ⟨.standard, true⟩ point =
      .ok (drawnBuilder drawingFirst [drawing, bridge]) := by cbv
  have hb' : ofType bridgeFirst [] pointMessages ⟨.standard, true⟩ point =
      .ok (drawnBuilder bridgeFirst [bridge, drawing]) := by cbv
  have hgroups : ((drawnBuilder drawingFirst [drawing, bridge]).build.run.run {}).run.1.toOption.map
      (List.map (·.members.map (·.uid))) = some [["Figure.draw"]] := by decide +kernel
  have hgroups' : ((drawnBuilder bridgeFirst [bridge, drawing]).build.run.run {}).run.1.toOption.map
      (List.map (·.members.map (·.uid))) = some [["Figure.draw/bridge"]] := by decide +kernel
  obtain ⟨groups, d₁, hbuild, hgroups⟩ := exists_returns hgroups
  obtain ⟨groups', d₁', hbuild', hgroups'⟩ := exists_returns hgroups'
  have halike := (groups_of_reordered reordered_bridgeFirst ⟨.standard, true⟩ point).2
    [] [] pointMessages _ _ hb hb' {} d₁ {} d₁' groups groups' hbuild hbuild'
  exact ⟨reordered_bridgeFirst, _, _, groups, d₁, groups', d₁', hb, hb', hbuild, hbuild', halike,
    hgroups, hgroups'⟩

end Builder

end TypePages
