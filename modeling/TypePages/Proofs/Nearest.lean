import TypePages.Proofs.Groups

/-!
What is shown of a hiding key.

Hiding is decided among all supertypes of a type, and only then are the supertypes skipped that are
neither public nor have a page.  A declaration in a skipped supertype still hides the farther ones,
so that its key may be shown nowhere although a public supertype declares a member with it.

For each key that a type does not declare itself the walk keeps one member, that of the nearest
supertype that offers any.  Whether the page shows the key depends on this supertype alone.
-/

namespace TypePages

/-! ### The nearest supertype that offers a key -/

namespace Table

section

variable {rules : Rules} {m : Model} {owner a near : Element} {k : Member.Kind}
  {key : List String} {supertypes : List Element}

/-- A supertype hands a documented member with a hiding key down. -/
def Offers (rules : Rules) (m : Model) (owner : Element) (k : Member.Kind) (key : List String)
    (a : Element) : Prop :=
  ∃ e ∈ declared rules m k a, (HandsDown a owner e ∧ m.Documents e) ∧ e.hidingKey = key

instance (rules : Rules) (m : Model) (owner : Element) (k : Member.Kind) (key : List String)
    (a : Element) : Decidable (Offers rules m owner k key a) :=
  inferInstanceAs (Decidable (∃ e ∈ _, _))

/-- The first of the supertypes that offers a key. -/
def nearest? (rules : Rules) (m : Model) (owner : Element) (k : Member.Kind) (key : List String)
    (supertypes : List Element) : Option Element :=
  supertypes.find? fun a => Offers rules m owner k key a

theorem exists_nearest (ha : a ∈ supertypes) (h : Offers rules m owner k key a) :
    ∃ near, nearest? rules m owner k key supertypes = some near := by
  refine Option.isSome_iff_exists.mp (List.find?_isSome.mpr ⟨a, ha, ?_⟩)
  simpa using h

theorem mem_of_nearest (h : nearest? rules m owner k key supertypes = some near) :
    near ∈ supertypes :=
  List.mem_of_find?_eq_some h

/-- The first offer of a key is one of the nearest supertype that makes any. -/
theorem find?_offered (h : nearest? rules m owner k key supertypes = some near) :
    ∃ e ∈ declared rules m k near,
      (offered rules m owner k supertypes).find? (·.hidingKey = key) = some e := by
  obtain ⟨hoffers, before, after, hsplit, hbefore⟩ := List.find?_eq_some_iff_append.mp h
  obtain ⟨x, hx, hdown, hkey⟩ := of_decide_eq_true hoffers
  have hsome : (((declared rules m k near).filter fun e =>
      HandsDown near owner e ∧ m.Documents e).find? (·.hidingKey = key)).isSome := by
    refine List.find?_isSome.mpr ⟨x, List.mem_filter.mpr ⟨hx, ?_⟩, ?_⟩
    · exact decide_eq_true hdown
    · exact decide_eq_true hkey
  obtain ⟨e, he⟩ := Option.isSome_iff_exists.mp hsome
  refine ⟨e, (List.mem_filter.mp (List.mem_of_find?_eq_some he)).1, ?_⟩
  rw [offered, List.find?_flatMap, List.findSome?_eq_some_iff]
  refine ⟨before, near, after, hsplit, he, fun b hb => ?_⟩
  refine List.find?_eq_none.mpr fun y hy hkey => ?_
  obtain ⟨hy, hdown⟩ := List.mem_filter.mp hy
  have hnot := hbefore b hb
  rw [Bool.not_eq_true', decide_eq_false_iff_not] at hnot
  exact hnot ⟨y, hy, of_decide_eq_true hdown, of_decide_eq_true hkey⟩

/-- The walk keeps the first element of each key that it does not know at the start. -/
theorem find?_unhidden {keys : List (List String)} {es : List Element} (h : key ∉ keys) :
    (unhidden keys es).find? (·.hidingKey = key) = es.find? (·.hidingKey = key) := by
  induction es generalizing keys with
  | nil => rfl
  | cons e es ih =>
      by_cases hkey : e.hidingKey = key
      · rw [unhidden_cons_of_notMem (hkey ▸ h), List.find?_cons_of_pos (by simpa using hkey),
          List.find?_cons_of_pos (by simpa using hkey)]
      · rw [List.find?_cons_of_neg (by simpa using hkey)]
        by_cases hmem : e.hidingKey ∈ keys
        · rw [unhidden_cons_of_mem hmem]
          exact ih h
        · rw [unhidden_cons_of_notMem hmem, List.find?_cons_of_neg (by simpa using hkey)]
          refine ih fun hc => ?_
          rcases List.mem_cons.mp hc with rfl | hc
          · exact hkey rfl
          · exact h hc

/-- A supertype hands a documented member down to a type that declares no member of its key. -/
structure Inherits (rules : Rules) (m : Model) (owner : Element) (k : Member.Kind)
    (a e : Element) : Prop where
  supertype : a ∈ m.ancestors owner
  declared : e ∈ declared rules m k a
  handsDown : HandsDown a owner e
  documented : m.Documents e
  undeclared : ∀ own ∈ Table.declared rules m k owner, own.hidingKey ≠ e.hidingKey

/-- Of a key that a type does not declare it inherits the member of the nearest supertype. -/
theorem Reads.exists_inherited {t : Table} (hr : Reads rules m owner t)
    (hk : k.isHandedDown = true) (hown : ∀ own ∈ declared rules m k owner, own.hidingKey ≠ key)
    (h : nearest? rules m owner k key t.family.tail = some near) :
    ∃ e ∈ t.inherited k, e ∈ declared rules m k near ∧ e.hidingKey = key := by
  obtain ⟨e, he, hfirst⟩ := find?_offered h
  have hnot : key ∉ (declared rules m k owner).map (·.hidingKey) := by
    intro hc
    obtain ⟨own, hmem, hkey⟩ := List.mem_map.mp hc
    exact hown own hmem hkey
  rw [← find?_unhidden hnot, ← hr.inherited_eq hk] at hfirst
  exact ⟨e, List.mem_of_find?_eq_some hfirst, he, by simpa using List.find?_some hfirst⟩

theorem Reads.eq_of_mem_inherited {t : Table} (hr : Reads rules m owner t)
    (hk : k.isHandedDown = true) {e e' : Element} (he : e ∈ t.inherited k)
    (he' : e' ∈ t.inherited k) (hkey : e.hidingKey = e'.hidingKey) : e = e' := by
  rw [hr.inherited_eq hk] at he he'
  exact List.inj_on_of_nodup_map nodup_hidingKey_unhidden he he' hkey

end

end Table

/-! ### What the groups show of it -/

namespace Builder

variable {b : Builder} {k : Member.Kind} {own inherited : List RowGroup} {rules : Table.Rules}
  {m : Model} {a e : Element} {g : RowGroup}

namespace Shows

variable (h : b.Shows k own inherited)

include h

theorem origin_of_mem_own (hg : g ∈ own) : g.origin = b.owner ∧ g.isInherited = false := by
  rcases h.own_eq with ⟨rfl, -⟩ | ⟨g', rfl, hnot, horigin, -⟩
  · simp at hg
  · rw [List.mem_singleton.mp hg]
    exact ⟨horigin, hnot⟩

theorem mem_inherited_of_isInherited (hg : g ∈ own ++ inherited)
    (hinherited : g.isInherited = true) : g ∈ inherited := by
  rcases List.mem_append.mp hg with hg | hg
  · rw [(h.origin_of_mem_own hg).2] at hinherited
    exact Bool.noConfusion hinherited
  · exact hg

theorem origin_mem_tail (hg : g ∈ inherited) : g.origin ∈ b.table.family.tail :=
  h.order.subset (List.mem_map_of_mem hg)

variable (hr : Table.Reads rules m b.owner b.table)

include hr

/-- Groups of inherited members hold nothing that the type declares itself. -/
theorem mem_inherited_of_mem_group (hg : g ∈ inherited) (he : e ∈ g.members) :
    e ∈ b.table.inherited k := by
  obtain ⟨hall, hparent⟩ := h.sound g (List.mem_append_right _ hg) e he
  exact hr.mem_inherited_of_parent hall (h.origin_mem_tail hg) hparent

/-- An inherited member has a group where its supertype is public or linkable. -/
theorem exists_group_iff (he : e ∈ b.table.inherited k) (ha : a ∈ b.table.family.tail)
    (hparent : e.parent = some a.uid) :
    (∃ g ∈ own ++ inherited, g.isInherited = true ∧ e ∈ g.members) ↔
      b.model.PublicOrLinkable a := by
  have hne := hr.uid_ne_of_mem_tail ha
  constructor
  · rintro ⟨g, hg, -, hmem⟩
    have hwhere : b.DeclaredWhereShown e := by
      by_contra hnowhere
      exact h.never e hnowhere g hg hmem
    rcases hwhere with hown | ⟨a', ha', hparent', hp⟩
    · rw [hparent] at hown
      exact absurd (Option.some.inj hown) hne
    · have huid : a.uid = a'.uid := Option.some.inj (hparent.symm.trans hparent')
      rwa [hr.eq_of_uid_eq_tail ha ha' huid]
  · intro hp
    have hone := h.once e (List.mem_append_right _ he) (.inr ⟨a, ha, hparent, hp⟩)
    obtain ⟨g, hg⟩ := List.exists_mem_of_length_pos (Nat.lt_of_lt_of_eq Nat.one_pos hone.symm)
    obtain ⟨hg, hmem⟩ := List.mem_filter.mp hg
    have hmem : e ∈ g.members := of_decide_eq_true hmem
    rcases List.mem_append.mp hg with hown | hinherited
    · -- The group of the type itself holds only what the type declares.
      have hparent' := (h.sound g hg e hmem).2
      rw [(h.origin_of_mem_own hown).1, hparent] at hparent'
      exact absurd (Option.some.inj hparent') hne
    · exact ⟨g, hg, h.inherited_eq g hinherited, hmem⟩

end Shows

/-- A group of inherited members of a kind has a member with a hiding key. -/
def ShowsKey (groups : List RowGroup) (k : Member.Kind) (key : List String) : Prop :=
  ∃ g ∈ groups, (g.kind = k ∧ g.isInherited = true) ∧ ∃ e ∈ g.members, e.hidingKey = key

theorem mem_kinds_iff (hk : k.isHandedDown = true) :
    k ∈ b.kinds ↔ b.owner.kind ≠ .annotationType := by
  unfold kinds
  by_cases hvariant : b.owner.kind = .annotationType
  · rw [if_pos hvariant]
    cases k <;> simp_all [Member.Kind.isHandedDown]
  · rw [if_neg hvariant]
    cases k <;> simp_all [Member.Kind.isHandedDown]

variable {targets : Targets} {messages : Value} {owner : Element} {groups : List RowGroup}
  {d d' : Draft}

/-- The groups of a page that are of one kind are those of its section. -/
theorem mem_groups_of_build (hb : ofType m targets messages rules owner = .ok b)
    (h : b.build.Returns d groups d') :
    (∀ g ∈ groups, g.kind ∈ b.kinds) ∧ ∀ k ∈ b.kinds, ∃ own inherited, b.Shows k own inherited ∧
      ∀ g, g ∈ groups ∧ g.kind = k ↔ g ∈ own ++ inherited := by
  obtain ⟨groupsOf, _, rfl, -, hall⟩ := sections_of_build hb h
  refine ⟨fun g hg => ?_, fun k hk => ?_⟩
  · obtain ⟨k, hk, hg⟩ := List.mem_flatMap.mp hg
    rwa [(hall k hk).kind_eq g hg]
  · obtain ⟨own, inherited, heq, hshows⟩ := (hall k hk).shows
    refine ⟨own, inherited, hshows, fun g => ?_⟩
    rw [← heq]
    constructor
    · rintro ⟨hg, rfl⟩
      obtain ⟨k', hk', hg⟩ := List.mem_flatMap.mp hg
      rwa [(hall k' hk').kind_eq g hg]
    · exact fun hg => ⟨List.mem_flatMap.mpr ⟨k, hk, hg⟩, (hall k hk).kind_eq g hg⟩

/-- An inherited member stands for its key: the page shows the key where it shows the member. -/
theorem showsKey_iff (hb : ofType m targets messages rules owner = .ok b)
    (h : b.build.Returns d groups d') (hk : k.isHandedDown = true) (he : e ∈ b.table.inherited k)
    (ha : a ∈ b.table.family.tail) (hparent : e.parent = some a.uid) :
    ShowsKey groups k e.hidingKey ↔ k ∈ b.kinds ∧ b.model.PublicOrLinkable a := by
  have hr := reads_of_ofType hb
  obtain ⟨hkinds, hsections⟩ := mem_groups_of_build hb h
  constructor
  · rintro ⟨g, hg, ⟨rfl, hinherited⟩, x, hx, hkey⟩
    have hkind := hkinds g hg
    obtain ⟨own, inherited, hshows, hiff⟩ := hsections g.kind hkind
    have hgroup := (hiff g).mp ⟨hg, rfl⟩
    have hxmem := hshows.mem_inherited_of_mem_group hr
      (hshows.mem_inherited_of_isInherited hgroup hinherited) hx
    -- Keys of inherited members are distinct, so the group holds this very member.
    obtain rfl : x = e := hr.eq_of_mem_inherited hk hxmem he hkey
    exact ⟨hkind, (hshows.exists_group_iff hr he ha hparent).mp ⟨g, hgroup, hinherited, hx⟩⟩
  · rintro ⟨hkind, hp⟩
    obtain ⟨own, inherited, hshows, hiff⟩ := hsections k hkind
    obtain ⟨g, hg, hinherited, hx⟩ := (hshows.exists_group_iff hr he ha hparent).mpr hp
    obtain ⟨hg, hgkind⟩ := (hiff g).mpr hg
    exact ⟨g, hg, ⟨hgkind, hinherited⟩, e, hx, rfl⟩

/-- **The nearest supertype that offers a hiding key decides whether the page shows the key.**  It
does unless this supertype is skipped or the type is an annotation type. -/
theorem showsKey_iff_nearest (hb : ofType m targets messages rules owner = .ok b)
    (h : b.build.Returns d groups d') (hk : k.isHandedDown = true)
    (hinherits : Table.Inherits rules m owner k a e) :
    ∃ near, Table.nearest? rules m owner k e.hidingKey (m.ancestors owner) = some near ∧
      (ShowsKey groups k e.hidingKey ↔
        owner.kind ≠ .annotationType ∧ m.PublicOrLinkable near) := by
  have hr := reads_of_ofType hb
  have howner := owner_of_ofType hb
  have htail : b.table.family.tail = m.ancestors owner := by
    rw [hr.family_eq, howner]
    rfl
  obtain ⟨near, hnear⟩ := Table.exists_nearest hinherits.supertype
    ⟨e, hinherits.declared, ⟨hinherits.handsDown, hinherits.documented⟩, rfl⟩
  have hmem : near ∈ b.table.family.tail := htail ▸ Table.mem_of_nearest hnear
  obtain ⟨kept, hkept, hdeclared, hkey⟩ := hr.exists_inherited hk
    (howner ▸ hinherits.undeclared) (by rw [howner, htail]; exact hnear)
  refine ⟨near, hnear, ?_⟩
  rw [← hkey, showsKey_iff hb h hk hkept hmem (Table.parent_of_mem_declared hdeclared),
    mem_kinds_iff hk, howner, (of_ofType hb).1]

/-- Points inherit the drawing of figures, and it is shown. -/
theorem showsKey_point :
    ofType points [] pointMessages ⟨.standard, true⟩ point = .ok pointBuilder ∧
      Table.Inherits ⟨.standard, true⟩ points point .methods figure drawing ∧
      ∃ groups d', pointBuilder.build.Returns {} groups d' ∧
        ShowsKey groups .methods drawing.hidingKey := by
  have hb : ofType points [] pointMessages ⟨.standard, true⟩ point = .ok pointBuilder := by cbv
  have hancestors : points.ancestors point = [figure] := by cbv
  have hinherits : Table.Inherits ⟨.standard, true⟩ points point .methods figure drawing :=
    ⟨by rw [hancestors]; simp, by decide +kernel, by decide +kernel, by decide +kernel,
      by decide +kernel⟩
  have hreturns : (pointBuilder.build.run.run {}).run.1.toOption.map (fun _ => ()) = some () := by
    decide +kernel
  obtain ⟨groups, d', hbuild, -⟩ := Work.exists_returns hreturns
  obtain ⟨near, hnear, hshows⟩ := showsKey_iff_nearest hb hbuild rfl hinherits
  rw [hancestors] at hnear
  obtain rfl : near = figure := List.mem_singleton.mp (Table.mem_of_nearest hnear)
  exact ⟨hb, hinherits, groups, d', hbuild, hshows.mpr ⟨by decide, .inl (by decide +kernel)⟩⟩

/-! Between squares and figures stands a class that only its package knows.  It declares the drawing
again, and squares lose it; an annotation type shows nothing that it inherits. -/

/-- A class that only its package knows. -/
def polygon : Element :=
  { Table.sampleType .classType "Polygon" (some "Figure") [] with access := "package" }

/-- The drawing of polygons. -/
def polygonDrawing : Element := Table.sampleMethod "Polygon" "draw" "public" []

/-- The class of squares. -/
def square : Element := Table.sampleType .classType "Square" (some "Polygon") []

/-- An annotation type that is given a superclass. -/
def mark : Element := Table.sampleType .annotationType "Mark" (some "Figure") []

/-- Squares, polygons, figures and marks. -/
def squares : Model where
  elements := [square, polygon, polygonDrawing, figure, drawing, mark]
  distinct_uids := by decide +kernel
  minAccess := .text "protected"
  external := []

/-- The builder of squares. -/
def squareBuilder : Builder where
  model := squares
  targets := []
  messages := pointMessages
  naming := .standard
  table := ⟨squares, .standard, square, .protectedOnly, [],
    [(polygon, [(.methods, polygonDrawing)]), (figure, [(.methods, drawing)])], []⟩
  sources := ⟨[]⟩

/-- The builder of marks. -/
def markBuilder : Builder where
  model := squares
  targets := []
  messages := pointMessages
  naming := .standard
  table := ⟨squares, .standard, mark, .protectedOnly, [], [(figure, [(.methods, drawing)])], []⟩
  sources := ⟨[]⟩

/-- A page has been built on which the drawing of figures is inherited and not shown. -/
def LosesDrawing (b : Builder) (owner : Element) : Prop :=
  ofType squares [] pointMessages ⟨.standard, true⟩ owner = .ok b ∧
    Table.Inherits ⟨.standard, true⟩ squares owner .methods figure drawing ∧
    squares.PublicOrLinkable figure ∧
    ∃ groups d', b.build.Returns {} groups d' ∧ ¬ShowsKey groups .methods drawing.hidingKey

theorem losesDrawing : LosesDrawing squareBuilder square ∧ LosesDrawing markBuilder mark := by
  have hnone : ¬ShowsKey [] .methods drawing.hidingKey := by
    rintro ⟨g, hg, -⟩
    exact absurd hg List.not_mem_nil
  have hsquare : squares.ancestors square = [polygon, figure] := by cbv
  have hmark : squares.ancestors mark = [figure] := by cbv
  have hpublic : squares.PublicOrLinkable figure := .inl (by decide +kernel)
  refine ⟨⟨by cbv, ⟨?_, by decide +kernel, by decide +kernel, by decide +kernel,
    by decide +kernel⟩, hpublic, ?_⟩, ⟨by cbv, ⟨?_, by decide +kernel, by decide +kernel,
    by decide +kernel, by decide +kernel⟩, hpublic, ?_⟩⟩
  · rw [hsquare]
    simp
  · have hreturns : (squareBuilder.build.run.run {}).run.1.toOption.map id = some [] := by
      decide +kernel
    obtain ⟨groups, d', hbuild, rfl⟩ := Work.exists_returns hreturns
    exact ⟨[], d', hbuild, hnone⟩
  · rw [hmark]
    simp
  · have hreturns : (markBuilder.build.run.run {}).run.1.toOption.map id = some [] := by
      decide +kernel
    obtain ⟨groups, d', hbuild, rfl⟩ := Work.exists_returns hreturns
    exact ⟨[], d', hbuild, hnone⟩

end Builder

end TypePages
