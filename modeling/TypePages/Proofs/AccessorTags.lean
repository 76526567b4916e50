import TypePages.Proofs.Synthesis
import TypePages.Proofs.Writing

/-!
Where the references of a property method lead.

The synthesis refers from a property method to the getter and the setter that were found for it.
These are found by name among all members that the type declares, while what a type shows are the
members that are documented.  `reference_of_propertyComment_iff` says which references come from the
synthesis, since everything else that is kept of the source goes by other names; and an accessor, as
a method of the type, is shown under some kind just in case it is documented.
-/

namespace TypePages

namespace Table

variable {rules : Rules} {m : Model} {owner a e p : Element} {t : Table}

/-! ### Methods are shown where they are documented -/

/-- Every method has a kind. -/
theorem exists_kind_of_method {found : Option Member.Kind} (h : classify rules a e = .ok found)
    (hkind : e.kind = .method) : ∃ k, found = some k := by
  rw [classify, hkind] at h
  dsimp only at h
  split at h
  next =>
    obtain ⟨separate, -, h₁⟩ := Refusal.bind_eq_ok.mp h
    exact ⟨_, (Refusal.pure_eq_ok.mp h₁).symm⟩
  next => exact ⟨_, (Except.ok.inj h).symm⟩

theorem Reads.exists_classify (hr : Reads rules m owner t) (he : e ∈ m.membersOf owner) :
    ∃ found, classify rules owner e = .ok found := by
  obtain ⟨o, ho⟩ := (Refusal.filterMapM_eq_ok.mp hr.own).1 e he
  obtain ⟨found, hfound, -⟩ := Refusal.bind_eq_ok.mp ho
  exact ⟨found, hfound⟩

theorem Reads.exists_visible_iff (hr : Reads rules m owner t) (he : e ∈ m.membersOf owner)
    (hkind : e.kind = .method) : (∃ k, e ∈ t.visible k) ↔ m.Documents e := by
  obtain ⟨found, hfound⟩ := hr.exists_classify he
  obtain ⟨k, rfl⟩ := exists_kind_of_method hfound hkind
  constructor
  · rintro ⟨k', hk'⟩
    exact (hr.mem_visible_iff.mp hk').2
  · intro hdocuments
    exact ⟨k, hr.mem_visible_iff.mpr ⟨mem_declared_iff.mpr ⟨he, hfound⟩, hdocuments⟩⟩

/-- An accessor is shown under some kind where it is documented, and its uid stands for it alone. -/
theorem accessor_shown_iff (ht : read rules m owner = .ok t) (h : t.IsAccessor p e) :
    (∃ k, ∃ x ∈ t.visible k, x.uid = e.uid) ↔ m.Documents e := by
  obtain ⟨he, hkind⟩ := mem_membersOf_of_isAccessor ht h
  rw [← (reads_of_read ht).exists_visible_iff he hkind]
  refine exists_congr fun k => ⟨fun ⟨x, hx, huid⟩ => ?_, fun hk => ⟨e, hk, rfl⟩⟩
  have hxmem := mem_membersOf_of_mem_visible ht hx
  rwa [← Catalog.eq_of_uid_eq (Model.mem_membersOf_iff.mp hxmem).1
    (Model.mem_membersOf_iff.mp he).1 huid]

end Table

namespace Builder

variable {b : Builder} {m : Model} {targets : Targets} {messages : Value} {rules : Table.Rules}
  {owner e x : Element} {o o' : Overlay} {r : Record} {tag : Tag}

/-! ### The references that the synthesis adds -/

/-- A reference in the record of a member that the synthesis has put there: the member is documented
from a source, so that nothing else is left of its own tags. -/
structure AddsReference (b : Builder) (e : Element) (r : Record) (tag : Tag) : Prop where
  source : (b.sources.find? e.uid).isSome = true
  mem : tag ∈ r.tags
  name : tag.name = "see"

/-- The synthesis refers from a member to an accessor: the member is documented from a source, and
its name is that of a property method. -/
structure Refers (b : Builder) (e x : Element) : Prop where
  source : (b.sources.find? e.uid).isSome = true
  role : b.naming.role e = .ok .property
  accessor : b.table.IsAccessor e x

/-- What is kept of a source is no reference. -/
theorem name_ne_of_mem_keptTags {c : Comment} (h : tag ∈ keptTags c) : tag.name ≠ "see" := by
  rcases List.mem_append.mp h with hsince | hdefault
  · have hname : tag.name = "since" := by simpa using (List.mem_filter.mp hsince).2
    rw [hname]
    decide
  · have hname : tag.name = defaultValueTag := by
      simpa using (Bool.and_eq_true_iff.mp (List.mem_filter.mp hdefault).2).2
    rw [hname]
    decide

theorem name_ne_of_mem_accessorComment {key : String} {c w : Comment}
    (h : b.accessorComment key e c = .ok w) (htag : tag ∈ w.tags) : tag.name ≠ "see" := by
  obtain ⟨name, -, h₁⟩ := Refusal.bind_eq_ok.mp h
  obtain ⟨sentence, -, h₂⟩ := Refusal.bind_eq_ok.mp h₁
  obtain rfl := Refusal.pure_eq_ok.mp h₂
  rcases List.mem_append.mp htag with hdescription | hkept
  · split at hdescription
    next =>
      rw [List.mem_singleton.mp hdescription]
      show descriptionTag ≠ "see"
      decide
    next => cases hdescription
  · exact name_ne_of_mem_keptTags hkept

theorem of_setterTag (h : setterTag x = .ok tag) :
    tag.name = "see" ∧ tag.reference = some x.uid := by
  unfold setterTag at h
  split at h
  next => cases h
  next =>
    obtain rfl := Except.ok.inj h
    exact ⟨rfl, rfl⟩

/-- The references of a property method lead to its accessors, and to each of them. -/
theorem mem_accessorTags {tags : List Tag} (h : b.accessorTags e = .ok tags) :
    (∀ tag ∈ tags, tag.name = "see" ∧ ∃ x, b.table.IsAccessor e x ∧ tag.reference = some x.uid) ∧
      ∀ x, b.table.IsAccessor e x → ∃ tag ∈ tags, tag.reference = some x.uid := by
  obtain ⟨setters, hsetters, h₁⟩ := Refusal.bind_eq_ok.mp h
  obtain rfl := Refusal.pure_eq_ok.mp h₁
  constructor
  · intro tag htag
    rcases List.mem_append.mp htag with hgetter | hsetter
    · obtain ⟨x, hx, rfl⟩ := List.mem_map.mp hgetter
      exact ⟨rfl, x, .inl (Option.mem_toList.mp hx), rfl⟩
    · obtain ⟨x, hx, hstep⟩ := (Refusal.mem_iff_of_mapM_eq_ok hsetters).mp hsetter
      obtain ⟨hname, hreference⟩ := of_setterTag hstep
      exact ⟨hname, x, .inr (Option.mem_toList.mp hx), hreference⟩
  · rintro x (hgetter | hsetter)
    · exact ⟨getterTag x, List.mem_append_left _
        (List.mem_map_of_mem (Option.mem_toList.mpr hgetter)), rfl⟩
    · have hx := Option.mem_toList.mpr hsetter
      obtain ⟨tag, hstep⟩ := Refusal.returns_of_mapM hsetters x hx
      exact ⟨tag, List.mem_append_right _
        ((Refusal.mem_iff_of_mapM_eq_ok hsetters).mpr ⟨x, hx, hstep⟩), (of_setterTag hstep).2⟩

/-- The record of a member with a source has the tags that are made from the source. -/
theorem tags_of_synthesize (h : b.synthesize o e = .ok (r, o')) {s : Element}
    (hs : b.sources.find? e.uid = some s) :
    ∃ w, b.propertyComment e s = .ok w ∧ r.tags = w.tags := by
  obtain ⟨c, hc, rfl, -⟩ := synthesize_iff.mp h
  obtain ⟨w, hw, rfl⟩ := (commentFor_of_source hs).mp hc
  refine ⟨w, hw, ?_⟩
  show (((o.install e w).comment? e).getD .empty).tags = w.tags
  rw [Overlay.comment?_install_self]
  rfl

/-- The references in a comment that is made from a source are those of a property method. -/
theorem reference_of_propertyComment_iff {s : Element} {w : Comment}
    (h : b.propertyComment e s = .ok w) : tag ∈ w.tags ∧ tag.name = "see" ↔
      b.naming.role e = .ok .property ∧ ∃ tags, b.accessorTags e = .ok tags ∧ tag ∈ tags := by
  obtain ⟨role, hrole, h₁⟩ := Refusal.bind_eq_ok.mp h
  have hnone : ∀ key, role ≠ .property →
      b.accessorComment key e (s.comment.getD .empty) = .ok w →
      (tag ∈ w.tags ∧ tag.name = "see" ↔
        b.naming.role e = .ok .property ∧ ∃ tags, b.accessorTags e = .ok tags ∧ tag ∈ tags) := by
    intro key hnot hcomment
    refine iff_of_false ?_ ?_
    · exact fun ⟨hmem, hname⟩ => name_ne_of_mem_accessorComment hcomment hmem hname
    · exact fun ⟨hproperty, _⟩ => hnot (Except.ok.inj (hrole.symm.trans hproperty))
  cases role with
  | getter => exact hnone _ (by decide) h₁
  | setter => exact hnone _ (by decide) h₁
  | property =>
      obtain ⟨tags, htags, h₂⟩ := Refusal.bind_eq_ok.mp h₁
      obtain rfl := Refusal.pure_eq_ok.mp h₂
      constructor
      · rintro ⟨hmem, hname⟩
        rcases List.mem_append.mp hmem with hkept | hadded
        · exact absurd hname (name_ne_of_mem_keptTags hkept)
        · exact ⟨hrole, tags, htags, hadded⟩
      · rintro ⟨-, tags', htags', hmem⟩
        obtain rfl := Except.ok.inj (htags.symm.trans htags')
        exact ⟨List.mem_append_right _ hmem, ((mem_accessorTags htags).1 tag hmem).1⟩

/-- What the synthesis adds leads to an accessor. -/
theorem AddsReference.exists_refers (h : b.synthesize o e = .ok (r, o'))
    (hadds : b.AddsReference e r tag) : ∃ x, b.Refers e x ∧ tag.reference = some x.uid := by
  obtain ⟨s, hs⟩ := Option.isSome_iff_exists.mp hadds.source
  obtain ⟨w, hw, htags⟩ := tags_of_synthesize h hs
  obtain ⟨hrole, tags, haccessors, hmem⟩ :=
    (reference_of_propertyComment_iff hw).mp ⟨htags ▸ hadds.mem, hadds.name⟩
  obtain ⟨-, x, hx, hreference⟩ := (mem_accessorTags haccessors).1 tag hmem
  exact ⟨x, ⟨hadds.source, hrole, hx⟩, hreference⟩

/-- No accessor is left out. -/
theorem Refers.exists_addsReference (hb : ofType m targets messages rules owner = .ok b)
    (h : b.synthesize o e = .ok (r, o')) (hrefers : b.Refers e x) :
    ∃ tag, b.AddsReference e r tag ∧ tag.reference = some x.uid := by
  obtain ⟨s, hs⟩ := Option.isSome_iff_exists.mp hrefers.source
  obtain ⟨w, hw, htags⟩ := tags_of_synthesize h hs
  obtain ⟨tags, haccessors⟩ := accessorTags_returns hb e
  obtain ⟨tag, hmem, hreference⟩ := (mem_accessorTags haccessors).2 x hrefers.accessor
  obtain ⟨hmem', hname⟩ :=
    (reference_of_propertyComment_iff hw).mpr ⟨hrefers.role, tags, haccessors, hmem⟩
  exact ⟨tag, ⟨hrefers.source, htags ▸ hmem', hname⟩, hreference⟩

/-- The comment of a property method can always be made, so the method can be synthesised. -/
theorem Refers.exists_synthesize (hb : ofType m targets messages rules owner = .ok b)
    (hrefers : b.Refers e x) (o : Overlay) : ∃ r o', b.synthesize o e = .ok (r, o') := by
  obtain ⟨s, hs⟩ := Option.isSome_iff_exists.mp hrefers.source
  obtain ⟨tags, htags⟩ := accessorTags_returns hb e
  have hw : ∃ w, b.propertyComment e s = .ok w :=
    ⟨_, Refusal.bind_eq_ok.mpr ⟨.property, hrefers.role, Refusal.bind_eq_ok.mpr ⟨tags, htags, rfl⟩⟩⟩
  obtain ⟨w, hw⟩ := hw
  exact Builder.exists_synthesize ((commentFor_of_source hs).mpr ⟨w, hw, rfl⟩) o

/-- **The references that the synthesis adds lead to members that the type shows just in case the
accessors that it refers to are documented.** -/
theorem references_shown_iff (hb : ofType m targets messages rules owner = .ok b)
    (h : b.synthesize o e = .ok (r, o')) :
    (∀ tag, b.AddsReference e r tag → ∃ k, ∃ x ∈ b.table.visible k, tag.reference = some x.uid) ↔
      ∀ x, b.Refers e x → m.Documents x := by
  have ht := (of_ofType hb).2.2.2.1
  constructor
  · intro hshown x hrefers
    obtain ⟨tag, hadds, hreference⟩ := hrefers.exists_addsReference hb h
    obtain ⟨k, y, hy, hy'⟩ := hshown tag hadds
    exact (Table.accessor_shown_iff ht hrefers.accessor).mp
      ⟨k, y, hy, Option.some.inj (hy'.symm.trans hreference)⟩
  · intro hdocumented tag hadds
    obtain ⟨x, hrefers, hreference⟩ := hadds.exists_refers h
    obtain ⟨k, y, hy, huid⟩ :=
      (Table.accessor_shown_iff ht hrefers.accessor).mpr (hdocumented x hrefers)
    exact ⟨k, y, hy, by rw [hreference, huid]⟩

/-! ### Fans

A fan has a public property method and a getter, whose access is a parameter.
-/

/-- The class of fans. -/
def fan : Element := Table.sampleType .classType "Fan" none []

/-- The property method of the speed. -/
def speed : Element :=
  { Table.sampleMethod "Fan" "speedProperty" "public" [] with
    comment := some { body := "The speed." } }

/-- The getter of the speed. -/
def getSpeed (access : String) : Element :=
  Table.sampleMethod "Fan" "getSpeed" access []

/-- Fans. -/
def fans (access : String) : Model where
  elements := [fan, speed, getSpeed access]
  distinct_uids := by
    show ["Fan", "Fan.speedProperty", "Fan.getSpeed"].Nodup
    decide
  minAccess := .text "protected"
  external := []

/-- The table of fans. -/
def fanTable (access : String) : Table :=
  ⟨fans access, .standard, fan, .protectedOnly,
    [(.properties, speed), (.methods, getSpeed access)], [],
    [(speed, ⟨none, some (getSpeed access), none⟩)]⟩

/-- The builder of fans. -/
def fanBuilder (access : String) : Builder where
  model := fans access
  targets := []
  messages := boxMessages
  naming := .standard
  table := fanTable access
  sources := Sources.ofTable (fanTable access)

theorem ofType_fan (access : String) (haccess : access ∈ ["private", "public"]) :
    ofType (fans access) [] boxMessages ⟨.standard, true⟩ fan = .ok (fanBuilder access) := by
  have hancestors : (fans access).ancestors fan = [] := by cbv
  have hown : ∀ access ∈ ["private", "public"],
      (Table.classifyAll ⟨.standard, true⟩ (fans access) fan).toOption =
        some [(.properties, speed), (.methods, getSpeed access)] := by decide +kernel
  have hmembers : Table.readMembers ⟨.standard, true⟩ (fans access) fan =
      .ok { fanTable access with accessors := [] } := by
    unfold Table.readMembers
    rw [Refusal.toOption_eq_some_iff.mp (hown access haccess), hancestors]
    rfl
  have hfound : ∀ access ∈ ["private", "public"],
      (Table.findAccessors .standard ((fans access).membersOf fan) speed).toOption =
        some ⟨none, some (getSpeed access), none⟩ := by decide +kernel
  have hvisible : ∀ access ∈ ["private", "public"],
      ({ fanTable access with accessors := [] } : Table).visible .properties = [speed] := by
    decide +kernel
  have haccessors : (({ fanTable access with accessors := [] } : Table).visible .properties).mapM
      (fun p => do
        return (p, ← Table.findAccessors .standard ((fans access).membersOf fan) p)) =
      Except.ok [(speed, ⟨none, some (getSpeed access), none⟩)] := by
    rw [hvisible access haccess, Refusal.mapM_eq_ok]
    exact .cons (Refusal.bind_eq_ok.mpr
      ⟨_, Refusal.toOption_eq_some_iff.mp (hfound access haccess), rfl⟩) .nil
  exact Refusal.bind_eq_ok.mpr ⟨fanTable access, Refusal.bind_eq_ok.mpr ⟨_, hmembers,
    Refusal.bind_eq_ok.mpr ⟨_, haccessors, rfl⟩⟩, rfl⟩

/-- The synthesis refers from the speed to its getter. -/
theorem refers_fan (access : String) (haccess : access ∈ ["private", "public"]) :
    (fanBuilder access).Refers speed (getSpeed access) := by
  have hfind : ∀ access ∈ ["private", "public"],
      ((fanBuilder access).sources.find? speed.uid).isSome = true := by decide +kernel
  have hgetter : ∀ access ∈ ["private", "public"],
      (fanBuilder access).table.getter? speed = some (getSpeed access) := by
    decide +kernel
  have hrole : (fanBuilder access).naming.role speed = .ok .property := by cbv
  exact ⟨hfind access haccess, hrole, .inl (hgetter access haccess)⟩

theorem references_shown_fan :
    ofType (fans "public") [] boxMessages ⟨.standard, true⟩ fan = .ok (fanBuilder "public") ∧
    ∃ r o, (fanBuilder "public").synthesize {} speed = .ok (r, o) ∧
      (∃ tag, (fanBuilder "public").AddsReference speed r tag) ∧
      ∀ tag, (fanBuilder "public").AddsReference speed r tag →
        ∃ k, ∃ x ∈ (fanBuilder "public").table.visible k, tag.reference = some x.uid := by
  have hb := ofType_fan "public" (by decide)
  have hrefers := refers_fan "public" (by decide)
  obtain ⟨r, o, h⟩ := hrefers.exists_synthesize hb {}
  obtain ⟨tag, hadds, -⟩ := hrefers.exists_addsReference hb h
  refine ⟨hb, r, o, h, ⟨tag, hadds⟩, (references_shown_iff hb h).mpr fun x hrefers => ?_⟩
  have hmem := (Table.mem_membersOf_of_isAccessor (of_ofType hb).2.2.2.1 hrefers.accessor).1
  have hdocuments : ∀ x ∈ (fans "public").membersOf fan, (fans "public").Documents x := by
    decide +kernel
  exact hdocuments x hmem

/-- The speed refers to a private getter, which fans do not show. -/
theorem getter_hidden_fan :
    ofType (fans "private") [] boxMessages ⟨.standard, true⟩ fan = .ok (fanBuilder "private") ∧
    ∃ r o, (fanBuilder "private").synthesize {} speed = .ok (r, o) ∧
      ∃ tag, (fanBuilder "private").AddsReference speed r tag ∧
        tag.reference = some "Fan.getSpeed" ∧
        ∀ k, ∀ x ∈ (fanBuilder "private").table.visible k, x.uid ≠ "Fan.getSpeed" := by
  have hb := ofType_fan "private" (by decide)
  have hrefers := refers_fan "private" (by decide)
  obtain ⟨r, o, h⟩ := hrefers.exists_synthesize hb {}
  obtain ⟨tag, hadds, hreference⟩ := hrefers.exists_addsReference hb h
  have hnot : ¬(fans "private").Documents (getSpeed "private") := by decide +kernel
  refine ⟨hb, r, o, h, tag, hadds, hreference, fun k x hx huid => hnot ?_⟩
  exact (Table.accessor_shown_iff (of_ofType hb).2.2.2.1 hrefers.accessor).mp ⟨k, x, hx, huid⟩

end Builder

end TypePages
