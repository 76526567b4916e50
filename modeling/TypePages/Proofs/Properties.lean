import TypePages.Member.Sources
import TypePages.Proofs.Hiding

/-!
Which members belong to a property, and where they are documented from.

Everything that is found for a property is a member of the same type, a field or a method with a
fixed number of parameters.  Fields and methods are told apart by their kind, so that a member with
a comment can be the source of its own documentation in one way only: as a property method without a
field, or whose field has no comment.  `Table.DocumentsItself` says so without the list of sources.

The list of sources is told once, by `Table.mem_entries_iff`: who belongs to a property, what the
property is documented from, and whose comment stays.  A look-up finds one of the entries, so
whatever holds of every entry holds of what is found, in whatever order they were written.
-/

namespace TypePages

namespace Table

variable {rules : Rules} {m : Model} {owner e p x : Element} {t : Table}

/-! ### Fields and accessors -/

theorem of_findMethod? {members : List Element} {names : List String} {arity : Nat}
    (h : findMethod? members names arity = some e) :
    e.name ∈ names ∧ e ∈ members ∧ e.kind = .method ∧ e.parameters.length = arity := by
  obtain ⟨name, hname, hfind⟩ := List.exists_of_findSome?_eq_some h
  have hp := List.find?_some hfind
  simp only [Bool.and_eq_true, beq_iff_eq] at hp
  exact ⟨hp.1.2 ▸ hname, List.mem_of_find?_eq_some hfind, hp.1.1, hp.2⟩

/-- What is found for a property is looked for under the names that its own name gives. -/
theorem findAccessors_eq_ok {n : Naming} {members : List Element} {found : Accessors} :
    findAccessors n members p = .ok found ↔ ∃ base getters setters,
      n.baseName p = .ok base ∧ n.getterNames base = .ok getters ∧
      n.setterNames base = .ok setters ∧
      found.field = (members.find? fun e => e.kind == .field && e.name == base) ∧
      found.getter = findMethod? members getters 0 ∧
      found.setter = findMethod? members setters 1 := by
  unfold findAccessors
  simp only [Refusal.bind_eq_ok, Refusal.pure_eq_ok]
  constructor
  · rintro ⟨base, hbase, getters, hgetters, setters, hsetters, rfl⟩
    exact ⟨base, getters, setters, hbase, hgetters, hsetters, rfl, rfl, rfl⟩
  · rintro ⟨base, getters, setters, hbase, hgetters, hsetters, hfield, hgetter, hsetter⟩
    refine ⟨base, hbase, getters, hgetters, setters, hsetters, ?_⟩
    rw [← hfield, ← hgetter, ← hsetter]

/-- What was found for a property is among the members of its type. -/
structure FoundAmong (members : List Element) (found : Accessors) : Prop where
  field : ∀ f, found.field = some f → f ∈ members ∧ f.kind = .field
  getter : ∀ g, found.getter = some g → g ∈ members ∧ g.kind = .method ∧ g.parameters.length = 0
  setter : ∀ s, found.setter = some s → s ∈ members ∧ s.kind = .method ∧ s.parameters.length = 1

theorem foundAmong_of_findAccessors {n : Naming} {members : List Element} {found : Accessors}
    (h : findAccessors n members p = .ok found) : FoundAmong members found := by
  obtain ⟨base, getters, setters, -, -, -, hfield, hgetter, hsetter⟩ := findAccessors_eq_ok.mp h
  refine ⟨fun f hf => ?_, fun g hg => (of_findMethod? (hgetter.symm.trans hg)).2,
    fun s hs => (of_findMethod? (hsetter.symm.trans hs)).2⟩
  rw [hfield] at hf
  have hp := List.find?_some hf
  simp only [Bool.and_eq_true, beq_iff_eq] at hp
  exact ⟨List.mem_of_find?_eq_some hf, hp.1⟩

/-- Whoever finds the accessors of a property has gone through all prefixes. -/
theorem allTexts_of_findAccessors {n : Naming} {members : List Element} {found : Accessors}
    (h : findAccessors n members p = .ok found) :
    Naming.AllTexts n.getterPrefixes ∧ Naming.AllTexts n.setterPrefixes := by
  obtain ⟨base, getters, setters, -, hgetters, hsetters, -⟩ := findAccessors_eq_ok.mp h
  exact ⟨Naming.allTexts_of_prefixed hgetters, Naming.allTexts_of_prefixed hsetters⟩

theorem kind_of_mem_declared_properties (h : e ∈ declared rules m .properties owner) :
    e.kind = .method := by
  have hclass := (mem_declared_iff.mp h).2
  unfold classify at hclass
  cases hkind : e.kind with
  | method => rfl
  | field =>
      simp only [hkind, Except.ok.injEq, Option.some.injEq] at hclass
      split at hclass <;> cases hclass
  | annotationElement =>
      simp only [hkind, Except.ok.injEq, Option.some.injEq] at hclass
      split at hclass <;> cases hclass
  | _ => simp [hkind] at hclass

/-! ### The properties that a table knows -/

theorem mem_membersOf_of_mem_visible {k : Member.Kind} (ht : read rules m owner = .ok t)
    (h : e ∈ t.visible k) : e ∈ m.membersOf owner :=
  (mem_declared_iff.mp ((reads_of_read ht).mem_visible_iff.mp h).1).1

theorem mem_visible_of_mem_accessors (ht : read rules m owner = .ok t) {found : Accessors}
    (h : (p, found) ∈ t.accessors) : p ∈ t.visible .properties := by
  rw [← (accessors_of_read ht).1]
  exact List.mem_map_of_mem (f := (·.1)) h

theorem foundAmong_of_mem_accessors (ht : read rules m owner = .ok t) {found : Accessors}
    (h : (p, found) ∈ t.accessors) : FoundAmong (m.membersOf owner) found :=
  foundAmong_of_findAccessors ((accessors_of_read ht).2 _ h)

theorem nodup_accessors (ht : read rules m owner = .ok t) :
    (t.accessors.map (·.1.uid)).Nodup := by
  have hr := reads_of_read ht
  have hvisible : ((t.visible .properties).map (·.uid)).Nodup :=
    (hr.nodup_allVisible .properties).sublist ((List.sublist_append_left _ _).map _)
  rwa [← (accessors_of_read ht).1, List.map_map] at hvisible

/-- A property method is known with the accessors that were found for it. -/
theorem accessorsOf?_eq_some_iff (ht : read rules m owner = .ok t) {found : Accessors}
    (hp : p ∈ t.visible .properties) :
    t.accessorsOf? p = some found ↔ (p, found) ∈ t.accessors := by
  unfold accessorsOf?
  constructor
  · intro h
    obtain ⟨q, hq, rfl⟩ := Option.map_eq_some_iff.mp h
    have huid := List.find?_some hq
    have hmem := List.mem_of_find?_eq_some hq
    have hqp : q.1 = p := Catalog.eq_of_uid_eq
      ((Model.mem_membersOf_iff.mp (mem_membersOf_of_mem_visible ht
        (mem_visible_of_mem_accessors ht hmem))).1)
      ((Model.mem_membersOf_iff.mp (mem_membersOf_of_mem_visible ht hp)).1) (by simpa using huid)
    rwa [← hqp]
  · intro h
    have hsome : (t.accessors.find? (·.1.uid == p.uid)).isSome :=
      List.find?_isSome.mpr ⟨_, h, by simp⟩
    obtain ⟨q, hq⟩ := Option.isSome_iff_exists.mp hsome
    have huid : q.1.uid = p.uid := by simpa using List.find?_some hq
    have heq : q = (p, found) :=
      List.inj_on_of_nodup_map (nodup_accessors ht) (List.mem_of_find?_eq_some hq) h huid
    rw [hq, heq]
    rfl

/-- A setter has one parameter. -/
theorem parameters_of_setter? (ht : read rules m owner = .ok t) {s : Element}
    (h : t.setter? p = some s) : ∃ parameter, s.parameters = [parameter] := by
  obtain ⟨found, hfound, hsetter⟩ := Option.bind_eq_some_iff.mp h
  obtain ⟨q, hq, rfl⟩ := Option.map_eq_some_iff.mp hfound
  have hamong := foundAmong_of_mem_accessors ht (List.mem_of_find?_eq_some hq)
  exact List.length_eq_one_iff.mp (hamong.setter s hsetter).2.2

theorem exists_accessors (ht : read rules m owner = .ok t) (hp : p ∈ t.visible .properties) :
    ∃ found, (p, found) ∈ t.accessors := by
  rw [← (accessors_of_read ht).1] at hp
  obtain ⟨q, hq, rfl⟩ := List.mem_map.mp hp
  exact ⟨q.2, hq⟩

/-- What is found for a property method that the type shows is what the table finds for it. -/
theorem accessorsOf?_of_mem (ht : read rules m owner = .ok t) {found : Accessors}
    (h : (p, found) ∈ t.accessors) : t.accessorsOf? p = some found :=
  (accessorsOf?_eq_some_iff ht (mem_visible_of_mem_accessors ht h)).mpr h

/-- What the table knows as an accessor of a property method. -/
def IsAccessor (t : Table) (p e : Element) : Prop := t.getter? p = some e ∨ t.setter? p = some e

theorem mem_membersOf_of_isAccessor (ht : read rules m owner = .ok t) (h : t.IsAccessor p e) :
    e ∈ m.membersOf owner ∧ e.kind = .method := by
  have hamong : ∀ {found}, t.accessorsOf? p = some found → FoundAmong (m.membersOf owner) found :=
    fun hfound => by
      obtain ⟨q, hq, rfl⟩ := Option.map_eq_some_iff.mp hfound
      exact foundAmong_of_mem_accessors ht (List.mem_of_find?_eq_some hq)
  rcases h with hgetter | hsetter
  · obtain ⟨found, hfound, hg⟩ := Option.bind_eq_some_iff.mp hgetter
    exact ⟨((hamong hfound).getter e hg).1, ((hamong hfound).getter e hg).2.1⟩
  · obtain ⟨found, hfound, hs⟩ := Option.bind_eq_some_iff.mp hsetter
    exact ⟨((hamong hfound).setter e hs).1, ((hamong hfound).setter e hs).2.1⟩

/-- A member of the family of a property: a property method that the type shows, or an accessor of
one. -/
structure BelongsTo (t : Table) (p e : Element) : Prop where
  visible : p ∈ t.visible .properties
  member : e = p ∨ t.IsAccessor p e

theorem BelongsTo.mem_membersOf (ht : read rules m owner = .ok t) (h : t.BelongsTo p e) :
    e ∈ m.membersOf owner ∧ e.kind = .method := by
  rcases h.member with rfl | haccessor
  · exact ⟨mem_membersOf_of_mem_visible ht h.visible,
      kind_of_mem_declared_properties ((reads_of_read ht).mem_visible_iff.mp h.visible).1⟩
  · exact mem_membersOf_of_isAccessor ht haccessor

/-! ### Sources -/

/-- A property method is documented from itself: the type shows it, and there is no field behind it
or only one without a comment. -/
structure DocumentsItself (t : Table) (e : Element) : Prop where
  visible : e ∈ t.visible .properties
  field : ∀ f, t.field? e = some f → f.comment = none

/-- What a property is documented from: the field behind it if that has a comment, else the property
method. -/
inductive SourceOf (t : Table) (p : Element) : Element → Prop
  | field {f : Element} (h : t.field? p = some f) (hcomment : f.comment ≠ none) : SourceOf t p f
  | itself (h : ∀ f, t.field? p = some f → f.comment = none) : SourceOf t p p

theorem sourceOf_iff (ht : read rules m owner = .ok t) {found : Accessors}
    (h : (p, found) ∈ t.accessors) : t.SourceOf p x ↔ x = Sources.sourceOf p found := by
  have hfield : t.field? p = found.field := by
    rw [field?, accessorsOf?_of_mem ht h]
    rfl
  unfold Sources.sourceOf
  constructor
  · rintro (⟨hf, hcomment⟩ | hnone)
    · rw [← hfield, hf]
      simp [Option.isSome_iff_ne_none.mpr hcomment]
    · rw [← hfield]
      cases hf : t.field? p with
      | none => rfl
      | some f => simp [hnone f hf]
  · rintro rfl
    rw [← hfield]
    cases hf : t.field? p with
    | none => exact .itself (by simp [hf])
    | some f =>
        dsimp only
        split
        next hcomment => exact .field hf (Option.isSome_iff_ne_none.mp hcomment)
        next hcomment =>
          refine .itself fun f' hf' => ?_
          rw [← Option.some.inj (hf.symm.trans hf')]
          exact Option.not_isSome_iff_eq_none.mp hcomment

theorem SourceOf.mem_membersOf (ht : read rules m owner = .ok t) (hp : p ∈ t.visible .properties)
    (h : t.SourceOf p x) : x ∈ m.membersOf owner := by
  cases h with
  | field hf hcomment =>
      obtain ⟨found, hfound, hfield⟩ := Option.bind_eq_some_iff.mp hf
      have hmem := (accessorsOf?_eq_some_iff ht hp).mp hfound
      exact ((foundAmong_of_mem_accessors ht hmem).field x hfield).1
  | itself => exact mem_membersOf_of_mem_visible ht hp

theorem eq_of_uid_eq (he : e ∈ m.membersOf owner) (hx : x ∈ m.membersOf owner)
    (h : e.uid = x.uid) : e = x :=
  Catalog.eq_of_uid_eq (Model.mem_membersOf_iff.mp he).1 (Model.mem_membersOf_iff.mp hx).1 h

theorem mem_entriesOf_iff {uid : String} {found : Accessors} :
    (uid, x) ∈ Sources.entriesOf p found ↔ x = Sources.sourceOf p found ∧
      ∃ e, (e = p ∨ found.getter = some e ∨ found.setter = some e) ∧
        (e.comment = none ∨ e.uid = x.uid) ∧ e.uid = uid := by
  unfold Sources.entriesOf
  simp only [List.mem_map, List.mem_filter, List.mem_cons, List.mem_append, Option.mem_toList,
    Bool.or_eq_true, beq_iff_eq, Option.isNone_iff_eq_none, Prod.mk.injEq]
  constructor
  · rintro ⟨e, ⟨hmember, hcomment⟩, huid, rfl⟩
    exact ⟨rfl, e, hmember, hcomment, huid⟩
  · rintro ⟨rfl, e, hmember, hcomment, huid⟩
    exact ⟨e, ⟨hmember, hcomment⟩, huid, rfl⟩

/-- The family of each property is documented from the source of the property, but for members with
a comment that are not the source. -/
theorem mem_entries_iff (ht : read rules m owner = .ok t) {uid : String} :
    (uid, x) ∈ (Sources.ofTable t).entries ↔ ∃ p e, t.BelongsTo p e ∧ t.SourceOf p x ∧
      (e.comment = none ∨ e = x) ∧ e.uid = uid := by
  have hmember : ∀ {p e found}, (p, found) ∈ t.accessors →
      ((e = p ∨ found.getter = some e ∨ found.setter = some e) ↔ e = p ∨ t.IsAccessor p e) := by
    intro p e found hfound
    rw [IsAccessor, getter?, setter?, accessorsOf?_of_mem ht hfound]
    exact Iff.rfl
  constructor
  · intro h
    obtain ⟨⟨p, found⟩, hfound, hentry⟩ := List.mem_flatMap.mp h
    obtain ⟨hx, e, he, hcomment, huid⟩ := mem_entriesOf_iff.mp hentry
    have hbelongs : t.BelongsTo p e :=
      ⟨mem_visible_of_mem_accessors ht hfound, (hmember hfound).mp he⟩
    have hsource := (sourceOf_iff ht hfound).mpr hx
    exact ⟨p, e, hbelongs, hsource, hcomment.imp_right (eq_of_uid_eq (hbelongs.mem_membersOf ht).1
      (hsource.mem_membersOf ht hbelongs.visible)), huid⟩
  · rintro ⟨p, e, hbelongs, hsource, hcomment, huid⟩
    obtain ⟨found, hfound⟩ := exists_accessors ht hbelongs.visible
    refine List.mem_flatMap.mpr ⟨_, hfound, mem_entriesOf_iff.mpr
      ⟨(sourceOf_iff ht hfound).mp hsource, e, (hmember hfound).mpr hbelongs.member, ?_, huid⟩⟩
    exact hcomment.imp_right (congrArg Element.uid)

/-- A member with a comment is documented from itself or not at all. -/
theorem mem_entries_of_comment (ht : read rules m owner = .ok t) (he : e ∈ m.membersOf owner)
    (hcomment : e.comment ≠ none) :
    (e.uid, x) ∈ (Sources.ofTable t).entries ↔ x = e ∧ t.DocumentsItself e := by
  rw [mem_entries_iff ht]
  constructor
  · rintro ⟨p, e', hbelongs, hsource, hor, huid⟩
    obtain ⟨he', hkind⟩ := hbelongs.mem_membersOf ht
    obtain rfl := eq_of_uid_eq he' he huid
    obtain rfl := hor.resolve_left hcomment
    cases hsource with
    | itself hnone => exact ⟨rfl, hbelongs.visible, hnone⟩
    | field hf =>
        -- A field is no method.
        obtain ⟨found, hfound, hfield⟩ := Option.bind_eq_some_iff.mp hf
        have hmem := (accessorsOf?_eq_some_iff ht hbelongs.visible).mp hfound
        rw [((foundAmong_of_mem_accessors ht hmem).field e' hfield).2] at hkind
        cases hkind
  · rintro ⟨rfl, hself⟩
    exact ⟨x, x, ⟨hself.visible, .inl rfl⟩, .itself hself.field, .inr rfl, rfl⟩

theorem mem_entries_of_find? {s : Sources} {uid : String} {source : Element}
    (h : s.find? uid = some source) : (uid, source) ∈ s.entries := by
  obtain ⟨before, after, hsplit, -⟩ := List.lookup_eq_some_iff.mp h
  have hmem : (uid, source) ∈ s.entries.reverse := by
    rw [hsplit]
    simp
  exact List.mem_reverse.mp hmem

theorem mem_keys_iff {s : Sources} {uid : String} : uid ∈ s.keys ↔ ∃ x, (uid, x) ∈ s.entries := by
  rw [Sources.keys, List.mem_eraseDups, List.mem_map]
  constructor
  · rintro ⟨⟨uid, x⟩, hentry, rfl⟩
    exact ⟨x, hentry⟩
  · rintro ⟨x, hentry⟩
    exact ⟨_, hentry, rfl⟩

theorem find?_isSome_iff {s : Sources} {uid : String} :
    (s.find? uid).isSome = true ↔ uid ∈ s.keys := by
  rw [Sources.find?, List.lookup_isSome_iff, mem_keys_iff]
  simp only [List.mem_reverse, beq_iff_eq]
  constructor
  · rintro ⟨⟨uid, x⟩, hentry, rfl⟩
    exact ⟨x, hentry⟩
  · rintro ⟨x, hentry⟩
    exact ⟨_, hentry, rfl⟩

/-- The source of a member with a comment. -/
theorem find?_source_of_comment (ht : read rules m owner = .ok t) (he : e ∈ m.membersOf owner)
    (hcomment : e.comment ≠ none) (source : Element) :
    (Sources.ofTable t).find? e.uid = some source ↔ source = e ∧ t.DocumentsItself e := by
  constructor
  · intro h
    exact (mem_entries_of_comment ht he hcomment).mp (mem_entries_of_find? h)
  · intro hself
    have hentry := (mem_entries_of_comment ht he hcomment).mpr hself
    obtain ⟨x, hx⟩ := Option.isSome_iff_exists.mp
      (find?_isSome_iff.mpr (mem_keys_iff.mpr ⟨_, hentry⟩))
    rw [hx, hself.1, ((mem_entries_of_comment ht he hcomment).mp (mem_entries_of_find? hx)).1]

end Table

end TypePages
