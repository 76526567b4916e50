import TypePages.Proofs.Ancestry
import TypePages.Proofs.Naming

/-!
What a table holds once it has been read.

`Table.read` asks the settings only where they are needed, so a table says little about itself: its
least level, for one, means nothing where there was no member to compare it with.  `Reads` collects
what a successful reading promises, and the lemmas after it restate the lists of a table by the
model alone.  `declared` is what a type declares of a kind, `Model.Documents` says whether a
member's own access reaches the least level, and `HandsDown` whether a supertype passes a member on.
Proofs about tables start from those and do not open the reading again.
-/

namespace TypePages

/-- The least level that is documented makes sense, and a member's own access reaches it. -/
def Model.Documents (m : Model) (e : Element) : Prop :=
  ∃ least, m.threshold = .ok least ∧ least ≤ e.level

theorem Model.documents_iff {m : Model} {least : Access} (h : m.threshold = .ok least)
    (e : Element) : m.Documents e ↔ least ≤ e.level := by
  simp [Model.Documents, h]

instance (m : Model) (e : Element) : Decidable (m.Documents e) :=
  match h : m.threshold with
  | .ok least => decidable_of_iff _ (m.documents_iff h e).symm
  | .error _ => isFalse (by simp [Model.Documents, h])

namespace Table

/-- A type hands a member down to another type. -/
structure HandsDown (ancestor owner member : Element) : Prop where
  notPrivate : member.access ≠ "private"
  /-- Members that are known in their package only stay in it. -/
  samePackage : member.access = "package" → ancestor.package = owner.package
  /-- Static methods of interfaces belong to the interface alone. -/
  notStatic : ¬(ancestor.kind = .interfaceType ∧ member.kind = .method ∧ member.isStatic = true)

theorem handsDown_iff {ancestor owner member : Element} :
    handsDown ancestor owner member = true ↔ HandsDown ancestor owner member := by
  simp only [handsDown, Bool.and_eq_true, bne_iff_ne, Bool.not_eq_true', Bool.and_eq_false_imp,
    beq_iff_eq, bne_eq_false_iff_eq]
  constructor
  · rintro ⟨⟨h₁, h₂⟩, h₃⟩
    refine ⟨h₁, h₂, ?_⟩
    rintro ⟨hkind, hmethod, hstatic⟩
    rw [h₃ ⟨hkind, hmethod⟩] at hstatic
    exact Bool.noConfusion hstatic
  · rintro ⟨h₁, h₂, h₃⟩
    refine ⟨⟨h₁, h₂⟩, ?_⟩
    rintro ⟨hkind, hmethod⟩
    cases hstatic : member.isStatic with
    | false => rfl
    | true => exact absurd ⟨hkind, hmethod, hstatic⟩ h₃

instance (ancestor owner member : Element) : Decidable (HandsDown ancestor owner member) :=
  decidable_of_iff _ handsDown_iff

section

variable {rules : Rules} {m : Model} {owner a e : Element} {k : Member.Kind} {t : Table}
  {members : List Classified}

/-! ### What a type declares -/

/-- The members of a kind that a type declares, in the order of the documents. -/
def declared (rules : Rules) (m : Model) (k : Member.Kind) (a : Element) : List Element :=
  (m.membersOf a).filter fun e => classify rules a e = .ok (some k)

theorem mem_declared_iff : e ∈ declared rules m k a ↔
    e ∈ m.membersOf a ∧ classify rules a e = .ok (some k) := by
  simp [declared]

/-- A member is of one kind. -/
theorem eq_of_mem_declared {k' : Member.Kind} (h : e ∈ declared rules m k a)
    (h' : e ∈ declared rules m k' a) : k = k' := by
  have hclass := (mem_declared_iff.mp h).2
  rw [(mem_declared_iff.mp h').2, Except.ok.injEq, Option.some.injEq] at hclass
  exact hclass.symm

theorem parent_of_mem_declared (h : e ∈ declared rules m k a) : e.parent = some a.uid :=
  (Model.mem_membersOf_iff.mp (mem_declared_iff.mp h).1).2

theorem nodup_declared (rules : Rules) (m : Model) (k : Member.Kind) (a : Element) :
    ((declared rules m k a).map (·.uid)).Nodup :=
  (m.nodup_membersOf a).sublist (List.filter_sublist.map _)

/-- Sorting the members of a type into kinds keeps every member of a kind, in order. -/
theorem ofKind_of_classifyAll (h : classifyAll rules m a = .ok members) (k : Member.Kind) :
    ofKind k members = declared rules m k a := by
  obtain ⟨-, rfl⟩ := Refusal.filterMapM_eq_ok.mp h
  unfold ofKind declared
  induction m.membersOf a with
  | nil => rfl
  | cons e es ih =>
      rw [List.filterMap_cons, List.filter_cons]
      cases hfound : classify rules a e with
      | error fault => simpa [Except.toOption, bind, Except.bind] using ih
      | ok found =>
          cases found with
          | none => simpa [Except.toOption, bind, Except.bind, pure, Except.pure] using ih
          | some k' =>
              by_cases hk : k' = k
              · subst hk
                simpa [Except.toOption, bind, Except.bind, pure, Except.pure] using ih
              · simpa [Except.toOption, bind, Except.bind, pure, Except.pure, hk] using ih

/-! ### What reading promises -/

/-- A reading of the table of a type under the rules has found these things. -/
structure Reads (rules : Rules) (m : Model) (owner : Element) (t : Table) : Prop where
  model_eq : t.model = m
  naming_eq : t.naming = rules.naming
  owner_eq : t.owner = owner
  family_eq : t.family = m.family owner
  own : classifyAll rules m owner = .ok t.own
  ancestors : ∀ p ∈ t.ancestors, classifyAll rules m p.1 = .ok p.2
  /-- The least level makes sense if there is a member to compare with it. -/
  level : t.own ≠ [] ∨ t.ancestors.any (handsAnythingDown owner) = true →
    m.threshold = .ok t.level

theorem threshold_of_needLevel {needed : Bool} (h : needLevel m needed = .ok ())
    (hneeded : needed = true) : m.threshold = .ok (m.threshold.toOption.getD .package) := by
  rw [needLevel, if_pos hneeded] at h
  cases hm : m.threshold with
  | error fault => rw [hm] at h; cases h
  | ok least => rfl

theorem of_readAncestor {p : Element × List Classified} (h : readAncestor rules m owner a = .ok p) :
    p.1 = a ∧ classifyAll rules m a = .ok p.2 := by
  obtain ⟨members, hmembers, h⟩ := Refusal.bind_eq_ok.mp h
  obtain ⟨-, -, h⟩ := Refusal.bind_eq_ok.mp h
  rw [Refusal.pure_eq_ok] at h
  subst h
  exact ⟨rfl, hmembers⟩

theorem reads_of_readMembers (h : readMembers rules m owner = .ok t) : Reads rules m owner t := by
  obtain ⟨own, hown, h⟩ := Refusal.bind_eq_ok.mp h
  obtain ⟨_, hneedOwn, h⟩ := Refusal.bind_eq_ok.mp h
  obtain ⟨ancestors, hancestors, h⟩ := Refusal.bind_eq_ok.mp h
  obtain ⟨_, hneedAncestors, h⟩ := Refusal.bind_eq_ok.mp h
  rw [Refusal.pure_eq_ok] at h
  subst h
  have hpairs := Refusal.mapM_eq_ok.mp hancestors
  refine ⟨rfl, rfl, rfl, ?_, hown, ?_, ?_⟩
  · have hfst : ancestors.map (·.1) = m.ancestors owner := by
      rw [eq_comm, ← List.forall₂_eq_eq_eq, List.forall₂_map_right_iff]
      exact hpairs.imp fun a p hp => (of_readAncestor hp).1.symm
    show owner :: ancestors.map (·.1) = owner :: m.ancestors owner
    rw [hfst]
  · intro p hp
    obtain ⟨a, -, ha⟩ := (Refusal.mem_iff_of_mapM_eq_ok hancestors).mp hp
    rw [(of_readAncestor ha).1]
    exact (of_readAncestor ha).2
  · rintro (hne | hany)
    · exact threshold_of_needLevel hneedOwn (by simpa using hne)
    · exact threshold_of_needLevel hneedAncestors hany

theorem reads_of_read (h : read rules m owner = .ok t) : Reads rules m owner t := by
  obtain ⟨t', ht', h⟩ := Refusal.bind_eq_ok.mp h
  obtain ⟨accessors, -, h⟩ := Refusal.bind_eq_ok.mp h
  rw [Refusal.pure_eq_ok] at h
  subst h
  obtain ⟨h₁, h₂, h₃, h₄, h₅, h₆, h₇⟩ := reads_of_readMembers ht'
  exact ⟨h₁, h₂, h₃, h₄, h₅, h₆, h₇⟩

/-- The accessors are those of the property methods that the type shows, in order. -/
theorem accessors_of_read (h : read rules m owner = .ok t) :
    t.accessors.map (·.1) = t.visible .properties ∧
      ∀ p ∈ t.accessors, findAccessors rules.naming (m.membersOf owner) p.1 = .ok p.2 := by
  obtain ⟨t', -, h⟩ := Refusal.bind_eq_ok.mp h
  obtain ⟨accessors, haccessors, h⟩ := Refusal.bind_eq_ok.mp h
  rw [Refusal.pure_eq_ok] at h
  subst h
  have hstep : ∀ {p : Element} {q : Element × Accessors},
      (do return (p, ← findAccessors rules.naming (m.membersOf owner) p)) = Except.ok q →
        q.1 = p ∧ findAccessors rules.naming (m.membersOf owner) q.1 = .ok q.2 := by
    intro p q hq
    obtain ⟨found, hfound, hq⟩ := Refusal.bind_eq_ok.mp hq
    rw [Refusal.pure_eq_ok] at hq
    subst hq
    exact ⟨rfl, hfound⟩
  refine ⟨?_, ?_⟩
  · show accessors.map (·.1) = t'.visible .properties
    rw [eq_comm, ← List.forall₂_eq_eq_eq, List.forall₂_map_right_iff]
    exact (Refusal.mapM_eq_ok.mp haccessors).imp fun p q hq => (hstep hq).1.symm
  · intro q hq
    obtain ⟨p, -, hp⟩ := (Refusal.mem_iff_of_mapM_eq_ok haccessors).mp hq
    exact (hstep hp).2

/-! ### Settings that are texts

With texts for the least level and for the naming convention no step of a reading is refused.
-/

theorem classify_returns (h : rules.naming.IsText) (a e : Element) :
    ∃ found, classify rules a e = .ok found := by
  obtain ⟨b, hb⟩ := Naming.isPropertyMethod_of_isText h e
  unfold classify
  cases e.kind with
  | method =>
      show ∃ found, (if rules.properties = true then _ else _) = Except.ok found
      split
      · exact ⟨_, Refusal.bind_eq_ok.mpr ⟨b, hb, rfl⟩⟩
      · exact ⟨_, rfl⟩
  | _ => exact ⟨_, rfl⟩

theorem classifyAll_returns (h : rules.naming.IsText) (m : Model) (a : Element) :
    ∃ members, classifyAll rules m a = .ok members := by
  refine ⟨_, Refusal.filterMapM_eq_ok.mpr ⟨fun e _ => ?_, rfl⟩⟩
  obtain ⟨found, hfound⟩ := classify_returns h a e
  exact ⟨_, Refusal.bind_eq_ok.mpr ⟨found, hfound, rfl⟩⟩

theorem needLevel_returns {least : String} (hmin : m.minAccess = .text least) (needed : Bool) :
    needLevel m needed = .ok () := by
  unfold needLevel Model.threshold
  rw [hmin]
  cases needed <;> rfl

theorem findAccessors_returns {naming : Naming} (h : naming.IsText) (members : List Element)
    (p : Element) : ∃ found, findAccessors naming members p = .ok found := by
  obtain ⟨base, hbase⟩ := Naming.baseName_of_isText h p
  obtain ⟨getters, hgetters⟩ := Naming.prefixed_of_allTexts h.getters base
  obtain ⟨setters, hsetters⟩ := Naming.prefixed_of_allTexts h.setters base
  exact ⟨_, Refusal.bind_eq_ok.mpr ⟨base, hbase, Refusal.bind_eq_ok.mpr ⟨getters, hgetters,
    Refusal.bind_eq_ok.mpr ⟨setters, hsetters, rfl⟩⟩⟩⟩

theorem readMembers_returns {least : String} (hmin : m.minAccess = .text least)
    (hnaming : rules.naming.IsText) (owner : Element) :
    ∃ t, readMembers rules m owner = .ok t := by
  obtain ⟨own, hown⟩ := classifyAll_returns hnaming m owner
  have hancestors : ∃ ps, (m.ancestors owner).mapM (readAncestor rules m owner) = .ok ps := by
    refine Refusal.mapM_returns fun a _ => ?_
    obtain ⟨members, hmembers⟩ := classifyAll_returns hnaming m a
    exact ⟨(a, members), Refusal.bind_eq_ok.mpr ⟨members, hmembers,
      Refusal.bind_eq_ok.mpr ⟨(), needLevel_returns hmin _, rfl⟩⟩⟩
  obtain ⟨ps, hps⟩ := hancestors
  exact ⟨_, Refusal.bind_eq_ok.mpr ⟨own, hown,
    Refusal.bind_eq_ok.mpr ⟨(), needLevel_returns hmin _,
    Refusal.bind_eq_ok.mpr ⟨ps, hps,
    Refusal.bind_eq_ok.mpr ⟨(), needLevel_returns hmin _, rfl⟩⟩⟩⟩⟩

theorem read_returns {least : String} (hmin : m.minAccess = .text least)
    (hnaming : rules.naming.IsText) (owner : Element) : ∃ t, read rules m owner = .ok t := by
  obtain ⟨t, ht⟩ := readMembers_returns hmin hnaming owner
  have haccessors : ∃ ps, (t.visible .properties).mapM (fun p => do
      return (p, ← findAccessors rules.naming (m.membersOf owner) p)) = Except.ok ps := by
    refine Refusal.mapM_returns fun p _ => ?_
    obtain ⟨found, hfound⟩ := findAccessors_returns hnaming (m.membersOf owner) p
    exact ⟨(p, found), Refusal.bind_eq_ok.mpr ⟨found, hfound, rfl⟩⟩
  obtain ⟨ps, hps⟩ := haccessors
  exact ⟨_, Refusal.bind_eq_ok.mpr ⟨t, ht, Refusal.bind_eq_ok.mpr ⟨ps, hps, rfl⟩⟩⟩

/-! ### The lists of a table -/

/-- The documented members of a kind that supertypes hand down to a type, nearest supertype first.
Nothing is hidden yet. -/
def offered (rules : Rules) (m : Model) (owner : Element) (k : Member.Kind)
    (supertypes : List Element) : List Element :=
  supertypes.flatMap fun a =>
    (declared rules m k a).filter fun e => HandsDown a owner e ∧ m.Documents e

theorem mem_offered_iff {supertypes : List Element} : e ∈ offered rules m owner k supertypes ↔
    ∃ a ∈ supertypes, e ∈ declared rules m k a ∧ HandsDown a owner e ∧ m.Documents e := by
  simp [offered]

theorem tail_family (t : Table) : t.family.tail = t.ancestors.map (·.1) := rfl

theorem inherited_of_not (t : Table) (hk : k.isHandedDown = false) : t.inherited k = [] := by
  rw [inherited, if_neg (by simp [hk])]

theorem isHandedDown_of_mem_inherited (he : e ∈ t.inherited k) : k.isHandedDown = true := by
  cases hk : k.isHandedDown with
  | false =>
      rw [inherited_of_not t hk] at he
      exact absurd he List.not_mem_nil
  | true => rfl

namespace Reads

variable (h : Reads rules m owner t)

include h

theorem ofKind_own (k : Member.Kind) : ofKind k t.own = declared rules m k owner :=
  ofKind_of_classifyAll h.own k

/-- What a type shows of its own is what it declares and what is documented. -/
theorem visible_eq (k : Member.Kind) :
    t.visible k = (declared rules m k owner).filter fun e => m.Documents e := by
  rw [visible, h.ofKind_own]
  refine List.filter_congr fun e he => ?_
  have hown : t.own ≠ [] := by
    intro hnil
    rw [← h.ofKind_own, hnil] at he
    exact absurd he (by simp [ofKind])
  rw [shows]
  exact decide_eq_decide.mpr (m.documents_iff (h.level (.inl hown)) e).symm

/-- A member that is handed down makes the reading compare with the least level. -/
theorem level_of_handsDown (hk : k.isHandedDown = true) {p : Element × List Classified}
    (hp : p ∈ t.ancestors) (he : e ∈ ofKind k p.2) (hdown : handsDown p.1 owner e = true) :
    m.threshold = .ok t.level := by
  refine h.level (.inr (List.any_eq_true.mpr ⟨p, hp, ?_⟩))
  obtain ⟨c, hc, rfl⟩ := List.mem_map.mp he
  obtain ⟨hmem, hkind⟩ := List.mem_filter.mp hc
  refine List.any_eq_true.mpr ⟨c, hmem, ?_⟩
  show (c.1.isHandedDown && handsDown p.1 owner c.2) = true
  rw [eq_of_beq hkind, hk, hdown]
  rfl

theorem filter_handedDown (hk : k.isHandedDown = true) :
    (t.handedDown k).filter t.shows = offered rules m owner k t.family.tail := by
  rw [handedDown, h.owner_eq, List.filter_flatMap, offered, tail_family, List.flatMap_map]
  refine List.flatMap_congr fun p hp => ?_
  rw [List.filter_filter, ← ofKind_of_classifyAll (h.ancestors p hp) k]
  refine List.filter_congr fun e he => ?_
  by_cases hdown : handsDown p.1 owner e = true
  · have hlevel := h.level_of_handsDown hk hp he hdown
    simp [hdown, shows, handsDown_iff.mp hdown, m.documents_iff hlevel]
  · simp [hdown, mt handsDown_iff.mpr hdown]

/-- What a type inherits is what its supertypes offer, less what is hidden. -/
theorem inherited_eq (hk : k.isHandedDown = true) :
    t.inherited k = unhidden ((declared rules m k owner).map (·.hidingKey))
      (offered rules m owner k t.family.tail) := by
  rw [inherited, if_pos hk, h.ofKind_own, h.filter_handedDown hk]

end Reads

end

end Table

/-! ### The builder of a type -/

namespace Builder

variable {m : Model} {targets : Targets} {messages : Value} {rules : Table.Rules} {owner : Element}
  {b : Builder}

theorem of_ofType (h : ofType m targets messages rules owner = .ok b) :
    b.model = m ∧ b.messages = messages ∧ b.naming = rules.naming ∧
      Table.read rules m owner = .ok b.table ∧ b.sources = Sources.ofTable b.table := by
  obtain ⟨table, htable, h₁⟩ := Refusal.bind_eq_ok.mp h
  rw [Refusal.pure_eq_ok] at h₁
  subst h₁
  exact ⟨rfl, rfl, rfl, htable, rfl⟩

theorem targets_of_ofType (h : ofType m targets messages rules owner = .ok b) :
    b.targets = targets := by
  obtain ⟨table, -, h₁⟩ := Refusal.bind_eq_ok.mp h
  rw [Refusal.pure_eq_ok] at h₁
  subst h₁
  rfl

theorem owner_of_ofType (h : ofType m targets messages rules owner = .ok b) : b.owner = owner :=
  (Table.reads_of_read (of_ofType h).2.2.2.1).owner_eq

theorem reads_of_ofType (h : ofType m targets messages rules owner = .ok b) :
    Table.Reads rules m b.owner b.table := by
  rw [owner_of_ofType h]
  exact Table.reads_of_read (of_ofType h).2.2.2.1

end Builder

end TypePages
