import TypePages.Proofs.Hiding

/-!
Telling property methods apart moves members, and neither gains nor loses one.

Hiding is decided kind by kind, so splitting the methods into two kinds could free a farther method
from the nearer one that hid it.  It does not, because a hiding key spells out all that a property
method is known by, its name and that it has no parameters: of two methods with one key, both are
property methods or neither is.  `unhidden_filter` says what that gives for the walk, and the rest
compares the two tables list by list.
-/

namespace TypePages

namespace Naming

/-- An element is a property method under a convention. -/
def Tells (n : Naming) (e : Element) : Prop := n.isPropertyMethod e = .ok true

instance (n : Naming) (e : Element) : Decidable (n.Tells e) :=
  inferInstanceAs (Decidable (_ = _))

/-- Two methods with one hiding key have the same name and the same types, so they are told apart
alike. -/
theorem tells_iff_of_hidingKey_eq (n : Naming) {e e' : Element} (he : e.kind = .method)
    (he' : e'.kind = .method) (h : e.hidingKey = e'.hidingKey) : n.Tells e ↔ n.Tells e' := by
  have hexec : ∀ x : Element, x.kind = .method → x.hidingKey = x.name :: x.parameterTypes := by
    intro x hx
    rw [Element.hidingKey, if_pos (by rw [Element.isExecutable, hx]; rfl)]
  rw [hexec e he, hexec e' he', List.cons.injEq] at h
  obtain ⟨hname, htypes⟩ := h
  have hnone : e.parameters = [] ↔ e'.parameters = [] := by
    have hlength := congrArg List.length htypes
    rw [Element.parameterTypes, Element.parameterTypes, List.length_map, List.length_map] at hlength
    rw [← List.length_eq_zero_iff, ← List.length_eq_zero_iff, hlength]
  unfold Tells isPropertyMethod
  rw [he, he', hname]
  simp only [ne_eq, hnone]

end Naming

namespace Table

variable {n : Naming} {m : Model} {owner a e : Element} {k : Member.Kind} {t t₁ t₀ : Table}

/-! ### Kinds of members with and without property methods -/

/-- The kind of a member where property methods are not told apart. -/
def merged : Member.Kind → Member.Kind
  | .properties => .methods
  | k => k

/-- A member with its kind where property methods are not told apart. -/
def Classified.merged (c : Classified) : Classified := (Table.merged c.1, c.2)

theorem isHandedDown_merged (k : Member.Kind) : (merged k).isHandedDown = k.isHandedDown := by
  cases k <;> rfl

/-- A member that is not a method has its kind whatever is told apart. -/
theorem classify_of_ne (rules rules' : Rules) (h : e.kind ≠ .method) :
    classify rules a e = classify rules' a e := by
  unfold classify
  cases hkind : e.kind with
  | method => exact absurd hkind h
  | _ => rfl

theorem classify_off (h : e.kind = .method) : classify ⟨n, false⟩ a e = .ok (some .methods) := by
  unfold classify
  rw [h]
  rfl

theorem classify_on_iff (h : e.kind = .method) {found : Option Member.Kind} :
    classify ⟨n, true⟩ a e = .ok found ↔ ∃ told, n.isPropertyMethod e = .ok told ∧
      found = some (if told then .properties else .methods) := by
  unfold classify
  rw [h]
  simp only [if_true, Refusal.bind_eq_ok, Refusal.pure_eq_ok]
  exact exists_congr fun told => and_congr_right fun _ => eq_comm

/-- A member that is not a method is never under a kind of methods. -/
theorem kind_of_classify {rules : Rules} (h : classify rules a e = .ok (some k))
    (hk : k = .methods ∨ k = .properties) : e.kind = .method := by
  by_contra hne
  unfold classify at h
  cases hkind : e.kind with
  | method => exact hne hkind
  | field =>
      simp only [hkind, Except.ok.injEq, Option.some.injEq] at h
      split at h
      · subst h; simp at hk
      · subst h; simp at hk
  | annotationElement =>
      simp only [hkind, Except.ok.injEq, Option.some.injEq] at h
      split at h
      · subst h; simp at hk
      · subst h; simp at hk
  | other name => simp [hkind] at h
  | _ =>
      simp only [hkind, Except.ok.injEq, Option.some.injEq] at h
      subst h
      simp at hk

theorem classify_merged {found : Option Member.Kind} (h : classify ⟨n, true⟩ a e = .ok found) :
    classify ⟨n, false⟩ a e = .ok (found.map merged) := by
  by_cases hkind : e.kind = .method
  · obtain ⟨told, -, rfl⟩ := (classify_on_iff hkind).mp h
    rw [classify_off hkind]
    cases told <;> rfl
  · rw [classify_of_ne ⟨n, false⟩ ⟨n, true⟩ hkind, h]
    cases found with
    | none => rfl
    | some k =>
        have hk : k ≠ .properties := fun hk => hkind (kind_of_classify h (.inr hk))
        cases k with
        | properties => exact absurd rfl hk
        | _ => rfl

theorem classifyAll_merged {members : List Classified}
    (h : classifyAll ⟨n, true⟩ m a = .ok members) :
    classifyAll ⟨n, false⟩ m a = .ok (members.map Classified.merged) := by
  unfold classifyAll at h ⊢
  obtain ⟨hall, rfl⟩ := Refusal.filterMapM_eq_ok.mp h
  clear h
  rw [Refusal.filterMapM_eq_ok]
  have hstep : ∀ e ∈ m.membersOf a, ∃ found : Option Member.Kind,
      classify ⟨n, true⟩ a e = .ok found ∧
        classify ⟨n, false⟩ a e = .ok (found.map merged) := by
    intro e he
    obtain ⟨o, ho⟩ := hall e he
    obtain ⟨found, hfound, -⟩ := Refusal.bind_eq_ok.mp ho
    exact ⟨found, hfound, classify_merged hfound⟩
  refine ⟨fun e he => ?_, ?_⟩
  · obtain ⟨found, -, hoff⟩ := hstep e he
    exact ⟨_, Refusal.bind_eq_ok.mpr ⟨_, hoff, rfl⟩⟩
  · rw [List.map_filterMap]
    refine List.filterMap_congr fun e he => ?_
    obtain ⟨found, hon, hoff⟩ := hstep e he
    rw [hon, hoff]
    cases found <;> rfl

/-! ### Reading with and without property methods -/

/-- A table in which property methods are methods like any other. -/
def withoutProperties (t : Table) : Table :=
  { t with
    own := t.own.map Classified.merged
    ancestors := t.ancestors.map fun p => (p.1, p.2.map Classified.merged) }

theorem handsAnythingDown_merged (owner : Element) (p : Element × List Classified) :
    handsAnythingDown owner (p.1, p.2.map Classified.merged) = handsAnythingDown owner p := by
  unfold handsAnythingDown
  rw [List.any_map]
  refine congrArg p.2.any (funext fun c => ?_)
  show ((merged c.1).isHandedDown && _) = (c.1.isHandedDown && _)
  rw [isHandedDown_merged]

/-- Nested types stay apart from methods. -/
theorem ofKind_nestedTypes_merged (members : List Classified) :
    ofKind .nestedTypes (members.map Classified.merged) = ofKind .nestedTypes members := by
  unfold ofKind
  rw [List.filter_map, List.map_map]
  refine congrArg _ (List.filter_congr fun c _ => ?_)
  show (merged c.1 == .nestedTypes) = (c.1 == .nestedTypes)
  cases c.1 <;> rfl

theorem readAncestor_off {members : List Classified}
    (h : classifyAll ⟨n, true⟩ m a = .ok members) :
    readAncestor ⟨n, false⟩ m owner a =
      (readAncestor ⟨n, true⟩ m owner a).map fun p => (p.1, p.2.map Classified.merged) := by
  unfold readAncestor
  rw [h, classifyAll_merged h]
  show (do needLevel m _; return _) = Except.map _ (do needLevel m _; return _)
  rw [ofKind_nestedTypes_merged]
  cases needLevel m _ <;> rfl

theorem mapM_readAncestor_off {as : List Element}
    (hall : ∀ a ∈ as, ∃ members, classifyAll ⟨n, true⟩ m a = .ok members) :
    as.mapM (readAncestor ⟨n, false⟩ m owner) = (as.mapM (readAncestor ⟨n, true⟩ m owner)).map
      (List.map fun p => (p.1, p.2.map Classified.merged)) := by
  induction as with
  | nil => rfl
  | cons a as ih =>
      obtain ⟨members, hmembers⟩ := hall a List.mem_cons_self
      rw [List.mapM_cons, List.mapM_cons, readAncestor_off hmembers,
        ih fun x hx => hall x (List.mem_cons_of_mem _ hx)]
      cases readAncestor ⟨n, true⟩ m owner a with
      | error fault => rfl
      | ok p => cases as.mapM (readAncestor ⟨n, true⟩ m owner) <;> rfl

/-- Where every member has a kind the members are read alike with and without property methods. -/
theorem readMembers_off
    (hall : ∀ a ∈ m.family owner, ∃ members, classifyAll ⟨n, true⟩ m a = .ok members) :
    readMembers ⟨n, false⟩ m owner = (readMembers ⟨n, true⟩ m owner).map withoutProperties := by
  obtain ⟨own, hown⟩ := hall owner List.mem_cons_self
  have hancestors : (m.ancestors owner).mapM (readAncestor ⟨n, false⟩ m owner) =
      ((m.ancestors owner).mapM (readAncestor ⟨n, true⟩ m owner)).map
        (List.map fun p => (p.1, p.2.map Classified.merged)) :=
    mapM_readAncestor_off fun a ha => hall a (List.mem_cons_of_mem _ ha)
  unfold readMembers
  rw [hown, classifyAll_merged hown, hancestors]
  show (do needLevel m _; _) = Except.map _ (do needLevel m _; _)
  rw [List.isEmpty_map]
  cases needLevel m (!own.isEmpty) with
  | error fault => rfl
  | ok u =>
      cases (m.ancestors owner).mapM (readAncestor ⟨n, true⟩ m owner) with
      | error fault => rfl
      | ok ps =>
          have hany : (ps.map fun p => (p.1, p.2.map Classified.merged)).any
              (handsAnythingDown owner) = ps.any (handsAnythingDown owner) := by
            rw [List.any_map]
            exact congrArg ps.any (funext (handsAnythingDown_merged owner))
          show (do needLevel m _; _) = Except.map _ (do needLevel m _; _)
          rw [hany]
          cases needLevel m (ps.any (handsAnythingDown owner)) <;> rfl

theorem visible_properties_withoutProperties (t : Table) :
    t.withoutProperties.visible .properties = [] := by
  have hnone : ofKind .properties (t.own.map Classified.merged) = [] := by
    unfold ofKind
    rw [List.filter_map, List.map_map, List.map_eq_nil_iff, List.filter_eq_nil_iff]
    intro c _
    show ¬(merged c.1 == .properties) = true
    cases c.1 <;> decide
  show (ofKind .properties (t.own.map Classified.merged)).filter _ = []
  rw [hnone]
  rfl

/-- A reading has found a kind for every member that it has met. -/
theorem classifyAll_of_reads {rules : Rules} (h : Reads rules m owner t) (ha : a ∈ m.family owner) :
    ∃ members, classifyAll rules m a = .ok members := by
  rw [← h.family_eq] at ha
  rcases List.mem_cons.mp ha with rfl | ha
  · exact ⟨t.own, h.owner_eq ▸ h.own⟩
  · obtain ⟨p, hp, rfl⟩ := List.mem_map.mp ha
    exact ⟨p.2, h.ancestors p hp⟩

/-- Whatever can be read with property methods can be read without them. -/
theorem read_off (ht : read ⟨n, true⟩ m owner = .ok t) :
    ∃ t₀, read ⟨n, false⟩ m owner = .ok t₀ := by
  obtain ⟨t', ht', -⟩ := Refusal.bind_eq_ok.mp ht
  refine ⟨{ t'.withoutProperties with accessors := [] }, Refusal.bind_eq_ok.mpr
    ⟨t'.withoutProperties, ?_, ?_⟩⟩
  · rw [readMembers_off fun a => classifyAll_of_reads (reads_of_read ht), ht']
    rfl
  · rw [visible_properties_withoutProperties]
    rfl

/-- With a convention of texts whatever can be read without property methods can be read with them.
-/
theorem read_on (hn : n.IsText) (ht : read ⟨n, false⟩ m owner = .ok t) :
    ∃ t₁, read ⟨n, true⟩ m owner = .ok t₁ := by
  have hall : ∀ a ∈ m.family owner, ∃ members, classifyAll ⟨n, true⟩ m a = .ok members :=
    fun a _ => classifyAll_returns hn m a
  obtain ⟨t', ht', -⟩ := Refusal.bind_eq_ok.mp ht
  rw [readMembers_off hall, Refusal.map_eq_ok] at ht'
  obtain ⟨t₁, ht₁, -⟩ := ht'
  have haccessors : ∃ ps, (t₁.visible .properties).mapM (fun p => do
      return (p, ← findAccessors n (m.membersOf owner) p)) = Except.ok ps := by
    refine Refusal.mapM_returns fun p _ => ?_
    obtain ⟨found, hfound⟩ := findAccessors_returns hn (m.membersOf owner) p
    exact ⟨(p, found), Refusal.bind_eq_ok.mpr ⟨found, hfound, rfl⟩⟩
  obtain ⟨ps, hps⟩ := haccessors
  exact ⟨_, Refusal.bind_eq_ok.mpr ⟨t₁, ht₁, Refusal.bind_eq_ok.mpr ⟨ps, hps, rfl⟩⟩⟩

/-! ### Hiding within a part -/

/-- **Hiding commutes with taking out a part of the members** if no member of the part shares its
key with one outside. -/
theorem unhidden_filter {p : Element → Bool} {es : List Element} {keys keys' : List (List String)}
    (hkeys : ∀ e ∈ es, p e → (e.hidingKey ∈ keys' ↔ e.hidingKey ∈ keys))
    (hp : ∀ e ∈ es, ∀ e' ∈ es, e.hidingKey = e'.hidingKey → p e = p e') :
    unhidden keys' (es.filter p) = (unhidden keys es).filter p := by
  induction es generalizing keys keys' with
  | nil => rfl
  | cons e es ih =>
      have hp' : ∀ x ∈ es, ∀ y ∈ es, x.hidingKey = y.hidingKey → p x = p y :=
        fun x hx y hy => hp x (List.mem_cons_of_mem _ hx) y (List.mem_cons_of_mem _ hy)
      have htail : ∀ x ∈ es, p x → (x.hidingKey ∈ keys' ↔ x.hidingKey ∈ keys) :=
        fun x hx => hkeys x (List.mem_cons_of_mem _ hx)
      by_cases hpe : p e = true
      · have hkey := hkeys e List.mem_cons_self hpe
        rw [List.filter_cons_of_pos hpe]
        by_cases hmem : e.hidingKey ∈ keys
        · rw [unhidden_cons_of_mem hmem, unhidden_cons_of_mem (hkey.mpr hmem), ih htail hp']
        · rw [unhidden_cons_of_notMem hmem, unhidden_cons_of_notMem (mt hkey.mp hmem),
            List.filter_cons_of_pos hpe]
          refine congrArg _ (ih (fun x hx hpx => ?_) hp')
          rw [List.mem_cons, List.mem_cons, htail x hx hpx]
      · rw [List.filter_cons_of_neg hpe]
        by_cases hmem : e.hidingKey ∈ keys
        · rw [unhidden_cons_of_mem hmem, ih htail hp']
        · rw [unhidden_cons_of_notMem hmem, List.filter_cons_of_neg hpe]
          refine ih (fun x hx hpx => ?_) hp'
          -- A member of the part does not have the key that has just become known.
          have hne : x.hidingKey ≠ e.hidingKey := fun heq =>
            hpe ((hp x (List.mem_cons_of_mem _ hx) e List.mem_cons_self heq).symm.trans hpx)
          rw [List.mem_cons, htail x hx hpx]
          exact (or_iff_right hne).symm

/-! ### What a type declares -/

theorem kind_of_mem_declared_methods (h : e ∈ declared ⟨n, false⟩ m .methods a) :
    e.kind = .method :=
  kind_of_classify (mem_declared_iff.mp h).2 (.inl rfl)

theorem declared_properties_on (n : Naming) (m : Model) (a : Element) :
    declared ⟨n, true⟩ m .properties a =
      (declared ⟨n, false⟩ m .methods a).filter fun e => n.Tells e := by
  unfold declared
  rw [List.filter_filter]
  refine List.filter_congr fun e _ => ?_
  rw [← Bool.decide_and, decide_eq_decide]
  constructor
  · intro h
    have hkind := kind_of_classify h (.inr rfl)
    obtain ⟨told, htold, heq⟩ := (classify_on_iff hkind).mp h
    cases told with
    | true => exact ⟨htold, classify_off hkind⟩
    | false => cases heq
  · rintro ⟨htold, hoff⟩
    exact (classify_on_iff (kind_of_classify hoff (.inl rfl))).mpr ⟨true, htold, rfl⟩

/-- Where every member has a kind the methods that are no property methods stay. -/
theorem declared_methods_on {members : List Classified}
    (h : classifyAll ⟨n, true⟩ m a = .ok members) :
    declared ⟨n, true⟩ m .methods a =
      (declared ⟨n, false⟩ m .methods a).filter fun e => ¬n.Tells e := by
  have hall := (Refusal.filterMapM_eq_ok.mp h).1
  unfold declared
  rw [List.filter_filter]
  refine List.filter_congr fun e he => ?_
  rw [← Bool.decide_and, decide_eq_decide]
  constructor
  · intro hon
    have hkind := kind_of_classify hon (.inl rfl)
    obtain ⟨told, htold, heq⟩ := (classify_on_iff hkind).mp hon
    cases told with
    | true => cases heq
    | false => exact ⟨by rw [Naming.Tells, htold]; decide, classify_off hkind⟩
  · rintro ⟨hnot, hoff⟩
    have hkind := kind_of_classify hoff (.inl rfl)
    obtain ⟨o, ho⟩ := hall e he
    obtain ⟨found, hfound, -⟩ := Refusal.bind_eq_ok.mp ho
    obtain ⟨told, htold, -⟩ := (classify_on_iff hkind).mp hfound
    cases told with
    | true => exact absurd htold hnot
    | false => exact (classify_on_iff hkind).mpr ⟨false, htold, rfl⟩

theorem declared_properties_off (n : Naming) (m : Model) (a : Element) :
    declared ⟨n, false⟩ m .properties a = [] := by
  refine List.filter_eq_nil_iff.mpr fun e _ => ?_
  rw [decide_eq_true_iff]
  intro h
  rw [classify_off (kind_of_classify h (.inr rfl))] at h
  cases h

theorem declared_of_ne (n : Naming) (m : Model) (a : Element) (hmethods : k ≠ .methods)
    (hproperties : k ≠ .properties) :
    declared ⟨n, true⟩ m k a = declared ⟨n, false⟩ m k a := by
  refine List.filter_congr fun e _ => ?_
  by_cases hkind : e.kind = .method
  · have hon : classify ⟨n, true⟩ a e ≠ .ok (some k) := by
      intro h
      obtain ⟨told, -, heq⟩ := (classify_on_iff hkind).mp h
      cases told with
      | true => exact hproperties (Option.some.inj heq)
      | false => exact hmethods (Option.some.inj heq)
    have hoff : classify ⟨n, false⟩ a e ≠ .ok (some k) := by
      rw [classify_off hkind]
      exact fun h => hmethods (Option.some.inj (Except.ok.inj h)).symm
    simp [hon, hoff]
  · rw [classify_of_ne ⟨n, true⟩ ⟨n, false⟩ hkind]

/-! ### The two tables -/

/-- Property methods are the methods that a convention tells, and nothing else is moved. -/
structure Separates (n : Naming) (on off : Member.Kind → List Element) : Prop where
  methods : on .methods = (off .methods).filter fun e => ¬n.Tells e
  properties : on .properties = (off .methods).filter fun e => n.Tells e
  none : off .properties = []
  others : ∀ k, k ≠ .methods → k ≠ .properties → on k = off k

theorem lists_properties_off (h₀ : Reads ⟨n, false⟩ m owner t₀) :
    t₀.visible .properties = [] ∧ t₀.allVisible .properties = [] := by
  have hvisible : t₀.visible .properties = [] := by
    rw [h₀.visible_eq, declared_properties_off]
    rfl
  have hoffered : offered ⟨n, false⟩ m owner .properties t₀.family.tail = [] := by
    refine List.flatMap_eq_nil_iff.mpr fun a _ => ?_
    rw [declared_properties_off]
    rfl
  refine ⟨hvisible, ?_⟩
  rw [allVisible, hvisible, h₀.inherited_eq rfl, hoffered]
  rfl

section

variable (h₁ : Reads ⟨n, true⟩ m owner t₁) (h₀ : Reads ⟨n, false⟩ m owner t₀)

include h₁ h₀

/-- A kind that is a part of the methods shows that part of what the methods show, since the part
can be told from the hiding key. -/
theorem lists_of_part (hk : k.isHandedDown = true) {p : Element → Bool}
    (hdeclared : ∀ a ∈ m.family owner,
      declared ⟨n, true⟩ m k a = (declared ⟨n, false⟩ m .methods a).filter p)
    (hp : ∀ e e' : Element, e.kind = .method → e'.kind = .method → e.hidingKey = e'.hidingKey →
      p e = p e') :
    t₁.visible k = (t₀.visible .methods).filter p ∧
      t₁.allVisible k = (t₀.allVisible .methods).filter p := by
  have hvisible : t₁.visible k = (t₀.visible .methods).filter p := by
    rw [h₁.visible_eq, h₀.visible_eq, hdeclared owner List.mem_cons_self, List.filter_comm]
  have hoffered : offered ⟨n, true⟩ m owner k (m.ancestors owner) =
      (offered ⟨n, false⟩ m owner .methods (m.ancestors owner)).filter p := by
    unfold offered
    rw [List.filter_flatMap]
    refine List.flatMap_congr fun a ha => ?_
    rw [hdeclared a (List.mem_cons_of_mem _ ha), List.filter_comm]
  have hmethod : ∀ e ∈ offered ⟨n, false⟩ m owner .methods (m.ancestors owner),
      e.kind = .method := by
    intro e he
    obtain ⟨a, -, hmem, -⟩ := mem_offered_iff.mp he
    exact kind_of_mem_declared_methods hmem
  refine ⟨hvisible, ?_⟩
  rw [allVisible, allVisible, List.filter_append, hvisible, h₁.inherited_eq hk,
    h₀.inherited_eq rfl, h₁.family_eq, h₀.family_eq]
  refine congrArg _ ?_
  show unhidden _ (offered _ m owner k (m.ancestors owner)) = _
  rw [hoffered, hdeclared owner List.mem_cons_self]
  refine unhidden_filter (fun e he hpe => ?_)
    (fun e he e' he' => hp e e' (hmethod e he) (hmethod e' he'))
  simp only [List.mem_map, List.mem_filter]
  constructor
  · rintro ⟨own, ⟨hown, -⟩, hkey⟩
    exact ⟨own, hown, hkey⟩
  · rintro ⟨own, hown, hkey⟩
    have hsame := hp own e (kind_of_mem_declared_methods hown) (hmethod e he) hkey
    exact ⟨own, ⟨hown, hsame.trans hpe⟩, hkey⟩

theorem lists_of_same (hdeclared : ∀ a ∈ m.family owner,
      declared ⟨n, true⟩ m k a = declared ⟨n, false⟩ m k a) :
    t₁.visible k = t₀.visible k ∧ t₁.allVisible k = t₀.allVisible k := by
  have hvisible : t₁.visible k = t₀.visible k := by
    rw [h₁.visible_eq, h₀.visible_eq, hdeclared owner List.mem_cons_self]
  refine ⟨hvisible, ?_⟩
  rw [allVisible, allVisible, hvisible]
  cases hk : k.isHandedDown with
  | false => rw [inherited_of_not t₁ hk, inherited_of_not t₀ hk]
  | true =>
      have hoffered : offered ⟨n, true⟩ m owner k t₁.family.tail =
          offered ⟨n, false⟩ m owner k t₀.family.tail := by
        rw [h₁.family_eq, h₀.family_eq]
        exact List.flatMap_congr fun a ha => by rw [hdeclared a (List.mem_cons_of_mem _ ha)]
      rw [h₁.inherited_eq hk, h₀.inherited_eq hk, hdeclared owner List.mem_cons_self, hoffered]

end

theorem separates_of_reads (h₁ : Reads ⟨n, true⟩ m owner t₁) (h₀ : Reads ⟨n, false⟩ m owner t₀) :
    Separates n t₁.visible t₀.visible ∧ Separates n t₁.allVisible t₀.allVisible := by
  have htold : ∀ e e' : Element, e.kind = .method → e'.kind = .method →
      e.hidingKey = e'.hidingKey → decide (n.Tells e) = decide (n.Tells e') :=
    fun e e' he he' hkey => decide_eq_decide.mpr (n.tells_iff_of_hidingKey_eq he he' hkey)
  have hproperties := lists_of_part h₁ h₀ (k := .properties) rfl
    (fun a _ => declared_properties_on n m a) htold
  have hmethods := lists_of_part h₁ h₀ (k := .methods) rfl (p := fun e => ¬n.Tells e)
    (fun a ha => declared_methods_on (classifyAll_of_reads h₁ ha).choose_spec)
    (fun e e' he he' hkey => by simpa using htold e e' he he' hkey)
  have hothers := fun k hm hp => lists_of_same h₁ h₀ (k := k) fun a _ => declared_of_ne n m a hm hp
  have hnone := lists_properties_off h₀
  exact ⟨⟨hmethods.1, hproperties.1, hnone.1, fun k hm hp => (hothers k hm hp).1⟩,
    ⟨hmethods.2, hproperties.2, hnone.2, fun k hm hp => (hothers k hm hp).2⟩⟩

/-- **Telling property methods apart moves members, and neither gains nor loses one.**  Whenever a
type can be read with its property methods told apart it can be read without, and then the two
tables differ in which of the methods are under the properties.  With a convention of texts the one
can be read exactly if the other can. -/
theorem separation (n : Naming) (m : Model) (owner : Element) :
    (∀ t₁, read ⟨n, true⟩ m owner = .ok t₁ → ∃ t₀, read ⟨n, false⟩ m owner = .ok t₀ ∧
        Separates n t₁.visible t₀.visible ∧ Separates n t₁.allVisible t₀.allVisible) ∧
      (n.IsText → ∀ t₀, read ⟨n, false⟩ m owner = .ok t₀ →
        ∃ t₁, read ⟨n, true⟩ m owner = .ok t₁) := by
  refine ⟨fun t₁ h₁ => ?_, fun hn t₀ h₀ => read_on hn h₀⟩
  obtain ⟨t₀, h₀⟩ := read_off h₁
  exact ⟨t₀, h₀, separates_of_reads (reads_of_read h₁) (reads_of_read h₀)⟩

/-! The level of a meter is a private property that hides the one of its gauge; the unit is a
property of the gauge that the meter inherits. -/

/-- The class of meters. -/
def meter : Element := sampleType .classType "Meter" (some "Gauge") []

/-- The private property method of the level. -/
def meterLevel : Element := sampleMethod "Meter" "levelProperty" "private" []

/-- The property method of the unit. -/
def gaugeUnit : Element := sampleMethod "Gauge" "unitProperty" "public" []

/-- A method of gauges. -/
def gaugeReset : Element := sampleMethod "Gauge" "reset" "public" []

/-- The class of gauges. -/
def gauge : Element := sampleType .classType "Gauge" none []

/-- The property method of the level of gauges. -/
def gaugeLevel : Element := sampleMethod "Gauge" "levelProperty" "public" []

/-- Meters and gauges. -/
def meters : Model where
  elements := [meter, meterLevel, gauge, gaugeLevel, gaugeUnit, gaugeReset]
  distinct_uids := by decide +kernel
  minAccess := .text "protected"
  external := []

/-- The table of meters with their properties. -/
def meterTable : Table :=
  ⟨meters, .standard, meter, .protectedOnly, [(.properties, meterLevel)],
    [(gauge, [(.properties, gaugeLevel), (.properties, gaugeUnit), (.methods, gaugeReset)])], []⟩

theorem separation_meter :
    read ⟨.standard, true⟩ meters meter = .ok meterTable ∧
      meterTable.allVisible .properties = [gaugeUnit] ∧
      meterTable.allVisible .methods = [gaugeReset] ∧
      ∃ t₀, read ⟨.standard, false⟩ meters meter = .ok t₀ ∧
        ((t₀.allVisible .methods).filter fun e => Naming.standard.Tells e) = [gaugeUnit] ∧
        ((t₀.allVisible .methods).filter fun e => ¬Naming.standard.Tells e) = [gaugeReset] := by
  have hread : read ⟨.standard, true⟩ meters meter = .ok meterTable := by cbv
  have hunit : meterTable.allVisible .properties = [gaugeUnit] := by decide +kernel
  have hreset : meterTable.allVisible .methods = [gaugeReset] := by decide +kernel
  obtain ⟨t₀, ht₀, -, hall⟩ := (separation .standard meters meter).1 meterTable hread
  exact ⟨hread, hunit, hreset, t₀, ht₀, hall.properties ▸ hunit, hall.methods ▸ hreset⟩

end Table

end TypePages
