import TypePages.Proofs.Nearest
import TypePages.Proofs.TargetOrder

/-!
Tables of models that hold the same elements in another order.

Supertypes are found by look-up alone, so the family of a type does not depend on the order, and the
members of a type are the same up to a permutation.  Everything that a table counts or searches by a
condition is therefore the same.  What the walk of `Table.unhidden` keeps is not: of several members
of one supertype with one hiding key it keeps the first.  But which supertype a key is kept from is
decided by `nearest?`, and this asks only who offers the key.  `Reads.inheritsKey_iff` says it of a
table by the model alone, and then nothing is left in it that an order could change.
-/

namespace TypePages

/-! ### Models -/

namespace Model

variable {m m' : Model} {e : Element}

theorem Reordered.uids_perm (h : Reordered m m') : m.uids.Perm m'.uids := h.elements.map _

theorem Reordered.superclassChain_eq (h : Reordered m m') (e : Element) :
    m.superclassChain e = m'.superclassChain e := by
  have hnext : m.superclass? = m'.superclass? := funext fun x => by
    rw [superclass?, superclass?, funext h.find?_eq]
  rw [superclassChain, superclassChain, hnext]
  exact chain_of_perm _ (h.uids_perm.erase _) e

/-- Reaching out along interfaces does not ask in which order the uids stand that are left. -/
theorem Reordered.spread_eq (h : Reordered m m') {unvisited unvisited' : List String}
    (hperm : unvisited.Perm unvisited') (pending : List String) :
    m.spread unvisited pending = m'.spread unvisited' pending := by
  fun_induction m.spread unvisited pending generalizing unvisited' with
  | case1 unvisited => rw [spread]
  | case2 unvisited uid rest hmem e hfind ih =>
      have hmem' : uid ∈ unvisited' := hperm.mem_iff.mp hmem
      rw [spread.eq_def m', ih (hperm.erase _)]
      simp only [hmem', ↓reduceDIte, ← h.find?_eq, hfind]
  | case3 unvisited uid rest hmem hfind ih =>
      have hmem' : uid ∈ unvisited' := hperm.mem_iff.mp hmem
      rw [spread.eq_def m', ih hperm]
      simp only [hmem', ↓reduceDIte, ← h.find?_eq, hfind]
  | case4 unvisited uid rest hnot ih =>
      have hnot' : uid ∉ unvisited' := mt hperm.mem_iff.mpr hnot
      rw [spread.eq_def m', ih hperm]
      simp only [hnot', ↓reduceDIte]

theorem Reordered.ancestors_eq (h : Reordered m m') (e : Element) :
    m.ancestors e = m'.ancestors e := by
  have hline : m.classLine e = m'.classLine e := by
    rw [classLine, classLine, h.superclassChain_eq]
  rw [ancestors, ancestors, allInterfaces, allInterfaces, hline, h.superclassChain_eq,
    h.spread_eq (h.uids_perm.filter _)]

theorem Reordered.family_eq (h : Reordered m m') (e : Element) : m.family e = m'.family e := by
  rw [family, family, h.ancestors_eq]

theorem Reordered.membersOf_perm (h : Reordered m m') (e : Element) :
    (m.membersOf e).Perm (m'.membersOf e) :=
  h.elements.filter _

theorem Reordered.threshold_eq (h : Reordered m m') : m.threshold = m'.threshold := by
  rw [threshold, threshold, h.minAccess]

theorem Reordered.documents_iff (h : Reordered m m') (e : Element) :
    m.Documents e ↔ m'.Documents e := by
  rw [Documents, Documents, h.threshold_eq]

theorem Reordered.isPackagePrivate_eq (h : Reordered m m') (e : Element) :
    m.isPackagePrivate e = m'.isPackagePrivate e := by
  rw [isPackagePrivate, isPackagePrivate, h.effectiveAccess_eq]

theorem Reordered.publicOrLinkable_iff (h : Reordered m m') (e : Element) :
    m.PublicOrLinkable e ↔ m'.PublicOrLinkable e := by
  rw [PublicOrLinkable, PublicOrLinkable, h.isLinkable_eq]

end Model

/-! ### Sorting -/

/-- Two orders of the same elements are sorted alike. -/
theorem Element.sorted_eq_of_perm {es es' : List Element} (h : es.Perm es')
    (hnodup : (es.map (·.uid)).Nodup) : sorted es = sorted es' := by
  have hperm : (sorted es).Perm (sorted es') :=
    (sorted_perm hnodup).trans (h.trans (sorted_perm ((h.map _).nodup_iff.mp hnodup)).symm)
  exact eq_of_ascending hperm (sorted_ascending es) (sorted_ascending es')

/-! ### Computations on lists in step -/

namespace Refusal

variable {ε α β γ : Type}

/-- Where each computation of a list has a counterpart in another, so have the lists. -/
theorem exists_mapM {f : α → Except ε β} {g : α → Except ε γ} {R : β → γ → Prop} {xs : List α}
    {ys : List β} (h : xs.mapM f = .ok ys)
    (hstep : ∀ x y, f x = .ok y → ∃ z, g x = .ok z ∧ R y z) :
    ∃ zs, xs.mapM g = .ok zs ∧ List.Forall₂ R ys zs := by
  rw [mapM_eq_ok] at h
  induction h with
  | nil => exact ⟨[], rfl, .nil⟩
  | @cons x y xs ys hx _ ih =>
      obtain ⟨z, hz, hyz⟩ := hstep x y hx
      obtain ⟨zs, hzs, hall⟩ := ih
      exact ⟨z :: zs, mapM_eq_ok.mpr (.cons hz (mapM_eq_ok.mp hzs)), .cons hyz hall⟩

end Refusal

/-! ### Reading tables -/

namespace Table

open Model (Reordered)

variable {rules : Rules} {m m' : Model} {owner a e : Element} {k : Member.Kind} {t t' : Table}
  {members : List Classified} {key : List String}

theorem classifyAll_perm (h : Reordered m m') (hc : classifyAll rules m a = .ok members) :
    ∃ members', classifyAll rules m' a = .ok members' ∧ members.Perm members' := by
  obtain ⟨hall, rfl⟩ := Refusal.filterMapM_eq_ok.mp hc
  have hperm := h.membersOf_perm a
  exact ⟨_, Refusal.filterMapM_eq_ok.mpr ⟨fun x hx => hall x (hperm.mem_iff.mpr hx), rfl⟩,
    hperm.filterMap _⟩

theorem needLevel_eq (h : Reordered m m') (needed : Bool) :
    needLevel m needed = needLevel m' needed := by
  rw [needLevel, needLevel, h.threshold_eq]

/-- A supertype is read with the same members in whatever order. -/
def AlikeAncestor (p p' : Element × List Classified) : Prop := p.1 = p'.1 ∧ p.2.Perm p'.2

theorem readAncestor_alike (h : Reordered m m') {p : Element × List Classified}
    (hp : readAncestor rules m owner a = .ok p) :
    ∃ p', readAncestor rules m' owner a = .ok p' ∧ AlikeAncestor p p' := by
  obtain ⟨members, hmembers, h₁⟩ := Refusal.bind_eq_ok.mp hp
  obtain ⟨u, hneed, h₂⟩ := Refusal.bind_eq_ok.mp h₁
  obtain rfl := Refusal.pure_eq_ok.mp h₂
  obtain ⟨members', hmembers', hperm⟩ := classifyAll_perm h hmembers
  have hkinds : (ofKind .nestedTypes members).Perm (ofKind .nestedTypes members') :=
    (hperm.filter _).map _
  rw [hkinds.any_eq, needLevel_eq h] at hneed
  exact ⟨(a, members'), Refusal.bind_eq_ok.mpr ⟨members', hmembers',
    Refusal.bind_eq_ok.mpr ⟨u, hneed, rfl⟩⟩, rfl, hperm⟩

theorem any_handsAnythingDown {ps ps' : List (Element × List Classified)}
    (h : List.Forall₂ AlikeAncestor ps ps') :
    ps.any (handsAnythingDown owner) = ps'.any (handsAnythingDown owner) := by
  induction h with
  | nil => rfl
  | @cons p p' ps ps' hp _ ih =>
      have hhead : handsAnythingDown owner p = handsAnythingDown owner p' := by
        rw [handsAnythingDown, handsAnythingDown, hp.1]
        exact hp.2.any_eq
      rw [List.any_cons, List.any_cons, hhead, ih]

/-- Whatever can be read in one order can be read in another. -/
theorem readMembers_reordered (h : Reordered m m') (ht : readMembers rules m owner = .ok t) :
    ∃ t', readMembers rules m' owner = .ok t' := by
  obtain ⟨own, hown, h₁⟩ := Refusal.bind_eq_ok.mp ht
  obtain ⟨u, hneedOwn, h₂⟩ := Refusal.bind_eq_ok.mp h₁
  obtain ⟨ps, hps, h₃⟩ := Refusal.bind_eq_ok.mp h₂
  obtain ⟨u', hneedAncestors, -⟩ := Refusal.bind_eq_ok.mp h₃
  obtain ⟨own', hown', hperm⟩ := classifyAll_perm h hown
  obtain ⟨ps', hps', halike⟩ := Refusal.exists_mapM hps fun a p => readAncestor_alike h
  rw [hperm.isEmpty_eq, needLevel_eq h] at hneedOwn
  rw [any_handsAnythingDown halike, needLevel_eq h] at hneedAncestors
  rw [h.ancestors_eq] at hps'
  exact ⟨_, Refusal.bind_eq_ok.mpr ⟨own', hown', Refusal.bind_eq_ok.mpr ⟨u, hneedOwn,
    Refusal.bind_eq_ok.mpr ⟨ps', hps', Refusal.bind_eq_ok.mpr ⟨u', hneedAncestors, rfl⟩⟩⟩⟩⟩

/-- Accessors are found by name, and only the names may be refused. -/
theorem findAccessors_among {naming : Naming} {es : List Element} {p : Element} {found : Accessors}
    (h : findAccessors naming es p = .ok found) (es' : List Element) :
    ∃ found', findAccessors naming es' p = .ok found' := by
  obtain ⟨base, hbase, h₁⟩ := Refusal.bind_eq_ok.mp h
  obtain ⟨getters, hgetters, h₂⟩ := Refusal.bind_eq_ok.mp h₁
  obtain ⟨setters, hsetters, -⟩ := Refusal.bind_eq_ok.mp h₂
  exact ⟨_, Refusal.bind_eq_ok.mpr ⟨base, hbase, Refusal.bind_eq_ok.mpr ⟨getters, hgetters,
    Refusal.bind_eq_ok.mpr ⟨setters, hsetters, rfl⟩⟩⟩⟩

/-! ### The lists of a table -/

theorem declared_perm (h : Reordered m m') (k : Member.Kind) (a : Element) :
    (declared rules m k a).Perm (declared rules m' k a) :=
  (h.membersOf_perm a).filter _

theorem Reads.family_eq_of_reordered (hr : Reads rules m owner t) (hr' : Reads rules m' owner t')
    (h : Reordered m m') : t.family = t'.family := by
  rw [hr.family_eq, hr'.family_eq, h.family_eq]

theorem Reads.visible_perm (hr : Reads rules m owner t) (hr' : Reads rules m' owner t')
    (h : Reordered m m') (k : Member.Kind) : (t.visible k).Perm (t'.visible k) := by
  have hdocuments : ∀ e, decide (m.Documents e) = decide (m'.Documents e) :=
    fun e => decide_eq_decide.mpr (h.documents_iff e)
  rw [hr.visible_eq, hr'.visible_eq, List.filter_congr fun e _ => hdocuments e]
  exact (declared_perm h k owner).filter _

/-- A table that is read in one order is read in another, with the same family. -/
theorem read_reordered (h : Reordered m m') (ht : read rules m owner = .ok t) :
    ∃ t', read rules m' owner = .ok t' ∧ t'.family = t.family := by
  obtain ⟨t₁, ht₁, h₁⟩ := Refusal.bind_eq_ok.mp ht
  obtain ⟨found, hfound, -⟩ := Refusal.bind_eq_ok.mp h₁
  obtain ⟨t₁', ht₁'⟩ := readMembers_reordered h ht₁
  have hvisible := (reads_of_readMembers ht₁).visible_perm (reads_of_readMembers ht₁') h .properties
  obtain ⟨found', hfound'⟩ : ∃ found', (t₁'.visible .properties).mapM (fun p => do
      return (p, ← findAccessors rules.naming (m'.membersOf owner) p)) = Except.ok found' := by
    refine Refusal.mapM_returns fun p hp => ?_
    obtain ⟨q, hq⟩ := Refusal.returns_of_mapM hfound p (hvisible.mem_iff.mpr hp)
    obtain ⟨accessors, haccessors, -⟩ := Refusal.bind_eq_ok.mp hq
    obtain ⟨accessors', haccessors'⟩ := findAccessors_among haccessors (m'.membersOf owner)
    exact ⟨(p, accessors'), Refusal.bind_eq_ok.mpr ⟨accessors', haccessors', rfl⟩⟩
  have ht' : read rules m' owner = .ok { t₁' with accessors := found' } :=
    Refusal.bind_eq_ok.mpr ⟨t₁', ht₁', Refusal.bind_eq_ok.mpr ⟨found', hfound', rfl⟩⟩
  exact ⟨_, ht', (reads_of_read ht').family_eq_of_reordered (reads_of_read ht) h.symm⟩

/-! ### From which supertype a key is inherited -/

/-- The type inherits a member with a hiding key from a supertype. -/
def InheritsKey (t : Table) (k : Member.Kind) (a : Element) (key : List String) : Prop :=
  ∃ e ∈ t.inherited k, e.parent = some a.uid ∧ e.hidingKey = key

/-- A key that the type does not declare is inherited from the nearest supertype that offers it. -/
theorem Reads.inheritsKey_iff (hr : Reads rules m owner t) (ha : a ∈ t.family.tail) :
    t.InheritsKey k a key ↔ k.isHandedDown = true ∧
      (∀ own ∈ declared rules m k owner, own.hidingKey ≠ key) ∧
      nearest? rules m owner k key t.family.tail = some a := by
  constructor
  · rintro ⟨e, he, hparent, rfl⟩
    have hk := isHandedDown_of_mem_inherited he
    have hundeclared : ∀ own ∈ declared rules m k owner, own.hidingKey ≠ e.hidingKey := by
      have hnot := hidingKey_notMem_of_mem_unhidden (hr.inherited_eq hk ▸ he)
      exact fun own hown hkey => hnot (hkey ▸ List.mem_map_of_mem hown)
    obtain ⟨a', ha', hdeclared, hdown, hdocuments⟩ := hr.declared_of_mem_inherited he
    obtain ⟨near, hnear⟩ := exists_nearest ha' ⟨e, hdeclared, ⟨hdown, hdocuments⟩, rfl⟩
    obtain ⟨e', he', hdeclared', hkey⟩ := hr.exists_inherited hk hundeclared hnear
    -- Keys of inherited members are distinct, so the member is the one that the nearest offers.
    obtain rfl := hr.eq_of_mem_inherited hk he' he hkey
    have huid := Option.some.inj ((parent_of_mem_declared hdeclared').symm.trans hparent)
    obtain rfl := hr.eq_of_uid_eq_tail (mem_of_nearest hnear) ha huid
    exact ⟨hk, hundeclared, hnear⟩
  · rintro ⟨hk, hundeclared, hnear⟩
    obtain ⟨e, he, hdeclared, hkey⟩ := hr.exists_inherited hk hundeclared hnear
    exact ⟨e, he, parent_of_mem_declared hdeclared, hkey⟩

theorem offers_iff (h : Reordered m m') (a : Element) :
    Offers rules m owner k key a ↔ Offers rules m' owner k key a := by
  unfold Offers
  simp only [(declared_perm h k a).mem_iff, h.documents_iff]

theorem nearest?_eq (h : Reordered m m') (supertypes : List Element) :
    nearest? rules m owner k key supertypes = nearest? rules m' owner k key supertypes :=
  List.find?_congr fun a _ => decide_eq_decide.mpr (offers_iff h a)

theorem Reads.inheritsKey_congr (hr : Reads rules m owner t) (hr' : Reads rules m' owner t')
    (h : Reordered m m') (ha : a ∈ t.family.tail) :
    t.InheritsKey k a key ↔ t'.InheritsKey k a key := by
  have hfamily := hr.family_eq_of_reordered hr' h
  rw [hr.inheritsKey_iff ha, hr'.inheritsKey_iff (hfamily ▸ ha), nearest?_eq h, hfamily]
  simp only [(declared_perm h k owner).mem_iff]

/-- Whether the type inherits anything of a kind can be told from the keys. -/
theorem Reads.inherited_ne_nil_iff (hr : Reads rules m owner t) :
    t.inherited k ≠ [] ↔ ∃ a ∈ t.family.tail, ∃ key, t.InheritsKey k a key := by
  constructor
  · intro hne
    obtain ⟨e, he⟩ := List.exists_mem_of_ne_nil _ hne
    obtain ⟨a, ha, hdeclared, -⟩ := hr.declared_of_mem_inherited he
    exact ⟨a, ha, e.hidingKey, e, he, parent_of_mem_declared hdeclared, rfl⟩
  · rintro ⟨a, -, key, e, he, -⟩
    exact List.ne_nil_of_mem he

theorem Reads.has_eq (hr : Reads rules m owner t) (hr' : Reads rules m' owner t')
    (h : Reordered m m') (k : Member.Kind) : t.has k = t'.has k := by
  have hvisible : t.visible k = [] ↔ t'.visible k = [] := by
    rw [← List.isEmpty_iff, (hr.visible_perm hr' h k).isEmpty_eq, List.isEmpty_iff]
  have hinherited : t.inherited k = [] ↔ t'.inherited k = [] := by
    rw [← not_iff_not, ← Ne, ← Ne, hr.inherited_ne_nil_iff, hr'.inherited_ne_nil_iff,
      ← hr.family_eq_of_reordered hr' h]
    exact exists_congr fun a => and_congr_right fun ha => exists_congr fun key =>
      hr.inheritsKey_congr hr' h ha
  have hall : (t.allVisible k).isEmpty = true ↔ (t'.allVisible k).isEmpty = true := by
    rw [List.isEmpty_iff, List.isEmpty_iff, allVisible, allVisible, List.append_eq_nil_iff,
      List.append_eq_nil_iff, hvisible, hinherited]
  rw [has, has, Bool.eq_iff_iff.mpr hall]

end Table

end TypePages
