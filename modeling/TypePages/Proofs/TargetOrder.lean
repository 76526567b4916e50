import TypePages.Proofs.Hiding
import TypePages.Proofs.Targets

/-!
Which elements are targets, and in which order they have to come.

A target is promised to every linkable type and to its members.  Nothing in this depends on the
order of the elements: look-up goes by uid, and so does the walk along enclosing types that decides
what is included.  But members are added to the very table that is asked whether their parent is a
target, so what is declared in a member becomes a target as well if the member comes first
(`Nested`).  As long as nothing comes so, the targets are exactly those that are promised, and the
order is of no account.
-/

namespace TypePages

namespace Model

variable {m m' : Model} {e : Element} {uid : String}

/-! ### Models in another order -/

/-- The models have the same settings and the same elements, in whatever order. -/
structure Reordered (m m' : Model) : Prop where
  elements : m.elements.Perm m'.elements
  minAccess : m.minAccess = m'.minAccess
  external : m.external = m'.external

theorem Reordered.symm (h : Reordered m m') : Reordered m' m :=
  ⟨h.elements.symm, h.minAccess.symm, h.external.symm⟩

theorem Reordered.find?_eq (h : Reordered m m') (uid : String) : m.find? uid = m'.find? uid := by
  ext e
  rw [find?_eq_some_iff, find?_eq_some_iff, h.elements.mem_iff]

/-- A walk does not ask in which order the uids stand that it has not visited. -/
theorem chain_of_perm (next : Element → Option Element) {unvisited unvisited' : List String}
    (h : unvisited.Perm unvisited') (e : Element) :
    chain next unvisited e = chain next unvisited' e := by
  fun_induction chain next unvisited e generalizing unvisited' with
  | case1 unvisited e hnext => rw [chain, hnext]
  | case2 unvisited e e' hnext hmem ih =>
      rw [ih (h.erase _), chain.eq_def next unvisited', hnext]
      exact (if_pos (h.mem_iff.mp hmem)).symm
  | case3 unvisited e e' hnext hnot =>
      rw [chain, hnext]
      exact (if_neg (mt h.mem_iff.mpr hnot)).symm

theorem Reordered.effectiveAccess_eq (h : Reordered m m') (e : Element) :
    m.effectiveAccess e = m'.effectiveAccess e := by
  have hnext : m.enclosing? = m'.enclosing? := funext fun x => by
    rw [enclosing?, enclosing?, funext h.find?_eq]
  have hchain : m.enclosingChain e = m'.enclosingChain e := by
    rw [enclosingChain, enclosingChain, hnext]
    exact chain_of_perm _ ((h.elements.map _).erase _) e
  rw [effectiveAccess, effectiveAccess, hchain]

theorem Reordered.isLinkable_eq (h : Reordered m m') (e : Element) :
    m.isLinkable e = m'.isLinkable e := by
  unfold isLinkable isIncluded threshold
  rw [h.external, h.minAccess, h.effectiveAccess_eq e]

/-! ### What is promised -/

/-- The element is a type that links can point to. -/
structure LinkableType (m : Model) (p : Element) : Prop where
  mem : p ∈ m.elements
  isType : p.isType = true
  linkable : m.isLinkable p = .ok true

/-- The element is a linkable type or a member of one. -/
inductive Linked (m : Model) : Element → Prop
  | type {e : Element} (h : m.LinkableType e) : Linked m e
  | member {p e : Element} (hp : m.LinkableType p) (he : e ∈ m.membersOf p)
      (hnot : e.isType = false) : Linked m e

/-- An element that is no type is declared in a member of a linkable type that comes before it. -/
structure Nested (m : Model) (p e : Element) : Prop where
  linked : m.Linked p
  outer : p.isType = false
  inner : e.isType = false
  parent : e.parent = some p.uid
  order : [p, e].Sublist m.elements

theorem Reordered.linkableType (h : Reordered m m') (he : m.LinkableType e) : m'.LinkableType e :=
  ⟨h.elements.mem_iff.mp he.mem, he.isType, h.isLinkable_eq e ▸ he.linkable⟩

theorem Reordered.linked (h : Reordered m m') (he : m.Linked e) : m'.Linked e := by
  cases he with
  | type he => exact .type (h.linkableType he)
  | member hp he hnot =>
      obtain ⟨hmem, hparent⟩ := mem_membersOf_iff.mp he
      exact .member (h.linkableType hp)
        (mem_membersOf_iff.mpr ⟨h.elements.mem_iff.mp hmem, hparent⟩) hnot

theorem Linked.mem (h : m.Linked e) : e ∈ m.elements := by
  cases h with
  | type h => exact h.mem
  | member _ he _ => exact (mem_membersOf_iff.mp he).1

/-- What is linked and is no type is declared in a linkable type. -/
theorem Linked.exists_type (h : m.Linked e) (hnot : e.isType = false) :
    ∃ p, m.LinkableType p ∧ e ∈ m.membersOf p := by
  cases h with
  | type h =>
      have htype := h.isType
      rw [hnot] at htype
      cases htype
  | member hp he _ => exact ⟨_, hp, he⟩

/-- What is declared in a member is not promised to be a target. -/
theorem Nested.not_linked {p : Element} (h : m.Nested p e) : ¬m.Linked e := by
  intro hlinked
  obtain ⟨q, hq, he⟩ := hlinked.exists_type h.inner
  have huid : p.uid = q.uid :=
    Option.some.inj (h.parent.symm.trans (mem_membersOf_iff.mp he).2)
  have htype := hq.isType
  rw [← Catalog.eq_of_uid_eq h.linked.mem hq.mem huid, h.outer] at htype
  cases htype

end Model

namespace Targets

open Model (LinkableType Linked Nested Reordered)

variable {m m' : Model} {root : Value} {ts ts' types : Targets} {uid : String} {t : Target}
  {p e : Element} {es : List Element}

/-! ### What becomes a target -/

/-- What is declared in a target becomes one, or is one already. -/
theorem exists_find?_foldl (he : e ∈ es) (hparent : ∃ t, e.parent.bind ts.find? = some t) :
    ∃ t, (es.foldl addMember ts).find? e.uid = some t := by
  induction es generalizing ts with
  | nil => exact absurd he List.not_mem_nil
  | cons x es ih =>
      obtain ⟨t, ht⟩ := hparent
      rcases List.mem_cons.mp he with rfl | he
      · have hadded : ∃ t', (ts.addMember e).find? e.uid = some t' := by
          rw [find?_addMember, if_pos rfl, ht]
          cases ts.find? e.uid with
          | none => exact ⟨_, rfl⟩
          | some t' => exact ⟨t', rfl⟩
        obtain ⟨t', ht'⟩ := hadded
        exact ⟨t', find?_foldl_of_some es ht'⟩
      · obtain ⟨uid, huid, hfind⟩ := Option.bind_eq_some_iff.mp ht
        exact ih he ⟨t, Option.bind_eq_some_iff.mpr ⟨uid, huid, find?_addMember_of_some x hfind⟩⟩

/-- What is declared in a member becomes a target when the member comes first. -/
theorem exists_find?_foldl_of_sublist (hparent : ∃ t, p.parent.bind ts.find? = some t)
    (he : e.parent = some p.uid) (horder : [p, e].Sublist es) :
    ∃ t, (es.foldl addMember ts).find? e.uid = some t := by
  obtain ⟨before, after, rfl, hp, hafter⟩ := List.cons_sublist_iff.mp horder
  rw [List.foldl_append]
  refine exists_find?_foldl (List.singleton_sublist.mp hafter) ?_
  rw [he]
  exact exists_find?_foldl hp hparent

theorem find?_ofTypes (h : ofTypes m root = .ok types) :
    (∃ t, types.find? uid = some t) ↔ ∃ e, LinkableType m e ∧ e.uid = uid := by
  constructor
  · rintro ⟨t, ht⟩
    obtain ⟨e, he, htype, hlinkable, -, huid⟩ := (find?_ofTypes_iff h).mp ht
    exact ⟨e, ⟨he, htype, hlinkable⟩, huid⟩
  · rintro ⟨e, he, rfl⟩
    obtain ⟨_, hstep⟩ :=
      (Refusal.filterMapM_eq_ok.mp h).1 e (List.mem_filter.mpr ⟨he.mem, he.isType⟩)
    obtain ⟨linkable, hlinkable, h₁⟩ := Refusal.bind_eq_ok.mp hstep
    obtain rfl := Except.ok.inj (hlinkable.symm.trans he.linkable)
    obtain ⟨t, ht, -⟩ := Refusal.bind_eq_ok.mp h₁
    exact ⟨t, (find?_ofTypes_iff h).mpr ⟨e, he.mem, he.isType, he.linkable, ht, rfl⟩⟩

/-- Where nothing comes behind a member that it is declared in, only what is promised is added. -/
theorem linked_of_find?_foldl (htypes : ofTypes m root = .ok types) (hnone : ∀ p e, ¬m.Nested p e)
    (hes : es.Sublist (m.elements.filter (!·.isType)))
    (h : ∃ t, (es.foldl addMember types).find? uid = some t) :
    ∃ e, m.Linked e ∧ e.uid = uid ∧ (e.isType = false → e ∈ es) := by
  induction es using List.reverseRecOn generalizing uid with
  | nil =>
      obtain ⟨e, he, huid⟩ := (find?_ofTypes htypes).mp h
      refine ⟨e, .type he, huid, fun hnot => ?_⟩
      have htype := he.isType
      rw [hnot] at htype
      cases htype
  | append_singleton es x ih =>
      have hrest := (List.sublist_append_left es [x]).trans hes
      obtain ⟨t, ht⟩ := h
      rw [List.foldl_append, List.foldl_cons, List.foldl_nil, find?_addMember,
        Option.or_eq_some_iff] at ht
      rcases ht with hbefore | ⟨-, hadded⟩
      · obtain ⟨e, he, huid, hmem⟩ := ih hrest ⟨t, hbefore⟩
        exact ⟨e, he, huid, fun hnot => List.mem_append_left _ (hmem hnot)⟩
      by_cases huid : uid = x.uid
      · rw [if_pos huid, Option.map_eq_some_iff] at hadded
        obtain ⟨t', hparent, -⟩ := hadded
        obtain ⟨outer, houter, hfind⟩ := Option.bind_eq_some_iff.mp hparent
        obtain ⟨p, hp, rfl, hmem⟩ := ih hrest ⟨t', hfind⟩
        have hx : x ∈ m.elements ∧ (!x.isType) = true :=
          List.mem_filter.mp (hes.subset (List.mem_append_right es (List.mem_singleton_self x)))
        have hnot : x.isType = false := by simpa using hx.2
        refine ⟨x, ?_, huid.symm, fun _ => List.mem_append_right es (List.mem_singleton_self x)⟩
        cases hp with
        | type hp => exact .member hp (Model.mem_membersOf_iff.mpr ⟨hx.1, houter⟩) hnot
        | @member q p hq hmember hpnot =>
            have horder : [p, x].Sublist (es ++ [x]) :=
              (List.singleton_sublist.mpr (hmem hpnot)).append (List.Sublist.refl [x])
            exact absurd ⟨.member hq hmember hpnot, hpnot, hnot, houter,
              (horder.trans hes).trans List.filter_sublist⟩ (hnone p x)
      · rw [if_neg huid] at hadded
        cases hadded

/-- The targets are those of the linkable types and their members, and no others. -/
def Exact (m : Model) (ts : Targets) : Prop :=
  ∀ uid, (∃ t, ts.find? uid = some t) ↔ ∃ e, m.Linked e ∧ e.uid = uid

/-- Whatever the order, a linkable type and its members are targets. -/
theorem exists_find?_linked (h : ofModel m root = .ok ts) (he : m.Linked e) :
    ∃ t, ts.find? e.uid = some t := by
  cases he with
  | type he => exact exists_find?_type h he.mem he.isType he.linkable
  | member hp he hnot =>
      obtain ⟨t, ht⟩ := exists_find?_type h hp.mem hp.isType hp.linkable
      exact ⟨t.ofMember e, find?_member h hp.mem hp.isType ht he hnot⟩

theorem exact_iff_not_nested (h : ofModel m root = .ok ts) :
    Exact m ts ↔ ∀ p e, ¬m.Nested p e := by
  obtain ⟨types, htypes, hts⟩ := of_ofModel h
  constructor
  · intro hexact p e hnested
    obtain ⟨q, hq, hp⟩ := hnested.linked.exists_type hnested.outer
    have hparent : ∃ t, p.parent.bind types.find? = some t := by
      rw [(Model.mem_membersOf_iff.mp hp).2]
      exact (find?_ofTypes htypes).mpr ⟨q, hq, rfl⟩
    have horder : [p, e].Sublist (m.elements.filter (!·.isType)) := by
      have hfilter := hnested.order.filter (!·.isType)
      simpa [hnested.outer, hnested.inner] using hfilter
    have hfound := exists_find?_foldl_of_sublist hparent hnested.parent horder
    obtain ⟨x, hx, huid⟩ := (hexact e.uid).mp (hts ▸ hfound)
    have he : e ∈ m.elements := hnested.order.subset (by simp)
    exact hnested.not_linked (Catalog.eq_of_uid_eq hx.mem he huid ▸ hx)
  · intro hnone uid
    constructor
    · intro hfound
      rw [hts] at hfound
      obtain ⟨e, he, huid, -⟩ :=
        linked_of_find?_foldl htypes hnone (List.Sublist.refl _) hfound
      exact ⟨e, he, huid⟩
    · rintro ⟨e, he, rfl⟩
      exact exists_find?_linked h he

/-! ### Two orders -/

/-- Where the promise is kept in two orders, the same targets are found. -/
theorem find?_eq_of_exact (hsame : Reordered m m') (h : ofModel m root = .ok ts)
    (h' : ofModel m' root = .ok ts') (hexact : Exact m ts) (hexact' : Exact m' ts')
    (uid : String) : ts.find? uid = ts'.find? uid := by
  have htype : ∀ {e}, LinkableType m e → ts.find? e.uid = ts'.find? e.uid := fun {e} he => by
    have he' := hsame.linkableType he
    ext t
    rw [find?_type h he.mem he.isType, find?_type h' he'.mem he'.isType, hsame.isLinkable_eq e]
  by_cases hlinked : ∃ e, m.Linked e ∧ e.uid = uid
  · obtain ⟨e, he, rfl⟩ := hlinked
    cases he with
    | type he => exact htype he
    | @member p e hp he hnot =>
        have hp' := hsame.linkableType hp
        have he' : e ∈ m'.membersOf p := by
          obtain ⟨hmem, hparent⟩ := Model.mem_membersOf_iff.mp he
          exact Model.mem_membersOf_iff.mpr ⟨hsame.elements.mem_iff.mp hmem, hparent⟩
        obtain ⟨t, ht⟩ := exists_find?_type h hp.mem hp.isType hp.linkable
        rw [find?_member h hp.mem hp.isType ht he hnot,
          find?_member h' hp'.mem hp'.isType (htype hp ▸ ht) he' hnot]
  · have hlinked' : ¬∃ e, m'.Linked e ∧ e.uid = uid :=
      mt (fun ⟨e, he, huid⟩ => ⟨e, hsame.symm.linked he, huid⟩) hlinked
    have hnone : ts.find? uid = none :=
      Option.eq_none_iff_forall_ne_some.mpr fun t ht => hlinked ((hexact uid).mp ⟨t, ht⟩)
    have hnone' : ts'.find? uid = none :=
      Option.eq_none_iff_forall_ne_some.mpr fun t ht => hlinked' ((hexact' uid).mp ⟨t, ht⟩)
    rw [hnone, hnone']

theorem Exact.of_find?_eq (hsame : Reordered m m') (hexact : Exact m ts)
    (heq : ∀ uid, ts.find? uid = ts'.find? uid) : Exact m' ts' := by
  intro uid
  rw [← heq uid, hexact uid]
  exact ⟨fun ⟨e, he, huid⟩ => ⟨e, hsame.linked he, huid⟩,
    fun ⟨e, he, huid⟩ => ⟨e, hsame.symm.linked he, huid⟩⟩

/-- The targets are those of the linkable types and their members just in case nothing but a type is
declared in such a member and comes behind it.  A model in which nothing does has the targets of any
other order in which nothing does, and of no other order. -/
theorem targets_by_order {least : String} (hmin : m.minAccess = .text least)
    (hsame : Reordered m m') (root : String) : ∃ ts ts',
      ofModel m (.text root) = .ok ts ∧ ofModel m' (.text root) = .ok ts' ∧
      (Exact m ts ↔ ∀ p e, ¬m.Nested p e) ∧
      ((∀ p e, ¬m.Nested p e) →
        ((∀ uid, ts.find? uid = ts'.find? uid) ↔ ∀ p e, ¬m'.Nested p e)) := by
  obtain ⟨ts, h⟩ := ofModel_returns hmin root
  obtain ⟨ts', h'⟩ := ofModel_returns (hsame.minAccess ▸ hmin) root
  refine ⟨ts, ts', h, h', exact_iff_not_nested h, fun hnone => ?_⟩
  have hexact : Exact m ts := (exact_iff_not_nested h).mpr hnone
  rw [← exact_iff_not_nested h']
  exact ⟨fun heq => hexact.of_find?_eq hsame heq,
    fun hexact' => find?_eq_of_exact hsame h h' hexact hexact'⟩

/-! ### A constant with a body -/

/-- An enum type. -/
def operation : Element := Table.sampleType .enumType "Operation" none []

/-- A constant of the enum type. -/
def plus : Element :=
  { Table.sampleMethod "Operation" "PLUS" "public" [] with kind := .enumConstant }

/-- The method in the body of the constant. -/
def applyPlus : Element := Table.sampleMethod "Operation.PLUS" "apply" "public" []

/-- The method stands before its constant. -/
def methodFirst : Model where
  elements := [operation, applyPlus, plus]
  distinct_uids := by decide
  minAccess := .text "protected"
  external := []

/-- The constant stands before its method. -/
def constantFirst : Model where
  elements := [operation, plus, applyPlus]
  distinct_uids := by decide
  minAccess := .text "protected"
  external := []

theorem reordered_constantFirst : methodFirst.Reordered constantFirst :=
  ⟨(List.Perm.swap plus applyPlus []).cons operation, rfl, rfl⟩

theorem not_nested_methodFirst (p e : Element) : ¬methodFirst.Nested p e := by
  have hnone : ∀ p ∈ methodFirst.elements, ∀ e ∈ methodFirst.elements, p.isType = false →
      e.parent = some p.uid → ¬[p, e].Sublist methodFirst.elements := by decide
  intro h
  exact hnone p h.linked.mem e (h.order.subset (by simp)) h.outer h.parent h.order

theorem nested_constantFirst : constantFirst.Nested plus applyPlus where
  linked := .member (p := operation) ⟨by decide +kernel, rfl, by decide +kernel⟩
    (by decide) rfl
  outer := rfl
  inner := rfl
  parent := by decide
  order := by decide

theorem targets_by_order_constant : methodFirst.minAccess = .text "protected" ∧
    methodFirst.Reordered constantFirst ∧ ∃ ts ts',
      ofModel methodFirst (.text "/api") = .ok ts ∧ ofModel constantFirst (.text "/api") = .ok ts' ∧
      Exact methodFirst ts ∧ ¬∀ uid, ts.find? uid = ts'.find? uid := by
  obtain ⟨ts, ts', h, h', hexact, hsame⟩ :=
    targets_by_order (m := methodFirst) rfl reordered_constantFirst "/api"
  exact ⟨rfl, reordered_constantFirst, ts, ts', h, h', hexact.mpr not_nested_methodFirst,
    fun heq => (hsame not_nested_methodFirst).mp heq plus applyPlus nested_constantFirst⟩

/-- The method in the body of a constant is a target or none, as the order has it, and was never
promised to be one. -/
theorem method_of_constant_is_target : ∃ ts ts',
    ofModel constantFirst (.text "/api") = .ok ts ∧ ofModel methodFirst (.text "/api") = .ok ts' ∧
      constantFirst.Reordered methodFirst ∧ ¬Exact constantFirst ts ∧
      ts.find? applyPlus.uid = some ⟨"apply", "/api/Operation#apply"⟩ ∧
      ts'.find? applyPlus.uid = none := by
  obtain ⟨ts, h⟩ : ∃ ts, ofModel constantFirst (.text "/api") = .ok ts := ofModel_returns rfl _
  obtain ⟨ts', h'⟩ : ∃ ts', ofModel methodFirst (.text "/api") = .ok ts' := ofModel_returns rfl _
  have hfound : (ofModel constantFirst (.text "/api")).map (·.find? applyPlus.uid) =
      .ok (some ⟨"apply", "/api/Operation#apply"⟩) := by decide +kernel
  have hmissing : (ofModel methodFirst (.text "/api")).map (·.find? applyPlus.uid) = .ok none := by
    decide +kernel
  rw [h, Except.map, Except.ok.injEq] at hfound
  rw [h', Except.map, Except.ok.injEq] at hmissing
  have hexact : ¬Exact constantFirst ts := fun hexact =>
    (exact_iff_not_nested h).mp hexact plus applyPlus nested_constantFirst
  exact ⟨ts, ts', h, h', reordered_constantFirst.symm, hexact, hfound, hmissing⟩

end Targets

end TypePages
