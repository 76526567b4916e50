import Mathlib
import TypePages.Link.Target
import TypePages.Proofs.Catalog
import TypePages.Proofs.Refusal

/-!
Where the targets of a model lead.

The targets of the types come first, one for each linkable type, and the members are added one after
the other, each where the element that declares it is a target already.  A target that is there
stays, so whatever is found at the end for an element was found when it was added: `find?_type` and
`find?_documented` say it for types, and `find?_member` for the members of a type.
-/

namespace TypePages

theorem Target.ofType_eq_ok {root : Value} {e : Element} {t : Target} :
    Target.ofType root e = .ok t ↔
      ∃ s, root = .text s ∧ t = ⟨e.name, PagePath.ofType s e.fullName e.package⟩ := by
  constructor
  · intro h
    obtain ⟨path, hpath, hok⟩ := Refusal.bind_eq_ok.mp h
    unfold PagePath.ofSetting at hpath
    split at hpath
    next s => exact ⟨s, rfl, by rw [← Refusal.pure_eq_ok.mp hok, ← Except.ok.inj hpath]⟩
    · cases hpath
  · rintro ⟨s, rfl, rfl⟩
    rfl

namespace Model

/-- With a text as the least level every element can be asked for its page. -/
theorem isLinkable_returns {m : Model} {least : String} (hmin : m.minAccess = .text least)
    (e : Element) : ∃ b, m.isLinkable e = .ok b := by
  unfold isLinkable isIncluded threshold
  rw [hmin]
  split
  · exact ⟨true, rfl⟩
  · split
    · exact ⟨_, rfl⟩
    · exact ⟨false, rfl⟩

end Model

namespace Targets

variable {m : Model} {root : Value} {ts types : Targets} {uid : String} {t : Target}
  {e x : Element} {es : List Element}

/-! ### Adding members -/

/-- What a member adds is found under its uid unless something else was there. -/
theorem find?_addMember (ts : Targets) (e : Element) (uid : String) :
    (ts.addMember e).find? uid = (ts.find? uid).or
      (if uid = e.uid then (e.parent.bind ts.find?).map (·.ofMember e) else none) := by
  unfold addMember
  cases h : e.parent.bind ts.find? with
  | none => simp
  | some t =>
      show List.lookup uid (ts ++ [(e.uid, t.ofMember e)]) = (List.lookup uid ts).or _
      rw [List.lookup_append]
      by_cases huid : uid = e.uid
      · simp [List.lookup, huid]
      · have hne : (uid == e.uid) = false := beq_eq_false_iff_ne.mpr huid
        simp [List.lookup, hne, huid]

/-- A target that is there stays. -/
theorem find?_addMember_of_some (e : Element) (h : ts.find? uid = some t) :
    (ts.addMember e).find? uid = some t := by
  rw [find?_addMember, h, Option.some_or]

theorem find?_foldl_of_some (es : List Element) (h : ts.find? uid = some t) :
    (es.foldl addMember ts).find? uid = some t := by
  induction es generalizing ts with
  | nil => exact h
  | cons x es ih => exact ih (find?_addMember_of_some x h)

/-- A member of an element that is a target becomes one itself. -/
theorem find?_foldl_member (hnodup : (es.map (·.uid)).Nodup) (he : e ∈ es)
    (hnew : ts.find? e.uid = none) (hparent : e.parent.bind ts.find? = some t) :
    (es.foldl addMember ts).find? e.uid = some (t.ofMember e) := by
  induction es generalizing ts with
  | nil => exact absurd he List.not_mem_nil
  | cons x es ih =>
      rw [List.map_cons, List.nodup_cons] at hnodup
      rcases List.mem_cons.mp he with rfl | he
      · refine find?_foldl_of_some es ?_
        rw [find?_addMember, hnew, if_pos rfl, hparent]
        rfl
      · have hne : e.uid ≠ x.uid := fun huid => hnodup.1 (huid ▸ List.mem_map_of_mem he)
        refine ih hnodup.2 he ?_ ?_
        · rw [find?_addMember, hnew, if_neg hne]
          rfl
        · obtain ⟨uid, huid, hfind⟩ := Option.bind_eq_some_iff.mp hparent
          rw [huid]
          exact find?_addMember_of_some x hfind

/-- Every target comes from the types or is that of a member on a page that was found before. -/
theorem of_find?_foldl (h : (es.foldl addMember ts).find? uid = some t) :
    ts.find? uid = some t ∨ ∃ e ∈ es, e.uid = uid ∧
      ∃ t', e.parent.bind (es.foldl addMember ts).find? = some t' ∧ t = t'.ofMember e := by
  induction es generalizing ts with
  | nil => exact .inl h
  | cons x es ih =>
      rcases ih h with hfirst | ⟨e, he, hrest⟩
      · rw [find?_addMember, Option.or_eq_some_iff] at hfirst
        rcases hfirst with hbefore | ⟨-, hadded⟩
        · exact .inl hbefore
        · by_cases huid : uid = x.uid
          · rw [if_pos huid, Option.map_eq_some_iff] at hadded
            obtain ⟨t', hparent, rfl⟩ := hadded
            obtain ⟨p, hp, hfind⟩ := Option.bind_eq_some_iff.mp hparent
            refine .inr ⟨x, List.mem_cons_self, huid.symm, t', ?_, rfl⟩
            rw [hp]
            exact find?_foldl_of_some (x :: es) hfind
          · rw [if_neg huid] at hadded
            cases hadded
      · exact .inr ⟨e, List.mem_cons_of_mem _ he, hrest⟩

/-! ### The targets of types -/

theorem mem_of_find? (h : ts.find? uid = some t) : (uid, t) ∈ ts := by
  obtain ⟨before, after, hsplit, -⟩ := List.lookup_eq_some_iff.mp h
  rw [hsplit]
  simp

theorem mem_ofTypes_iff (h : ofTypes m root = .ok types) : (uid, t) ∈ types ↔
    ∃ e ∈ m.elements, e.isType = true ∧ m.isLinkable e = .ok true ∧
      Target.ofType root e = .ok t ∧ e.uid = uid := by
  unfold ofTypes at h
  rw [Refusal.mem_iff_of_filterMapM_eq_ok h]
  constructor
  · rintro ⟨e, he, hstep⟩
    obtain ⟨hmem, htype⟩ := List.mem_filter.mp he
    obtain ⟨linkable, hlinkable, h₂⟩ := Refusal.bind_eq_ok.mp hstep
    cases linkable with
    | false => cases h₂
    | true =>
        obtain ⟨t', ht', h₃⟩ := Refusal.bind_eq_ok.mp h₂
        rw [Refusal.pure_eq_ok, Option.some.injEq, Prod.mk.injEq] at h₃
        exact ⟨e, hmem, htype, hlinkable, h₃.2 ▸ ht', h₃.1⟩
  · rintro ⟨e, hmem, htype, hlinkable, ht, rfl⟩
    exact ⟨e, List.mem_filter.mpr ⟨hmem, htype⟩, Refusal.bind_eq_ok.mpr ⟨true, hlinkable,
      Refusal.bind_eq_ok.mpr ⟨t, ht, rfl⟩⟩⟩

theorem find?_ofTypes_iff (h : ofTypes m root = .ok types) : types.find? uid = some t ↔
    ∃ e ∈ m.elements, e.isType = true ∧ m.isLinkable e = .ok true ∧
      Target.ofType root e = .ok t ∧ e.uid = uid := by
  rw [← mem_ofTypes_iff h]
  constructor
  · exact mem_of_find?
  · intro hmem
    cases hfind : types.find? uid with
    | none => exact absurd (List.lookup_eq_none_iff.mp hfind _ hmem) (by simp)
    | some t' =>
        obtain ⟨e, he, -, -, ht, huid⟩ := (mem_ofTypes_iff h).mp hmem
        obtain ⟨e', he', -, -, ht', huid'⟩ := (mem_ofTypes_iff h).mp (mem_of_find? hfind)
        have hsame : e' = e := Catalog.eq_of_uid_eq he' he (huid'.trans huid.symm)
        rw [hsame, ht, Except.ok.injEq] at ht'
        rw [ht']

/-! ### The targets of a model -/

/-- Where every type can be asked for its page, a model has targets below every root. -/
theorem ofModel_of_isLinkable
    (h : ∀ e ∈ m.elements, e.isType = true → ∃ b, m.isLinkable e = .ok b) (root : String) :
    ∃ ts, ofModel m (.text root) = .ok ts := by
  have htypes : ∃ types, ofTypes m (.text root) = .ok types := by
    refine ⟨_, Refusal.filterMapM_eq_ok.mpr ⟨fun e he => ?_, rfl⟩⟩
    obtain ⟨hmem, htype⟩ := List.mem_filter.mp he
    obtain ⟨linkable, hlinkable⟩ := h e hmem htype
    rw [hlinkable]
    cases linkable with
    | false => exact ⟨none, rfl⟩
    | true => exact ⟨some (e.uid, _), rfl⟩
  obtain ⟨types, htypes⟩ := htypes
  exact ⟨_, Refusal.bind_eq_ok.mpr ⟨types, htypes, rfl⟩⟩

theorem ofModel_returns {least : String} (hmin : m.minAccess = .text least) (root : String) :
    ∃ ts, ofModel m (.text root) = .ok ts :=
  ofModel_of_isLinkable (fun e _ _ => Model.isLinkable_returns hmin e) root

/-- Where the documented types are known, there are targets. -/
theorem ofModel_of_documentedTypes {documented : List Element}
    (h : m.documentedTypes = .ok documented) (root : String) :
    ∃ ts, ofModel m (.text root) = .ok ts := by
  refine ofModel_of_isLinkable (fun e he htype => ?_) root
  obtain ⟨included, hincluded⟩ :=
    (Refusal.filterM_eq_ok h).1 e (List.mem_filter.mpr ⟨he, htype⟩)
  unfold Model.isLinkable
  rw [if_pos htype, hincluded]
  split
  · exact ⟨true, rfl⟩
  · exact ⟨included, rfl⟩

theorem of_ofModel (h : ofModel m root = .ok ts) : ∃ types, ofTypes m root = .ok types ∧
    ts = (m.elements.filter (!·.isType)).foldl addMember types := by
  obtain ⟨types, htypes, h₁⟩ := Refusal.bind_eq_ok.mp h
  exact ⟨types, htypes, (Refusal.pure_eq_ok.mp h₁).symm⟩

/-- The target of a type is the one that its linkability gives it. -/
theorem find?_type (h : ofModel m root = .ok ts) (he : e ∈ m.elements) (htype : e.isType = true) :
    ts.find? e.uid = some t ↔ m.isLinkable e = .ok true ∧ Target.ofType root e = .ok t := by
  obtain ⟨types, htypes, rfl⟩ := of_ofModel h
  constructor
  · intro hfind
    rcases of_find?_foldl hfind with hfound | ⟨x, hx, huid, -⟩
    · obtain ⟨x, hx, -, hlinkable, ht, huid⟩ := (find?_ofTypes_iff htypes).mp hfound
      rw [Catalog.eq_of_uid_eq hx he huid] at hlinkable ht
      exact ⟨hlinkable, ht⟩
    · obtain ⟨hmem, hnot⟩ := List.mem_filter.mp hx
      rw [Catalog.eq_of_uid_eq hmem he huid, htype] at hnot
      cases hnot
  · rintro ⟨hlinkable, ht⟩
    exact find?_foldl_of_some _
      ((find?_ofTypes_iff htypes).mpr ⟨e, he, htype, hlinkable, ht, rfl⟩)

theorem exists_find?_type (h : ofModel m root = .ok ts) (he : e ∈ m.elements)
    (htype : e.isType = true) (hlinkable : m.isLinkable e = .ok true) :
    ∃ t, ts.find? e.uid = some t := by
  obtain ⟨types, htypes, rfl⟩ := of_ofModel h
  have hreturns := (Refusal.filterMapM_eq_ok.mp htypes).1
  obtain ⟨_, hstep⟩ := hreturns e (List.mem_filter.mpr ⟨he, htype⟩)
  obtain ⟨linkable, hlinkable', h₁⟩ := Refusal.bind_eq_ok.mp hstep
  obtain rfl := Except.ok.inj (hlinkable'.symm.trans hlinkable)
  obtain ⟨t, ht, -⟩ := Refusal.bind_eq_ok.mp h₁
  exact ⟨t, find?_foldl_of_some _
    ((find?_ofTypes_iff htypes).mpr ⟨e, he, htype, hlinkable, ht, rfl⟩)⟩

/-- Every documented type is a target, so the root of its page is a text. -/
theorem find?_documented {documented : List Element} (h : ofModel m root = .ok ts)
    (hdocumented : m.documentedTypes = .ok documented) (he : e ∈ documented) :
    ∃ s, root = .text s ∧
      ts.find? e.uid = some ⟨e.name, PagePath.ofType s e.fullName e.package⟩ := by
  obtain ⟨hfiltered, hincluded⟩ := (Refusal.mem_iff_of_filterM_eq_ok hdocumented).mp he
  obtain ⟨hmem, htype⟩ := List.mem_filter.mp hfiltered
  have hlinkable : m.isLinkable e = .ok true := by
    unfold Model.isLinkable
    rw [if_pos htype, hincluded, ite_self]
  obtain ⟨t, hfind⟩ := exists_find?_type h hmem htype hlinkable
  obtain ⟨s, hroot, rfl⟩ := Target.ofType_eq_ok.mp ((find?_type h hmem htype).mp hfind).2
  exact ⟨s, hroot, hfind⟩

/-- The pages of the documented types lie below one root. -/
theorem exists_root {documented : List Element} (h : ofModel m root = .ok ts)
    (hdocumented : m.documentedTypes = .ok documented) : ∃ s, ∀ e ∈ documented,
      root = .text s ∧
        ts.find? e.uid = some ⟨e.name, PagePath.ofType s e.fullName e.package⟩ := by
  cases documented with
  | nil => exact ⟨"", fun e he => absurd he List.not_mem_nil⟩
  | cons x xs =>
      obtain ⟨s, rfl, -⟩ := find?_documented h hdocumented List.mem_cons_self
      refine ⟨s, fun e he => ?_⟩
      obtain ⟨s', hs', hfind⟩ := find?_documented h hdocumented he
      obtain rfl : s = s' := by cases hs'; rfl
      exact ⟨rfl, hfind⟩

/-- A member of a type that is a target leads to its anchor on the type's page. -/
theorem find?_member (h : ofModel m root = .ok ts) (hx : x ∈ m.elements) (htype : x.isType = true)
    (ht : ts.find? x.uid = some t) (he : e ∈ m.membersOf x) (hnot : e.isType = false) :
    ts.find? e.uid = some (t.ofMember e) := by
  obtain ⟨hmem, hparent⟩ := Model.mem_membersOf_iff.mp he
  have hfound := (find?_type h hx htype).mp ht
  obtain ⟨types, htypes, rfl⟩ := of_ofModel h
  refine find?_foldl_member ?_ (List.mem_filter.mpr ⟨hmem, by rw [hnot]; rfl⟩) ?_ ?_
  · exact m.distinct_uids.sublist (List.filter_sublist.map _)
  · -- A type with the uid of the member would be the member.
    cases hfind : types.find? e.uid with
    | none => rfl
    | some t' =>
        obtain ⟨y, hy, hytype, -, -, huid⟩ := (find?_ofTypes_iff htypes).mp hfind
        rw [Catalog.eq_of_uid_eq hy hmem huid, hnot] at hytype
        cases hytype
  · rw [hparent]
    exact (find?_ofTypes_iff htypes).mpr ⟨x, hx, htype, hfound.1, hfound.2, rfl⟩

end Targets

end TypePages
