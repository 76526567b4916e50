import Mathlib
import TypePages.Proofs.Ancestry
import TypePages.Proofs.Refusal

/-!
What is reached by following a link, and the access level that this leaves.

A link leads from an element to at most one other, so the elements reached from one form a line.  The
walk along it stops where it would come back, and it has then seen everything: what the last element
leads to is on the line already, and so is what any other leads to.  `mem_line_iff` says that the line
holds exactly the elements that are reached, whatever the links look like.  `leftOver` is what any
walk, also one that branches, has yet to visit.

The effective access of an element is the lowest level on the line of its enclosing elements.  The
line of an enclosing element is part of it, also when the two are the same circle started at different
places, and from this the comparisons along the line follow.
-/

namespace TypePages.Model

variable {m : Model} {next : Element → Option Element} {unvisited : List String}
  {e x y : Element}

/-! ### Lines -/

/-- An element leads to another by a link. -/
def Leads (next : Element → Option Element) (x y : Element) : Prop := next x = some y

theorem isChain_line : (e :: chain next unvisited e).IsChain (Leads next) := by
  fun_induction chain next unvisited e with
  | case1 => exact .singleton _
  | case2 unvisited e e' hnext hmem ih => exact .cons_cons hnext ih
  | case3 => exact .singleton _

theorem reached_of_mem_chain (h : x ∈ chain next unvisited e) :
    Relation.ReflTransGen (Leads next) e x := by
  fun_induction chain next unvisited e with
  | case1 => exact absurd h List.not_mem_nil
  | case2 unvisited e e' hnext hmem ih =>
      refine .head hnext ?_
      rcases List.mem_cons.mp h with rfl | h
      · exact .refl
      · exact ih h
  | case3 => exact absurd h List.not_mem_nil

/-- What an element of a line leads to is on the line as well, or the walk had visited it before. -/
theorem uid_of_leads (hx : x ∈ e :: chain next unvisited e) (hnext : next x = some y) :
    y.uid ∈ (chain next unvisited e).map (·.uid) ∨ y.uid ∉ unvisited := by
  fun_induction chain next unvisited e with
  | case1 unvisited e hend =>
      rw [List.mem_singleton.mp hx, hend] at hnext
      cases hnext
  | case2 unvisited e e' hnext' hmem ih =>
      rcases List.mem_cons.mp hx with rfl | hx
      · obtain rfl := Option.some.inj (hnext'.symm.trans hnext)
        exact .inl List.mem_cons_self
      · rcases ih hx with hin | hout
        · exact .inl (List.mem_cons_of_mem _ hin)
        · by_cases heq : y.uid = e'.uid
          · exact .inl (by rw [heq]; exact List.mem_cons_self)
          · exact .inr fun hy => hout ((List.mem_erase_of_ne heq).mpr hy)
  | case3 unvisited e e' hnext' hmem =>
      rw [List.mem_singleton.mp hx, hnext'] at hnext
      exact .inr (Option.some.inj hnext ▸ hmem)

section

variable (he : e ∈ m.elements) (hknown : ∀ {x y}, next x = some y → y ∈ m.elements)

include he hknown

theorem mem_elements_of_reached (h : Relation.ReflTransGen (Leads next) e x) : x ∈ m.elements := by
  cases h with
  | refl => exact he
  | tail _ hlast => exact hknown hlast

/-- What an element of a line leads to is on the line as well. -/
theorem mem_line_of_leads (hx : x ∈ e :: chain next (m.uids.erase e.uid) e)
    (hnext : next x = some y) : y ∈ e :: chain next (m.uids.erase e.uid) e := by
  have hy : y ∈ m.elements := hknown hnext
  rcases uid_of_leads hx hnext with hin | hout
  · obtain ⟨z, hz, huid⟩ := List.mem_map.mp hin
    have hzm := mem_elements_of_reached he hknown (reached_of_mem_chain hz)
    exact Catalog.eq_of_uid_eq hzm hy huid ▸ List.mem_cons_of_mem e hz
  · have huid : y.uid = e.uid := by
      by_contra hne
      exact hout ((List.mem_erase_of_ne hne).mpr (List.mem_map_of_mem hy))
    exact Catalog.eq_of_uid_eq hy he huid ▸ List.mem_cons_self

/-- **The line from an element holds exactly the elements that are reached from it.** -/
theorem mem_line_iff :
    x ∈ e :: chain next (m.uids.erase e.uid) e ↔ Relation.ReflTransGen (Leads next) e x := by
  constructor
  · intro hx
    rcases List.mem_cons.mp hx with rfl | hx
    · exact .refl
    · exact reached_of_mem_chain hx
  · intro h
    induction h with
    | refl => exact List.mem_cons_self
    | tail _ hlast ih => exact mem_line_of_leads he hknown ih hlast

end

theorem mem_elements_of_find? {uid : String} (h : m.find? uid = some e) : e ∈ m.elements :=
  (find?_eq_some_iff.mp h).1

/-! ### What is left to visit -/

/-- What is left of unvisited uids when some elements have been visited. -/
def leftOver (unvisited : List String) (es : List Element) : List String :=
  unvisited.diff (es.map (·.uid))

section LeftOver

variable {es es' : List Element} {uid : String}

theorem leftOver_cons : leftOver unvisited (e :: es) = leftOver (unvisited.erase e.uid) es :=
  List.diff_cons _ _ _

theorem leftOver_append : leftOver unvisited (es ++ es') = leftOver (leftOver unvisited es) es' := by
  rw [leftOver, List.map_append, List.diff_append]
  rfl

theorem mem_of_mem_leftOver (h : uid ∈ leftOver unvisited es) : uid ∈ unvisited :=
  (List.diff_sublist _ _).subset h

theorem nodup_leftOver (hu : unvisited.Nodup) : (leftOver unvisited es).Nodup := hu.diff

theorem mem_leftOver_iff (hu : unvisited.Nodup) :
    uid ∈ leftOver unvisited es ↔ uid ∈ unvisited ∧ uid ∉ es.map (·.uid) := hu.mem_sdiff_iff

/-- Within a model it is the same to ask for an element or for its uid. -/
theorem uid_mem_map_iff (hes : ∀ y ∈ es, y ∈ m.elements) (hx : x ∈ m.elements) :
    x.uid ∈ es.map (·.uid) ↔ x ∈ es := by
  refine ⟨fun h => ?_, List.mem_map_of_mem⟩
  obtain ⟨z, hz, huid⟩ := List.mem_map.mp h
  exact Catalog.eq_of_uid_eq (hes z hz) hx huid ▸ hz

theorem length_erase_lt (h : uid ∈ unvisited) : (unvisited.erase uid).length < unvisited.length := by
  rw [List.length_erase_of_mem h]
  exact Nat.sub_lt (List.length_pos_of_mem h) Nat.one_pos

/-- Visiting an unvisited element leaves less. -/
theorem length_leftOver_lt (h : e.uid ∈ unvisited) :
    (leftOver unvisited (e :: es)).length < unvisited.length := by
  rw [leftOver_cons]
  calc (leftOver (unvisited.erase e.uid) es).length
      ≤ (unvisited.erase e.uid).length := (List.diff_sublist _ _).length_le
    _ < unvisited.length := length_erase_lt h

end LeftOver

/-! ### Access along the enclosing elements -/

/-- An element is directly enclosed by another. -/
abbrev Enclosed (m : Model) : Element → Element → Prop := Leads m.enclosing?

theorem mem_elements_of_enclosing? (h : m.enclosing? x = some y) : y ∈ m.elements := by
  obtain ⟨uid, -, hfind⟩ := Option.bind_eq_some_iff.mp h
  exact mem_elements_of_find? hfind

/-- The most restrictive of several levels. -/
theorem rank_le_foldl_meet_iff {n : Nat} {a : Access} {es : List Element} :
    n ≤ (es.foldl (fun a outer => a.meet outer.level) a).rank ↔
      n ≤ a.rank ∧ ∀ x ∈ es, n ≤ x.level.rank := by
  induction es generalizing a with
  | nil => simp
  | cons e es ih =>
      rw [List.foldl_cons, ih, Access.rank_meet, Nat.le_min, List.forall_mem_cons, and_assoc]

theorem level_of_foldl_meet (a : Access) (es : List Element) :
    es.foldl (fun a outer => a.meet outer.level) a = a ∨
      ∃ x ∈ es, x.level = es.foldl (fun a outer => a.meet outer.level) a := by
  induction es generalizing a with
  | nil => exact .inl rfl
  | cons e es ih =>
      rw [List.foldl_cons]
      rcases ih (a.meet e.level) with heq | ⟨x, hx, heq⟩
      · rw [heq, Access.meet]
        split
        · exact .inl rfl
        · exact .inr ⟨e, List.mem_cons_self, rfl⟩
      · exact .inr ⟨x, List.mem_cons_of_mem e hx, heq⟩

/-- A level is below the effective one exactly if it is below all that are reached. -/
theorem rank_le_effectiveAccess_iff (he : e ∈ m.elements) {n : Nat} :
    n ≤ (m.effectiveAccess e).rank ↔
      ∀ x, Relation.ReflTransGen m.Enclosed e x → n ≤ x.level.rank := by
  have hline : ∀ x, x ∈ e :: m.enclosingChain e ↔ Relation.ReflTransGen m.Enclosed e x :=
    fun x => mem_line_iff he mem_elements_of_enclosing?
  have hall : (∀ x ∈ e :: m.enclosingChain e, n ≤ x.level.rank) ↔
      n ≤ e.level.rank ∧ ∀ x ∈ m.enclosingChain e, n ≤ x.level.rank := List.forall_mem_cons
  rw [effectiveAccess, rank_le_foldl_meet_iff, ← hall]
  exact forall_congr' fun x => imp_congr (hline x) Iff.rfl

theorem exists_level_eq_effectiveAccess (m : Model) (e : Element) :
    ∃ x, Relation.ReflTransGen m.Enclosed e x ∧ x.level = m.effectiveAccess e := by
  rcases level_of_foldl_meet e.level (m.enclosingChain e) with heq | ⟨x, hx, heq⟩
  · exact ⟨e, .refl, heq.symm⟩
  · exact ⟨x, reached_of_mem_chain hx, heq⟩

/-- What an element is enclosed by is no harder to reach. -/
theorem effectiveAccess_le_of_reached (he : e ∈ m.elements)
    (h : Relation.ReflTransGen m.Enclosed e x) : m.effectiveAccess e ≤ m.effectiveAccess x := by
  have hx := mem_elements_of_reached he mem_elements_of_enclosing? h
  refine (rank_le_effectiveAccess_iff hx).mpr fun y hy => ?_
  exact (rank_le_effectiveAccess_iff he).mp (Nat.le_refl _) y (h.trans hy)

theorem isIncluded_eq_ok {s : Bool} : m.isIncluded e = .ok s ↔
    ∃ least, m.threshold = .ok least ∧ decide (least ≤ m.effectiveAccess e) = s := by
  rw [isIncluded, Refusal.bind_eq_ok]
  exact exists_congr fun least => and_congr_right fun _ => Refusal.pure_eq_ok

theorem isIncluded_of_reached (he : e ∈ m.elements) (h : Relation.ReflTransGen m.Enclosed e x)
    (hincluded : m.isIncluded e = .ok true) : m.isIncluded x = .ok true := by
  obtain ⟨least, hleast, hle⟩ := isIncluded_eq_ok.mp hincluded
  refine isIncluded_eq_ok.mpr ⟨least, hleast, decide_eq_true ?_⟩
  exact Nat.le_trans (of_decide_eq_true hle) (effectiveAccess_le_of_reached he h)

/-! ### The least level -/

/-- The model with a word for the least level that is documented. -/
def startingAt (m : Model) (word : String) : Model := { m with minAccess := .text word }

theorem isIncluded_startingAt (m : Model) (word : String) (e : Element) :
    (m.startingAt word).isIncluded e = .ok (decide (.ofWord word ≤ m.effectiveAccess e)) := rfl

/-- Under a word for the least level the types that have a page are found. -/
theorem documentedTypes_startingAt (m : Model) (word : String) :
    (m.startingAt word).documentedTypes = .ok ((m.elements.filter (·.isType)).filter
      fun e => .ofWord word ≤ m.effectiveAccess e) := by
  obtain ⟨types, htypes⟩ : ∃ types, (m.startingAt word).documentedTypes = .ok types :=
    Refusal.filterM_returns fun e _ => ⟨_, isIncluded_startingAt m word e⟩
  rw [htypes, (Refusal.filterM_eq_ok htypes).2]
  refine congrArg Except.ok (List.filter_congr fun e _ => ?_)
  rw [isIncluded_startingAt]
  cases decide (.ofWord word ≤ m.effectiveAccess e) <;> rfl

/-- **The effective access of an element is the lowest level among what encloses it**, the element
included, on whatever circles and dead ends the enclosing elements lie.  Therefore it is not above
that of an enclosing element, with an element all that encloses it is documented, and a higher least
level documents no type that a lower one does not. -/
theorem effectiveAccess_isLeast (he : e ∈ m.elements) :
    IsLeast {n | ∃ x, Relation.ReflTransGen m.Enclosed e x ∧ x.level.rank = n}
        (m.effectiveAccess e).rank ∧
      (∀ outer, m.enclosing? e = some outer → m.effectiveAccess e ≤ m.effectiveAccess outer) ∧
      (m.isIncluded e = .ok true →
        ∀ x, Relation.ReflTransGen m.Enclosed e x → m.isIncluded x = .ok true) ∧
      ∀ low high, Access.ofWord low ≤ Access.ofWord high →
        ∃ wide narrow, (m.startingAt low).documentedTypes = .ok wide ∧
          (m.startingAt high).documentedTypes = .ok narrow ∧ narrow.Sublist wide := by
  refine ⟨⟨?_, ?_⟩, ?_, ?_, ?_⟩
  · obtain ⟨x, hx, hlevel⟩ := exists_level_eq_effectiveAccess m e
    exact ⟨x, hx, congrArg Access.rank hlevel⟩
  · rintro _ ⟨x, hx, rfl⟩
    exact (rank_le_effectiveAccess_iff he).mp (Nat.le_refl _) x hx
  · exact fun outer houter => effectiveAccess_le_of_reached he (.single houter)
  · exact fun hincluded x hx => isIncluded_of_reached he hx hincluded
  · intro low high hle
    refine ⟨_, _, documentedTypes_startingAt m low, documentedTypes_startingAt m high, ?_⟩
    refine List.monotone_filter_right _ fun x hx => ?_
    exact decide_eq_true (Nat.le_trans hle (of_decide_eq_true hx))

/-! The lid and the case of a locket enclose each other, and the lid has a hinge. -/

/-- The lid, which is public. -/
def lid : Element where
  uid := "Lid"
  kind := .classType
  name := "Lid"
  fullName := "Lid"
  parent := some "Case"
  access := "public"

/-- The case, which is protected. -/
def lidCase : Element where
  uid := "Case"
  kind := .classType
  name := "Case"
  fullName := "Case"
  parent := some "Lid"
  access := "protected"

/-- A public method of the lid. -/
def hinge : Element where
  uid := "Lid.hinge"
  kind := .method
  name := "hinge"
  fullName := "Lid.hinge"
  parent := some "Lid"
  access := "public"

/-- The locket, documented from protected members on. -/
def locket : Model where
  elements := [lid, lidCase, hinge]
  distinct_uids := by decide +kernel
  minAccess := .text "protected"
  external := []

theorem effectiveAccess_isLeast_hinge :
    hinge ∈ locket.elements ∧ locket.enclosing? hinge = some lid ∧
      IsLeast {n | ∃ x, Relation.ReflTransGen locket.Enclosed hinge x ∧ x.level.rank = n}
        (Access.rank .protectedOnly) ∧
      locket.effectiveAccess hinge ≤ locket.effectiveAccess lid ∧
      locket.isIncluded hinge = .ok true ∧ locket.isIncluded lidCase = .ok true ∧
      Access.ofWord "package" ≤ Access.ofWord "public" ∧
      ∃ wide narrow, (locket.startingAt "package").documentedTypes = .ok wide ∧
        (locket.startingAt "public").documentedTypes = .ok narrow ∧ narrow.Sublist wide := by
  have hmem : hinge ∈ locket.elements := by decide +kernel
  have houter : locket.enclosing? hinge = some lid := by decide +kernel
  have houter' : locket.enclosing? lid = some lidCase := by decide +kernel
  have haccess : locket.effectiveAccess hinge = .protectedOnly := by cbv
  have hincluded : locket.isIncluded hinge = .ok true := by cbv
  have hwords : Access.ofWord "package" ≤ Access.ofWord "public" := by decide +kernel
  obtain ⟨hleast, hmono, hall, hraised⟩ := effectiveAccess_isLeast hmem
  rw [haccess] at hleast
  have hreached : Relation.ReflTransGen locket.Enclosed hinge lidCase :=
    .tail (.single houter) houter'
  exact ⟨hmem, houter, hleast, hmono lid houter, hincluded, hall hincluded lidCase hreached,
    hwords, hraised "package" "public" hwords⟩

end TypePages.Model
