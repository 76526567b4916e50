import Mathlib.Data.List.Nodup
import TypePages.Element.Order

/-!
The order of elements is strict where uids differ.

Every list of members that a page shows goes through `Element.sorted`.  A merge sort alone would
only promise a list in which nothing stands before something smaller.  That no two neighbours are
equal takes two facts more: keys that compare as equal are equal, so elements that compare as equal
have one uid, and `Element.distinct` leaves no uid twice.  `sorted_ascending` puts the three
together.
-/

namespace TypePages.Element

open Std

/-! ### Keys -/

instance : TransCmp SortKey.compare :=
  inferInstanceAs <| TransCmp <|
    compareLex (compareOn SortKey.foldedName) <|
    compareLex (compareOn SortKey.foldedTypes) <|
    compareLex (compareOn SortKey.name) <|
    compareLex (compareOn SortKey.types) <|
    compareLex (compareOn SortKey.kind) <|
    compareLex (compareOn SortKey.foldedParent) <|
    compareLex (compareOn SortKey.parent) (compareOn SortKey.uid)

instance : LawfulEqCmp SortKey.compare where
  eq_of_compare {a b} h := by
    simp only [SortKey.compare, Ordering.then_eq_eq, LawfulEqOrd.compare_eq_iff_eq] at h
    obtain ⟨h₁, h₂, h₃, h₄, h₅, h₆, h₇, h₈⟩ := h
    cases a
    cases b
    simp_all

instance : TransCmp Element.compare where
  eq_swap {a b} := @OrientedCmp.eq_swap _ SortKey.compare _ a.sortKey b.sortKey
  isLE_trans {a b c} := @TransCmp.isLE_trans _ SortKey.compare _ a.sortKey b.sortKey c.sortKey

/-- Elements that compare as equal have one uid. -/
theorem uid_eq_of_compare_eq {a b : Element} (h : compare a b = .eq) : a.uid = b.uid :=
  congrArg SortKey.uid (@LawfulEqCmp.eq_of_compare _ SortKey.compare _ _ _ h)

/-! ### Each uid once -/

/-- One step of the walk that leaves out the uids that have occurred. -/
def keep (kept : List Element) (e : Element) : List Element :=
  if kept.any (·.uid == e.uid) then kept else kept ++ [e]

theorem distinct_eq_foldl (es : List Element) : distinct es = es.foldl keep [] := rfl

theorem keep_of_mem {kept : List Element} {e : Element} (h : e.uid ∈ kept.map (·.uid)) :
    keep kept e = kept := by
  obtain ⟨e', he', huid⟩ := List.mem_map.mp h
  rw [keep, if_pos (List.any_eq_true.mpr ⟨e', he', by simpa using huid⟩)]

theorem keep_of_notMem {kept : List Element} {e : Element} (h : e.uid ∉ kept.map (·.uid)) :
    keep kept e = kept ++ [e] := by
  rw [keep, if_neg]
  intro hany
  obtain ⟨e', he', huid⟩ := List.any_eq_true.mp hany
  exact h (List.mem_map.mpr ⟨e', he', by simpa using huid⟩)

theorem nodup_keep {kept : List Element} (e : Element) (h : (kept.map (·.uid)).Nodup) :
    ((keep kept e).map (·.uid)).Nodup := by
  by_cases hmem : e.uid ∈ kept.map (·.uid)
  · rw [keep_of_mem hmem]
    exact h
  · rw [keep_of_notMem hmem, List.map_append, List.map_singleton]
    exact List.nodup_append.mpr ⟨h, List.nodup_singleton _, fun a ha b hb hab =>
      hmem (by rwa [← List.mem_singleton.mp hb, ← hab])⟩

theorem nodup_foldl_keep (es : List Element) :
    ∀ kept : List Element, (kept.map (·.uid)).Nodup → ((es.foldl keep kept).map (·.uid)).Nodup := by
  induction es with
  | nil => intro kept h; exact h
  | cons e es ih => intro kept h; exact ih _ (nodup_keep e h)

/-- No uid is left twice. -/
theorem nodup_distinct (es : List Element) : ((distinct es).map (·.uid)).Nodup :=
  nodup_foldl_keep es [] List.nodup_nil

theorem mem_or_mem_of_mem_foldl_keep {e : Element} (es : List Element) :
    ∀ kept : List Element, e ∈ es.foldl keep kept → e ∈ kept ∨ e ∈ es := by
  induction es with
  | nil => intro kept h; exact .inl h
  | cons x es ih =>
      intro kept h
      rcases ih _ h with h | h
      · by_cases hmem : x.uid ∈ kept.map (·.uid)
        · rw [keep_of_mem hmem] at h
          exact .inl h
        · rw [keep_of_notMem hmem] at h
          rcases List.mem_append.mp h with h | h
          · exact .inl h
          · exact .inr (List.mem_cons.mpr (.inl (List.mem_singleton.mp h)))
      · exact .inr (List.mem_cons_of_mem _ h)

theorem uid_mem_keep_iff {uid : String} (kept : List Element) (e : Element) :
    uid ∈ (keep kept e).map (·.uid) ↔ uid ∈ kept.map (·.uid) ∨ uid = e.uid := by
  by_cases hmem : e.uid ∈ kept.map (·.uid)
  · rw [keep_of_mem hmem]
    exact ⟨.inl, fun h => h.elim id fun heq => heq ▸ hmem⟩
  · rw [keep_of_notMem hmem, List.map_append, List.mem_append, List.map_singleton,
      List.mem_singleton]

/-- The walk keeps each uid that it starts with or meets. -/
theorem uid_mem_foldl_keep_iff {uid : String} (es : List Element) :
    ∀ kept : List Element,
      uid ∈ (es.foldl keep kept).map (·.uid) ↔ uid ∈ kept.map (·.uid) ∨ uid ∈ es.map (·.uid) := by
  induction es with
  | nil => intro kept; simp
  | cons e es ih =>
      intro kept
      rw [List.foldl_cons, ih, uid_mem_keep_iff, List.map_cons, List.mem_cons, or_assoc]

/-- Where a uid stands for one element, an element is left out only if it is kept elsewhere. -/
theorem mem_distinct_iff {es : List Element} {e : Element}
    (hone : ∀ a ∈ es, ∀ b ∈ es, a.uid = b.uid → a = b) : e ∈ distinct es ↔ e ∈ es := by
  have hsub : ∀ x ∈ distinct es, x ∈ es := fun x hx =>
    (mem_or_mem_of_mem_foldl_keep es [] hx).resolve_left List.not_mem_nil
  constructor
  · exact hsub e
  · intro he
    have huid : e.uid ∈ (distinct es).map (·.uid) :=
      (uid_mem_foldl_keep_iff es []).mpr (.inr (List.mem_map_of_mem he))
    obtain ⟨x, hx, hxe⟩ := List.mem_map.mp huid
    rwa [← hone x (hsub x hx) e he hxe]

theorem foldl_keep_of_nodup (es : List Element) :
    ∀ kept : List Element, ((kept ++ es).map (·.uid)).Nodup → es.foldl keep kept = kept ++ es := by
  induction es with
  | nil => intro kept _; rw [List.append_nil]; rfl
  | cons e es ih =>
      intro kept h
      have hmem : e.uid ∉ kept.map (·.uid) := by
        intro hc
        rw [List.map_append, List.map_cons] at h
        exact (List.nodup_append.mp h).2.2 _ hc _ (by simp) rfl
      rw [List.foldl_cons, keep_of_notMem hmem, ih _ (by simpa using h), List.append_assoc,
        List.singleton_append]

/-- Where no uid repeats nothing is left out. -/
theorem distinct_of_nodup {es : List Element} (h : (es.map (·.uid)).Nodup) : distinct es = es := by
  rw [distinct_eq_foldl, foldl_keep_of_nodup es [] (by simpa using h), List.nil_append]

/-! ### Sorting -/

theorem sorted_perm_distinct (es : List Element) : (sorted es).Perm (distinct es) :=
  List.mergeSort_perm _ _

/-- Sorting elements with distinct uids neither adds nor drops one. -/
theorem sorted_perm {es : List Element} (h : (es.map (·.uid)).Nodup) : (sorted es).Perm es := by
  have hperm := sorted_perm_distinct es
  rwa [distinct_of_nodup h] at hperm

/-- **Every sorted list ascends strictly.** -/
theorem sorted_ascending (es : List Element) :
    (sorted es).Pairwise fun a b => compare a b = .lt := by
  have hle : (sorted es).Pairwise fun a b => (compare a b).isLE :=
    List.pairwise_mergeSort (fun a b c => TransCmp.isLE_trans)
      (fun a b => by
        rw [@OrientedCmp.eq_swap _ Element.compare _ b a]
        cases compare a b <;> rfl) _
  have hne : (sorted es).Pairwise fun a b => a.uid ≠ b.uid :=
    List.pairwise_map.mp (((sorted_perm_distinct es).map _).nodup_iff.mpr (nodup_distinct es))
  refine (hle.and hne).imp ?_
  rintro a b ⟨hab, huid⟩
  cases h : compare a b with
  | lt => rfl
  | eq => exact absurd (uid_eq_of_compare_eq h) huid
  | gt => rw [h] at hab; exact absurd hab (by decide)

/-- There is one ascending order of the same elements. -/
theorem eq_of_ascending {es es' : List Element} (hperm : es.Perm es')
    (h : es.Pairwise fun a b => compare a b = .lt)
    (h' : es'.Pairwise fun a b => compare a b = .lt) : es = es' := by
  refine hperm.eq_of_pairwise (fun a b _ _ hab hba => ?_) h h'
  rw [@OrientedCmp.eq_swap _ compare _ a b, hba] at hab
  cases hab

end TypePages.Element
