import Mathlib
import TypePages.Proofs.Catalog
import TypePages.Proofs.Hiding
import TypePages.Proofs.Order

/-!
A collection of elements has one sorted list.

Two facts are needed for it, and both come from the uids of a model.

  * The comparison decides between any two elements.  Elements that it does not tell apart have one
    uid, and a uid stands for one element of the model.
  * Dropping what has a uid that occurred before drops repetitions only, for the same reason.

So what `sorted` returns is a strictly ascending list with each element of the collection once, and
there is no other such list: neither the order in which the elements come nor how often they come
can be seen in it.
-/

namespace TypePages.Element

open Std

variable {m : Model} {a b e : Element} {es es' l l' : List Element}

/-! ### The comparison of two elements -/

/-- Elements of a model that are not told apart are one. -/
theorem compare_eq_iff (ha : a ∈ m.elements) (hb : b ∈ m.elements) :
    compare a b = .eq ↔ a = b := by
  constructor
  · intro h
    exact Catalog.eq_of_uid_eq ha hb (uid_eq_of_compare_eq h)
  · rintro rfl
    exact ReflCmp.compare_self

/-- No element stands twice in an ascending list. -/
theorem nodup_of_ascending (h : l.Pairwise fun a b => compare a b = .lt) : l.Nodup := by
  refine h.imp ?_
  rintro a b hlt rfl
  cases hlt.symm.trans ReflCmp.compare_self

/-! ### The list of a collection -/

/-- A list has the elements of a collection, each of them once, and in strictly ascending order. -/
structure Lists (l es : List Element) : Prop where
  ascending : l.Pairwise fun a b => compare a b = .lt
  once : ∀ e, l.count e = if e ∈ es then 1 else 0

/-- That no element occurs twice need not be asked of an ascending list. -/
theorem lists_iff : Lists l es ↔
    (l.Pairwise fun a b => compare a b = .lt) ∧ ∀ e, e ∈ l ↔ e ∈ es := by
  constructor
  · intro h
    refine ⟨h.ascending, fun e => ?_⟩
    rw [← List.count_pos_iff, h.once e]
    by_cases he : e ∈ es
    · simp [he]
    · simp [he]
  · rintro ⟨hascending, hmem⟩
    refine ⟨hascending, fun e => ?_⟩
    rw [(nodup_of_ascending hascending).count]
    simp only [hmem]

/-- Collections with the same elements have one list. -/
theorem Lists.unique (h : Lists l es) (h' : Lists l' es') (hsame : ∀ e, e ∈ es ↔ e ∈ es') :
    l = l' := by
  have hperm : l.Perm l' :=
    (List.perm_ext_iff_of_nodup (nodup_of_ascending h.ascending)
      (nodup_of_ascending h'.ascending)).mpr fun e => by
        rw [(lists_iff.mp h).2, (lists_iff.mp h').2, hsame]
  exact eq_of_ascending hperm h.ascending h'.ascending

/-- Sorting finds the list of a collection. -/
theorem lists_sorted (hes : ∀ e ∈ es, e ∈ m.elements) : Lists (sorted es) es :=
  lists_iff.mpr ⟨sorted_ascending es, fun _ => (sorted_perm_distinct es).mem_iff.trans <|
    mem_distinct_iff fun a ha b hb => Catalog.eq_of_uid_eq (hes a ha) (hes b hb)⟩

/-- **The order of a model's elements is strict and total, and a collection of them has one sorted
list.**  The list does not depend on the order in which the elements are given or on repetitions, so
sorting it again leaves it as it is. -/
theorem sorted_canonical (m : Model) :
    (∀ a ∈ m.elements, ∀ b ∈ m.elements,
      (compare a b = .eq ↔ a = b) ∧ compare a b = (compare b a).swap ∧
        ∀ c ∈ m.elements, compare a b = .lt → compare b c = .lt → compare a c = .lt) ∧
    ∀ es, (∀ e ∈ es, e ∈ m.elements) →
      (∀ l, Lists l es ↔ l = sorted es) ∧
        (∀ es', (∀ e, e ∈ es' ↔ e ∈ es) → sorted es' = sorted es) ∧
        sorted (sorted es) = sorted es := by
  refine ⟨fun a ha b hb => ⟨compare_eq_iff ha hb, OrientedCmp.eq_swap,
    fun c _ => TransCmp.lt_trans⟩, fun es hes => ?_⟩
  have hsorted := lists_sorted hes
  -- A collection with the same elements is one of the model's as well.
  have hsame : ∀ es', (∀ e, e ∈ es' ↔ e ∈ es) → sorted es' = sorted es := fun es' hiff =>
    (lists_sorted fun _ he => hes _ ((hiff _).mp he)).unique hsorted hiff
  refine ⟨fun l => ⟨fun h => h.unique hsorted fun _ => Iff.rfl, ?_⟩, hsame,
    hsame _ (lists_iff.mp hsorted).2⟩
  rintro rfl
  exact hsorted

/-! ### Sums on a scale

Two names differ in case only, two types do, and a field has the name of a method.
-/

/-- A method of scales with parameters of the given types. -/
def adding (name : String) (types : List String) : Element :=
  { Table.sampleMethod "Scale" name "public" [] with
    uid := "Scale." ++ name ++ "(" ++ Text.join "," types ++ ")"
    parameters := types.map fun type => { name := "x", type } }

/-- The sum that is shown. -/
def sumShown : Element :=
  { Table.sampleMethod "Scale" "add" "public" [] with kind := .field }

/-- Scales. -/
def scales : Model where
  elements := [Table.sampleType .classType "Scale" none [], adding "add" ["int"], adding "add" [],
    adding "Add" [], sumShown, adding "add" ["Int"]]
  distinct_uids := by decide +kernel
  minAccess := .text "public"
  external := []

/-- The elements of scales in order. -/
def scaleOrder : List Element :=
  [adding "Add" [], sumShown, adding "add" [], adding "add" ["Int"], adding "add" ["int"],
    Table.sampleType .classType "Scale" none []]

theorem sorted_canonical_scales :
    (∀ e ∈ adding "add" ["int"] :: scales.elements, e ∈ scales.elements) ∧
      sorted (adding "add" ["int"] :: scales.elements) = scaleOrder ∧
      sorted scaleOrder.reverse = scaleOrder ∧
      compare (adding "Add" []) (adding "add" []) = .lt ∧
      compare (adding "add" []) (adding "Add" []) = .gt := by
  have hmem : ∀ e ∈ adding "add" ["int"] :: scales.elements, e ∈ scales.elements := by
    decide +kernel
  have hsame : ∀ e, e ∈ scaleOrder ↔ e ∈ adding "add" ["int"] :: scales.elements := by
    have hsub : (∀ e ∈ scaleOrder, e ∈ adding "add" ["int"] :: scales.elements) ∧
        ∀ e ∈ adding "add" ["int"] :: scales.elements, e ∈ scaleOrder := by decide +kernel
    exact fun e => ⟨hsub.1 e, hsub.2 e⟩
  have hlists : Lists scaleOrder (adding "add" ["int"] :: scales.elements) :=
    lists_iff.mpr ⟨by decide +kernel, hsame⟩
  obtain ⟨hcompare, hall⟩ := sorted_canonical scales
  obtain ⟨hunique, hperm, -⟩ := hall _ hmem
  have hsorted := (hunique scaleOrder).mp hlists
  have hlt : compare (adding "Add" []) (adding "add" []) = .lt := by decide +kernel
  refine ⟨hmem, hsorted.symm, ?_, hlt, ?_⟩
  · rw [hperm scaleOrder.reverse fun e => List.mem_reverse.trans (hsame e), ← hsorted]
  · rw [(hcompare _ (by decide +kernel) _ (by decide +kernel)).2.1, hlt]
    rfl

end TypePages.Element
