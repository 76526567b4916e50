import Mathlib
import TypePages.Proofs.Table

/-!
What a type inherits, said without the walk that finds it.

`Table.unhidden` goes through what the supertypes offer and remembers every hiding key it has met.
Said by positions, an offered member is inherited when its key is no key of a declared member and no
earlier offered member has it: that is `firsts`.  The two agree because the keys that the walk
remembers are always the declared ones and those of the members it has passed, kept or not; a member
that is passed over brings no new key.

Shown are then the documented members of the type itself and, after them, the first of each key.
-/

namespace TypePages.Table

/-- Neither a key of the list nor an earlier element hides an element. -/
def IsFirst (keys : List (List String)) (earlier : List Element) (e : Element) : Prop :=
  e.hidingKey ∉ keys ∧ ∀ x ∈ earlier, x.hidingKey ≠ e.hidingKey

instance (keys : List (List String)) (earlier : List Element) (e : Element) :
    Decidable (IsFirst keys earlier e) :=
  inferInstanceAs (Decidable (_ ∧ _))

/-- The elements of a list with none of the given hiding keys and with no earlier element's. -/
def firsts (keys : List (List String)) (es : List Element) : List Element :=
  (es.zipIdx.filter fun (e, i) => IsFirst keys (es.take i) e).map (·.1)

variable {keys known : List (List String)} {es : List Element} {e : Element}

/-! ### The walk keeps the first of each key -/

theorem unhidden_cons_of_mem (h : e.hidingKey ∈ keys) :
    unhidden keys (e :: es) = unhidden keys es := by
  rw [unhidden, if_pos (List.contains_iff_mem.mpr h)]

theorem unhidden_cons_of_notMem (h : e.hidingKey ∉ keys) :
    unhidden keys (e :: es) = e :: unhidden (e.hidingKey :: keys) es := by
  rw [unhidden, if_neg (mt List.contains_iff_mem.mp h)]

/-- The walk knows the given keys and those of the members that it has passed. -/
def Knows (keys : List (List String)) (passed : List Element) (known : List (List String)) : Prop :=
  ∀ key, key ∈ known ↔ key ∈ keys ∨ ∃ x ∈ passed, x.hidingKey = key

theorem Knows.isFirst_iff {passed : List Element} (h : Knows keys passed known) (e : Element) :
    IsFirst keys passed e ↔ e.hidingKey ∉ known := by
  rw [h, not_or, not_exists]
  simp [IsFirst]

/-- Passing a member whose key is known already brings no new one. -/
theorem Knows.pass_of_mem {passed : List Element} (h : Knows keys passed known)
    (hmem : e.hidingKey ∈ known) : Knows keys (passed ++ [e]) known := by
  intro key
  constructor
  · intro hkey
    rcases (h key).mp hkey with hkey | ⟨x, hx, rfl⟩
    · exact .inl hkey
    · exact .inr ⟨x, List.mem_append_left _ hx, rfl⟩
  · rintro (hkey | ⟨x, hx, rfl⟩)
    · exact (h key).mpr (.inl hkey)
    · rcases List.mem_append.mp hx with hx | hx
      · exact (h _).mpr (.inr ⟨x, hx, rfl⟩)
      · rwa [List.mem_singleton.mp hx]

theorem Knows.pass {passed : List Element} (h : Knows keys passed known) (e : Element) :
    Knows keys (passed ++ [e]) (e.hidingKey :: known) := by
  intro key
  rw [List.mem_cons, h]
  simp only [List.mem_append, List.mem_singleton]
  constructor
  · rintro (rfl | hkey | ⟨x, hx, rfl⟩)
    · exact .inr ⟨e, .inr rfl, rfl⟩
    · exact .inl hkey
    · exact .inr ⟨x, .inl hx, rfl⟩
  · rintro (hkey | ⟨x, hx | rfl, rfl⟩)
    · exact .inr (.inl hkey)
    · exact .inr (.inr ⟨x, hx, rfl⟩)
    · exact .inl rfl

/-- The walk from the middle of a list. -/
theorem unhidden_from (passed : List Element) (hknown : Knows keys passed known) :
    unhidden known es = ((es.zipIdx passed.length).filter fun (e, i) =>
      IsFirst keys ((passed ++ es).take i) e).map (·.1) := by
  induction es generalizing passed known with
  | nil => rfl
  | cons e es ih =>
      have htake : (passed ++ e :: es).take passed.length = passed := List.take_left
      have hsplit : passed ++ e :: es = (passed ++ [e]) ++ es := by simp
      have hlength : passed.length + 1 = (passed ++ [e]).length := by simp
      rw [List.zipIdx_cons, List.filter_cons]
      simp only [htake, hknown.isFirst_iff]
      rw [hsplit, hlength]
      by_cases hmem : e.hidingKey ∈ known
      · rw [unhidden_cons_of_mem hmem, if_neg (by simpa using hmem)]
        exact ih (passed ++ [e]) (hknown.pass_of_mem hmem)
      · rw [unhidden_cons_of_notMem hmem, if_pos (by simpa using hmem), List.map_cons]
        exact congrArg _ (ih (passed ++ [e]) (hknown.pass e))

theorem unhidden_eq_firsts (keys : List (List String)) (es : List Element) :
    unhidden keys es = firsts keys es :=
  unhidden_from [] fun key => by simp

/-! ### What the walk leaves -/

theorem unhidden_sublist : (unhidden keys es).Sublist es := by
  induction es generalizing keys with
  | nil => exact .refl _
  | cons e es ih =>
      by_cases hmem : e.hidingKey ∈ keys
      · rw [unhidden_cons_of_mem hmem]
        exact ih.cons e
      · rw [unhidden_cons_of_notMem hmem]
        exact ih.cons_cons e

theorem hidingKey_notMem_of_mem_unhidden (h : e ∈ unhidden keys es) : e.hidingKey ∉ keys := by
  induction es generalizing keys with
  | nil => simp [unhidden] at h
  | cons x es ih =>
      by_cases hmem : x.hidingKey ∈ keys
      · rw [unhidden_cons_of_mem hmem] at h
        exact ih h
      · rw [unhidden_cons_of_notMem hmem] at h
        rcases List.mem_cons.mp h with rfl | h
        · exact hmem
        · exact fun hc => ih h (List.mem_cons_of_mem _ hc)

/-- No two members that the walk leaves share a key. -/
theorem nodup_hidingKey_unhidden : ((unhidden keys es).map (·.hidingKey)).Nodup := by
  induction es generalizing keys with
  | nil => simp [unhidden]
  | cons e es ih =>
      by_cases hmem : e.hidingKey ∈ keys
      · rw [unhidden_cons_of_mem hmem]
        exact ih
      · rw [unhidden_cons_of_notMem hmem, List.map_cons, List.nodup_cons]
        refine ⟨?_, ih⟩
        intro hc
        obtain ⟨x, hx, hkey⟩ := List.mem_map.mp hc
        exact hidingKey_notMem_of_mem_unhidden hx (by rw [hkey]; simp)

/-! ### Where shown members are declared -/

namespace Reads

variable {rules : Rules} {m : Model} {owner : Element} {k : Member.Kind} {t : Table}
  (h : Reads rules m owner t)

include h

theorem mem_visible_iff : e ∈ t.visible k ↔ e ∈ declared rules m k owner ∧ m.Documents e := by
  rw [h.visible_eq, List.mem_filter, decide_eq_true_iff]

/-- An inherited member is declared by a supertype that hands it down, and is documented. -/
theorem declared_of_mem_inherited (he : e ∈ t.inherited k) :
    ∃ a ∈ t.family.tail, e ∈ declared rules m k a ∧ HandsDown a owner e ∧ m.Documents e := by
  rw [h.inherited_eq (isHandedDown_of_mem_inherited he)] at he
  exact mem_offered_iff.mp (unhidden_sublist.subset he)

theorem nodup_family : (t.family.map (·.uid)).Nodup := by
  rw [h.family_eq]
  exact m.nodup_family owner

theorem tail_family_eq : t.family.tail = m.ancestors owner := by
  rw [h.family_eq]
  rfl

/-- Supertypes of one uid are one. -/
theorem eq_of_uid_eq_tail {a a' : Element} (ha : a ∈ t.family.tail) (ha' : a' ∈ t.family.tail)
    (huid : a.uid = a'.uid) : a = a' :=
  List.inj_on_of_nodup_map h.nodup_family (List.mem_of_mem_tail ha) (List.mem_of_mem_tail ha') huid

theorem uid_ne_of_mem_tail {a : Element} (ha : a ∈ t.family.tail) : a.uid ≠ owner.uid := by
  have hnodup := h.nodup_family
  rw [family, h.owner_eq, List.map_cons, List.nodup_cons] at hnodup
  exact fun hc => hnodup.1 (hc ▸ List.mem_map_of_mem ha)

/-- The supertype that declares an inherited member is the one that hands it down. -/
theorem declared_of_parent {a : Element} (he : e ∈ t.inherited k) (ha : a ∈ t.family.tail)
    (hparent : e.parent = some a.uid) :
    e ∈ declared rules m k a ∧ HandsDown a owner e ∧ m.Documents e := by
  obtain ⟨a', ha', hdeclared, hdown⟩ := h.declared_of_mem_inherited he
  have huid := Option.some.inj ((parent_of_mem_declared hdeclared).symm.trans hparent)
  obtain rfl := h.eq_of_uid_eq_tail ha' ha huid
  exact ⟨hdeclared, hdown⟩

/-- No element occurs twice in what supertypes offer, because each is declared in one place. -/
theorem nodup_offered : (offered rules m owner k t.family.tail).Nodup := by
  have htail : t.family.tail.Pairwise fun a a' => a.uid ≠ a'.uid := by
    have hnodup := h.nodup_family
    rw [family, List.map_cons, List.nodup_cons] at hnodup
    exact List.pairwise_map.mp hnodup.2
  rw [offered, List.nodup_flatMap]
  refine ⟨fun a _ => (List.Nodup.of_map _ (nodup_declared rules m k a)).filter _, ?_⟩
  refine htail.imp fun {a a'} hne x hx hx' => hne ?_
  have hpa := parent_of_mem_declared (List.mem_filter.mp hx).1
  have hpa' := parent_of_mem_declared (List.mem_filter.mp hx').1
  exact Option.some.inj (hpa.symm.trans hpa')

theorem mem_elements_of_mem_allVisible (he : e ∈ t.allVisible k) : e ∈ m.elements := by
  rcases List.mem_append.mp he with he | he
  · exact (Model.mem_membersOf_iff.mp (mem_declared_iff.mp (h.mem_visible_iff.mp he).1).1).1
  · obtain ⟨a, -, hdeclared, -⟩ := h.declared_of_mem_inherited he
    exact (Model.mem_membersOf_iff.mp (mem_declared_iff.mp hdeclared).1).1

/-- A type shows nothing twice. -/
theorem nodup_allVisible (k : Member.Kind) : ((t.allVisible k).map (·.uid)).Nodup := by
  have hvisible : (t.visible k).Nodup := by
    rw [h.visible_eq]
    exact (List.Nodup.of_map _ (nodup_declared rules m k owner)).filter _
  have hinherited : (t.inherited k).Nodup := by
    cases hk : k.isHandedDown with
    | false => rw [inherited_of_not t hk]; exact List.nodup_nil
    | true =>
        rw [h.inherited_eq hk]
        exact h.nodup_offered.sublist unhidden_sublist
  have hall : (t.allVisible k).Nodup := by
    refine List.nodup_append.mpr ⟨hvisible, hinherited, ?_⟩
    intro x hx y hy hxy
    obtain ⟨a, ha, hdeclared, -⟩ := h.declared_of_mem_inherited hy
    have hpx := parent_of_mem_declared (h.mem_visible_iff.mp hx).1
    rw [hxy, parent_of_mem_declared hdeclared] at hpx
    exact h.uid_ne_of_mem_tail ha (Option.some.inj hpx)
  exact hall.map_on fun x hx y hy => Catalog.eq_of_uid_eq (h.mem_elements_of_mem_allVisible hx)
    (h.mem_elements_of_mem_allVisible hy)

/-- The members of the type itself among those that it shows. -/
theorem mem_visible_of_parent (he : e ∈ t.allVisible k) (hparent : e.parent = some owner.uid) :
    e ∈ t.visible k := by
  rcases List.mem_append.mp he with he | he
  · exact he
  · obtain ⟨a, ha, hdeclared, -⟩ := h.declared_of_mem_inherited he
    rw [parent_of_mem_declared hdeclared] at hparent
    exact absurd (Option.some.inj hparent) (h.uid_ne_of_mem_tail ha)

/-- What a type shows of a supertype it does not declare itself, so it is inherited. -/
theorem mem_inherited_of_parent {a : Element} (he : e ∈ t.allVisible k) (ha : a ∈ t.family.tail)
    (hparent : e.parent = some a.uid) : e ∈ t.inherited k := by
  refine (List.mem_append.mp he).resolve_left fun hvisible => ?_
  have hown := parent_of_mem_declared (h.mem_visible_iff.mp hvisible).1
  rw [hparent] at hown
  exact h.uid_ne_of_mem_tail ha (Option.some.inj hown)

end Reads

/-! ### The table of a type -/

/-- **A type shows its documented members and then, of what its supertypes offer, the first of each
hiding key that it does not declare itself.**  Where the least level and the naming convention are
texts there is always such a table. -/
theorem allVisible_eq (rules : Rules) (m : Model) (owner : Element) :
    (∀ t, read rules m owner = .ok t → ∀ k, k.isHandedDown = true →
      t.allVisible k = ((declared rules m k owner).filter fun e => m.Documents e)
          ++ firsts ((declared rules m k owner).map (·.hidingKey))
            (offered rules m owner k t.family.tail)
        ∧ ((t.inherited k).map (·.hidingKey)).Nodup
        ∧ ∀ e ∈ t.inherited k, ∀ own ∈ declared rules m k owner, e.hidingKey ≠ own.hidingKey)
    ∧ ∀ least, m.minAccess = .text least → rules.naming.IsText →
      ∃ t, read rules m owner = .ok t := by
  refine ⟨?_, fun least hmin hnaming => read_returns hmin hnaming owner⟩
  intro t ht k hk
  have h := reads_of_read ht
  refine ⟨?_, ?_, ?_⟩
  · rw [allVisible, h.visible_eq, h.inherited_eq hk, unhidden_eq_firsts]
  · rw [h.inherited_eq hk]
    exact nodup_hidingKey_unhidden
  · intro e he own hown hkey
    rw [h.inherited_eq hk] at he
    exact hidingKey_notMem_of_mem_unhidden he (List.mem_map.mpr ⟨own, hown, hkey.symm⟩)

/-! ### Circles, shapes and what is painted

The method `draw` of a circle is private and hides the one of its shape without being shown; the
method `fill` of the shape hides the one that the interface declares.
-/

/-- A public type of the given kind. -/
def sampleType (kind : Element.Kind) (name : String) (superclass : Option String)
    (interfaces : List String) : Element where
  uid := name
  kind
  name
  fullName := name
  access := "public"
  superclass
  interfaces

/-- A method without parameters. -/
def sampleMethod (owner name access : String) (modifiers : List String) : Element where
  uid := owner ++ "." ++ name
  kind := .method
  name
  fullName := owner ++ "." ++ name
  parent := some owner
  access
  modifiers

/-- A class below a class that implements an interface. -/
def circle : Element := sampleType .classType "Circle" (some "Shape") []

/-- The circle with its supertypes and their methods. -/
def figures : Model where
  elements := [circle, sampleMethod "Circle" "draw" "private" [],
    sampleType .classType "Shape" none ["Painted"], sampleMethod "Shape" "draw" "public" [],
    sampleMethod "Shape" "fill" "protected" [],
    sampleType .interfaceType "Painted" none [], sampleMethod "Painted" "fill" "public" [],
    sampleMethod "Painted" "of" "public" ["static"], sampleMethod "Painted" "show" "public" []]
  distinct_uids := by decide +kernel
  minAccess := .text "protected"
  external := []

theorem allVisible_circle :
    ∃ t, read ⟨.standard, true⟩ figures circle = .ok t ∧
      (t.allVisible .methods).map (·.uid) = ["Shape.fill", "Painted.show"] := by
  obtain ⟨t, ht⟩ := (allVisible_eq ⟨.standard, true⟩ figures circle).2 "protected" rfl
    (Naming.isText_ofTexts _ _ _)
  obtain ⟨hall, -⟩ := (allVisible_eq ⟨.standard, true⟩ figures circle).1 t ht .methods rfl
  refine ⟨t, ht, ?_⟩
  rw [hall, (reads_of_read ht).family_eq]
  cbv

end TypePages.Table
