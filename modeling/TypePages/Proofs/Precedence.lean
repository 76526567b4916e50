import TypePages.Proofs.Nearest

/-!
Which declarations a shown member stands behind.

A type goes through its supertypes nearest first, and what it finds hides what comes later.  Two
things are found: everything that the type itself declares, whatever its access, and of a supertype
what this one hands down and what is documented.  So a member that is shown has none of these before
it with its hiding key.  The walk gives this by an induction over the offers that it has passed, once
the offers are cut where the supertype of the member begins.

What a supertype declares and does not hand down, or what is not documented, is passed over.  A
farther member of its key is then shown behind it, although a declaration of the type itself hides
whatever its access.  Nothing is shown so just in case the nearest supertype to offer a key is
always the nearest to declare it (`nearer_hides_iff`).
-/

namespace TypePages.Table

/-! ### What the walk has passed -/

section

variable {keys : List (List String)} {xs ys : List Element} {e x : Element}

/-- What the walk keeps has another key than everything that stands before it. -/
theorem hidingKey_ne_of_mem_unhidden_append (h : e ∈ unhidden keys (xs ++ ys)) (hnot : e ∉ xs)
    (hx : x ∈ xs) : x.hidingKey ≠ e.hidingKey := by
  induction xs generalizing keys with
  | nil => exact absurd hx List.not_mem_nil
  | cons y xs ih =>
      have hkeys := hidingKey_notMem_of_mem_unhidden h
      have hne : e ≠ y := fun heq => hnot (heq ▸ List.mem_cons_self)
      have hrest : e ∉ xs := fun hmem => hnot (List.mem_cons_of_mem _ hmem)
      rw [List.cons_append] at h
      by_cases hmem : y.hidingKey ∈ keys
      · rw [unhidden_cons_of_mem hmem] at h
        rcases List.mem_cons.mp hx with rfl | hx
        · exact fun hkey => hkeys (hkey ▸ hmem)
        · exact ih h hrest hx
      · rw [unhidden_cons_of_notMem hmem] at h
        have h := (List.mem_cons.mp h).resolve_left hne
        rcases List.mem_cons.mp hx with rfl | hx
        · -- The walk remembers the key of what it has just kept.
          exact fun hkey => hidingKey_notMem_of_mem_unhidden h (hkey ▸ List.mem_cons_self)
        · exact ih h hrest hx

end

/-! ### The types before a supertype -/

variable {rules : Rules} {m : Model} {owner a e near x : Element} {k : Member.Kind} {t : Table}

/-- The type and those of its supertypes that come before one of them. -/
def nearerThan (t : Table) (a : Element) : List Element := t.family.takeWhile (·.uid ≠ a.uid)

theorem offered_append (rules : Rules) (m : Model) (owner : Element) (k : Member.Kind)
    (as bs : List Element) :
    offered rules m owner k (as ++ bs) = offered rules m owner k as ++ offered rules m owner k bs :=
  List.flatMap_append

/-- A declaration hides what is farther from a type: the type makes it itself, or it is handed down
to the type and documented. -/
def Hides (m : Model) (owner x near : Element) : Prop :=
  x = owner ∨ HandsDown x owner near ∧ m.Documents near

namespace Reads

variable (h : Reads rules m owner t)

include h

theorem mem_inherited_of_declared (he : e ∈ t.allVisible k) (ha : a ∈ t.family.tail)
    (hdeclared : e ∈ declared rules m k a) : e ∈ t.inherited k :=
  h.mem_inherited_of_parent he ha (parent_of_mem_declared hdeclared)

/-- The type itself is nearer than all its supertypes. -/
theorem nearerThan_eq (ha : a ∈ t.family.tail) :
    t.nearerThan a = owner :: t.family.tail.takeWhile (·.uid ≠ a.uid) := by
  have huid : owner.uid ≠ a.uid := (h.uid_ne_of_mem_tail ha).symm
  have hfamily : t.family = owner :: t.family.tail := by
    rw [h.family_eq]
    rfl
  rw [nearerThan, hfamily, List.takeWhile_cons_of_pos (by simpa using huid), List.tail_cons]

/-- The supertypes are cut where one of them begins; what comes before it is nearer. -/
theorem exists_split (ha : a ∈ t.family.tail) : ∃ before after,
    t.family.tail = before ++ a :: after ∧ t.nearerThan a = owner :: before ∧
      ∀ b ∈ before, b.uid ≠ a.uid := by
  obtain ⟨before, after, hsplit⟩ := List.append_of_mem ha
  have hnodup := h.nodup_family.sublist ((List.tail_sublist t.family).map (·.uid))
  rw [hsplit, List.map_append, List.map_cons] at hnodup
  have hbefore : ∀ b ∈ before, b.uid ≠ a.uid := fun b hb =>
    (List.nodup_append.mp hnodup).2.2 _ (List.mem_map_of_mem hb) _ List.mem_cons_self
  refine ⟨before, after, hsplit, ?_, hbefore⟩
  rw [h.nearerThan_eq ha, hsplit, List.takeWhile_append_of_pos (by simpa using hbefore),
    List.takeWhile_cons_of_neg (by simp), List.append_nil]

theorem hidingKey_ne_of_mem_inherited (hk : k.isHandedDown = true) (he : e ∈ t.inherited k)
    (ha : a ∈ t.family.tail) (hdeclared : e ∈ declared rules m k a) (hx : x ∈ t.nearerThan a)
    (hnear : near ∈ declared rules m k x) (hides : Hides m owner x near) :
    near.hidingKey ≠ e.hidingKey := by
  rw [h.inherited_eq hk] at he
  obtain ⟨before, after, hsplit, hnearer, hbefore⟩ := h.exists_split ha
  rw [hnearer] at hx
  have howner : near ∈ declared rules m k owner → near.hidingKey ≠ e.hidingKey := fun hown hkey =>
    hidingKey_notMem_of_mem_unhidden he (List.mem_map.mpr ⟨near, hown, hkey⟩)
  rcases List.mem_cons.mp hx with rfl | hx
  · exact howner hnear
  · rcases hides with rfl | hdown
    · exact howner hnear
    · rw [hsplit, offered_append] at he
      -- The member itself is offered by its own supertype and by none before it.
      have hnot : e ∉ offered rules m owner k before := by
        intro hmem
        obtain ⟨b, hb, hdeclared', -⟩ := mem_offered_iff.mp hmem
        have hparent := (parent_of_mem_declared hdeclared').symm.trans
          (parent_of_mem_declared hdeclared)
        exact hbefore b hb (Option.some.inj hparent)
      exact hidingKey_ne_of_mem_unhidden_append he hnot
        (mem_offered_iff.mpr ⟨x, hx, hnear, hdown⟩)

end Reads

/-- **Nothing that hides is nearer than a shown member of its key.**  The type itself declares no
member with the key, and no nearer supertype hands a documented one down. -/
theorem no_nearer_hides (ht : read rules m owner = .ok t) (he : e ∈ t.allVisible k)
    (ha : a ∈ t.family.tail) (hdeclared : e ∈ declared rules m k a) :
    ∀ x ∈ t.nearerThan a, ∀ near ∈ declared rules m k x, Hides m owner x near →
      near.hidingKey ≠ e.hidingKey := by
  intro x hx near hnear hides
  have h := reads_of_read ht
  have hinherited := h.mem_inherited_of_declared he ha hdeclared
  cases hk : k.isHandedDown with
  | false =>
      rw [inherited_of_not t hk] at hinherited
      exact absurd hinherited List.not_mem_nil
  | true => exact h.hidingKey_ne_of_mem_inherited hk hinherited ha hdeclared hx hnear hides

/-! ### Keys that are declared nearer than they are offered -/

/-- The first of the supertypes that declares a key, whatever the access. -/
def nearestDeclaring? (rules : Rules) (m : Model) (k : Member.Kind) (key : List String)
    (supertypes : List Element) : Option Element :=
  supertypes.find? fun x => ∃ near ∈ declared rules m k x, near.hidingKey = key

/-- Whatever is nearer than a shown member of a supertype has another key, whatever its access. -/
def NearerHides (rules : Rules) (m : Model) (t : Table) (k : Member.Kind) : Prop :=
  ∀ e ∈ t.allVisible k, ∀ a ∈ t.family.tail, e ∈ declared rules m k a →
    ∀ x ∈ t.nearerThan a, ∀ near ∈ declared rules m k x, near.hidingKey ≠ e.hidingKey

/-- What stands before the first element with a property does not have it. -/
theorem not_of_mem_takeWhile_of_find? {p : Element → Bool} {es : List Element}
    (hfound : es.find? p = some a) (hx : x ∈ es.takeWhile (·.uid ≠ a.uid)) : p x = false := by
  obtain ⟨-, before, after, rfl, hnone⟩ := List.find?_eq_some_iff_append.mp hfound
  have hbefore : x ∈ before := by
    rw [List.takeWhile_append] at hx
    split at hx
    · rwa [List.takeWhile_cons_of_neg (by simp), List.append_nil] at hx
    · exact (List.takeWhile_prefix _).subset hx
  simpa using hnone x hbefore

namespace Reads

variable (h : Reads rules m owner t)

include h

/-- A shown member of a supertype is inherited, from the nearest one that offers its key. -/
theorem nearest_of_mem_allVisible (hk : k.isHandedDown = true) (he : e ∈ t.allVisible k)
    (ha : a ∈ t.family.tail) (hdeclared : e ∈ declared rules m k a) :
    Inherits rules m owner k a e ∧
      nearest? rules m owner k e.hidingKey (m.ancestors owner) = some a := by
  have hinherited := h.mem_inherited_of_declared he ha hdeclared
  obtain ⟨-, hdown, hdocuments⟩ :=
    h.declared_of_parent hinherited ha (parent_of_mem_declared hdeclared)
  have hundeclared : ∀ own ∈ declared rules m k owner, own.hidingKey ≠ e.hidingKey :=
    fun own hown => h.hidingKey_ne_of_mem_inherited hk hinherited ha hdeclared
      (h.nearerThan_eq ha ▸ List.mem_cons_self) hown (.inl rfl)
  have hinherits : Inherits rules m owner k a e :=
    ⟨h.tail_family_eq ▸ ha, hdeclared, hdown, hdocuments, hundeclared⟩
  refine ⟨hinherits, ?_⟩
  obtain ⟨near, hnear⟩ := exists_nearest ha ⟨e, hdeclared, ⟨hdown, hdocuments⟩, rfl⟩
  -- Of a key one member is inherited, so the nearest supertype is the one that declares it.
  obtain ⟨x, hx, hxdeclared, hkey⟩ := h.exists_inherited hk hundeclared hnear
  obtain rfl := h.eq_of_mem_inherited hk hx hinherited hkey
  have hparent := (parent_of_mem_declared hxdeclared).symm.trans (parent_of_mem_declared hdeclared)
  rw [h.eq_of_uid_eq_tail (mem_of_nearest hnear) ha (Option.some.inj hparent)] at hnear
  rwa [← h.tail_family_eq]

/-- A key that is first declared where it is first offered is declared nowhere nearer. -/
theorem hidingKey_ne_of_nearestDeclaring (ha : a ∈ t.family.tail)
    (hundeclared : ∀ own ∈ declared rules m k owner, own.hidingKey ≠ e.hidingKey)
    (hfirst : nearestDeclaring? rules m k e.hidingKey (m.ancestors owner) = some a)
    (hx : x ∈ t.nearerThan a) (hnear : near ∈ declared rules m k x) :
    near.hidingKey ≠ e.hidingKey := by
  intro hkey
  rw [h.nearerThan_eq ha, h.tail_family_eq] at hx
  rcases List.mem_cons.mp hx with rfl | hx
  · exact hundeclared near hnear hkey
  · have hnot := not_of_mem_takeWhile_of_find? hfirst hx
    rw [decide_eq_false_iff_not] at hnot
    exact hnot ⟨near, hnear, hkey⟩

/-- A key that is declared nowhere nearer is first declared where it is offered. -/
theorem nearestDeclaring_of_hidingKey_ne (ha : a ∈ t.family.tail)
    (hdeclared : e ∈ declared rules m k a)
    (hnone : ∀ x ∈ t.nearerThan a, ∀ near ∈ declared rules m k x,
      near.hidingKey ≠ e.hidingKey) :
    nearestDeclaring? rules m k e.hidingKey (m.ancestors owner) = some a := by
  obtain ⟨before, after, hsplit, hnearer, -⟩ := h.exists_split ha
  rw [← h.tail_family_eq, hsplit]
  refine List.find?_eq_some_iff_append.mpr
    ⟨decide_eq_true ⟨e, hdeclared, rfl⟩, before, after, rfl, fun x hx => ?_⟩
  rw [Bool.not_eq_true', decide_eq_false_iff_not]
  rintro ⟨near, hnear, hkey⟩
  exact hnone x (hnearer ▸ List.mem_cons_of_mem _ hx) near hnear hkey

end Reads

/-- **When nearer declarations hide farther ones.**  What the type declares itself, and what a nearer
supertype hands down and is documented, is never of the key of a member that is shown.  Nothing
nearer is of its key, whatever its access, just in case each key that the type inherits is first
declared by the supertype that first offers it. -/
theorem nearer_hides_iff (ht : read rules m owner = .ok t) (hk : k.isHandedDown = true) :
    (∀ e ∈ t.allVisible k, ∀ a ∈ t.family.tail, e ∈ declared rules m k a →
        ∀ x ∈ t.nearerThan a, ∀ near ∈ declared rules m k x, Hides m owner x near →
          near.hidingKey ≠ e.hidingKey) ∧
      (NearerHides rules m t k ↔ ∀ a e, Inherits rules m owner k a e →
        nearest? rules m owner k e.hidingKey (m.ancestors owner) = some a →
          nearestDeclaring? rules m k e.hidingKey (m.ancestors owner) = some a) := by
  have h := reads_of_read ht
  refine ⟨fun e he a ha hdeclared => no_nearer_hides ht he ha hdeclared, ?_, ?_⟩
  · intro hhides a e hinherits hnearest
    have ha : a ∈ t.family.tail := h.tail_family_eq ▸ hinherits.supertype
    rw [← h.tail_family_eq] at hnearest
    obtain ⟨x, hx, hxdeclared, hkey⟩ := h.exists_inherited hk hinherits.undeclared hnearest
    rw [← hkey]
    exact h.nearestDeclaring_of_hidingKey_ne ha hxdeclared
      (hhides x (List.mem_append_right _ hx) a ha hxdeclared)
  · intro hfirst e he a ha hdeclared x hx near hnear
    obtain ⟨hinherits, hnearest⟩ := h.nearest_of_mem_allVisible hk he ha hdeclared
    exact h.hidingKey_ne_of_nearestDeclaring ha hinherits.undeclared (hfirst a e hinherits hnearest)
      hx hnear

/-! ### Circles again

Every key that a circle inherits is first declared where it is first offered, so what is painted
shows its method `show` behind no method of the circle or of the shape.
-/

/-- The interface of what is painted. -/
def painted : Element := sampleType .interfaceType "Painted" none []

/-- The class of shapes. -/
def shape : Element := sampleType .classType "Shape" none ["Painted"]

theorem nearer_hides_circle :
    ∃ t, read ⟨.standard, true⟩ figures circle = .ok t ∧
      (t.allVisible .methods).map (·.uid) = ["Shape.fill", "Painted.show"] ∧
      (t.nearerThan painted).map (·.uid) = ["Circle", "Shape"] ∧
      NearerHides ⟨.standard, true⟩ figures t .methods := by
  have hread : ∃ t, read ⟨.standard, true⟩ figures circle = .ok t :=
    read_returns rfl (Naming.isText_ofTexts _ _ _) circle
  obtain ⟨t, ht⟩ := hread
  have h := reads_of_read ht
  have hancestors : figures.ancestors circle = [shape, painted] := by cbv
  have hfamily : t.family = [circle, shape, painted] := by
    rw [h.family_eq, Model.family, hancestors]
  have hvisible : t.visible .methods = [] := by
    rw [h.visible_eq]
    decide +kernel
  refine ⟨t, ht, ?_, ?_, (nearer_hides_iff ht rfl).2.mpr ?_⟩
  · rw [allVisible, hvisible, h.inherited_eq rfl, hfamily]
    decide +kernel
  · rw [nearerThan, hfamily]
    decide +kernel
  · intro a e hinherits
    have ha := hinherits.supertype
    rw [hancestors] at ha ⊢
    have hfirst : ∀ a ∈ [shape, painted], ∀ e ∈ declared ⟨.standard, true⟩ figures .methods a,
        nearest? ⟨.standard, true⟩ figures circle .methods e.hidingKey [shape, painted] = some a →
          nearestDeclaring? ⟨.standard, true⟩ figures .methods e.hidingKey [shape, painted] =
            some a := by
      decide +kernel
    exact hfirst a ha e hinherits.declared

/-! ### Layers

Between a leaf and its top stands a layer in another package that declares the fields of the top
again, with less access.  The leaf does not inherit the first two, and the third is below the least
level where that is public.  None of these declarations hides what comes after it.
-/

/-- A field. -/
def sampleField (owner name access : String) : Element where
  uid := owner ++ "." ++ name
  kind := .field
  name
  fullName := owner ++ "." ++ name
  parent := some owner
  access

/-- A class below a class of another package. -/
def leaf : Element := sampleType .classType "Leaf" (some "Layer") []

/-- A class of another package between a leaf and its top. -/
def layer : Element := { sampleType .classType "Layer" (some "Top") [] with package := "inner" }

/-- The class above the layer. -/
def top : Element := sampleType .classType "Top" none []

/-- Leaves and their supertypes, documented from a least level on. -/
def layers (least : String) : Model where
  elements := [leaf,
    layer, sampleField "Layer" "own" "private", sampleField "Layer" "near" "package",
    sampleField "Layer" "low" "protected",
    top, sampleField "Top" "own" "public", sampleField "Top" "near" "public",
    sampleField "Top" "low" "public"]
  distinct_uids := by decide +kernel
  minAccess := .text least
  external := []

/-- A type shows a member of a supertype although a nearer one declares a member of its key. -/
def ShownBehind (m : Model) (owner : Element) (k : Member.Kind) (near far : Element) : Prop :=
  ∃ t, read ⟨.standard, true⟩ m owner = .ok t ∧ far ∈ t.allVisible k ∧
    ∃ a ∈ t.family.tail, far ∈ declared ⟨.standard, true⟩ m k a ∧ ∃ x ∈ t.nearerThan a,
      near ∈ declared ⟨.standard, true⟩ m k x ∧ near.hidingKey = far.hidingKey

/-- What the walk through the supertypes of leaves keeps is shown. -/
theorem shownBehind_of_walk {least : String} {near far : Element}
    (hkept : far ∈ unhidden
      ((declared ⟨.standard, true⟩ (layers least) .fields leaf).map (·.hidingKey))
      (offered ⟨.standard, true⟩ (layers least) leaf .fields [layer, top]))
    (hbehind : ∃ a ∈ [layer, top], far ∈ declared ⟨.standard, true⟩ (layers least) .fields a ∧
      ∃ x ∈ [leaf, layer, top].takeWhile (·.uid ≠ a.uid),
        near ∈ declared ⟨.standard, true⟩ (layers least) .fields x ∧
          near.hidingKey = far.hidingKey) :
    ShownBehind (layers least) leaf .fields near far := by
  have hread : ∃ t, read ⟨.standard, true⟩ (layers least) leaf = .ok t :=
    read_returns rfl (Naming.isText_ofTexts _ _ _) leaf
  obtain ⟨t, ht⟩ := hread
  have h := reads_of_read ht
  have hfamily : t.family = [leaf, layer, top] := by
    rw [h.family_eq]
    cbv
  refine ⟨t, ht, List.mem_append_right _ ?_, ?_⟩
  · rw [h.inherited_eq rfl, hfamily]
    exact hkept
  · unfold nearerThan
    rw [hfamily]
    exact hbehind

theorem shownBehind_layers :
    ShownBehind (layers "package") leaf .fields (sampleField "Layer" "own" "private")
        (sampleField "Top" "own" "public") ∧
      ShownBehind (layers "package") leaf .fields (sampleField "Layer" "near" "package")
        (sampleField "Top" "near" "public") ∧
      ShownBehind (layers "public") leaf .fields (sampleField "Layer" "low" "protected")
        (sampleField "Top" "low" "public") := by
  refine ⟨?_, ?_, ?_⟩
  · exact shownBehind_of_walk (by decide +kernel) (by decide +kernel)
  · exact shownBehind_of_walk (by decide +kernel) (by decide +kernel)
  · exact shownBehind_of_walk (by decide +kernel) (by decide +kernel)

end TypePages.Table
