import TypePages.Config.Basic
import TypePages.Proofs.Catalog
import TypePages.Proofs.Sentences

/-!
Which element a uid is bound to when documents have been read.

Reading documents writes the elements of their items one after another, and a written element takes
the place of the one with its uid.  So the uids stand where they came first
(`uids_foldl_insert`), and each is bound to the element that came last (`find?_foldl_insert`).
Access is granted when everything has been written.  A grant changes neither a uid nor a kind, so it
is the same to look for the enclosing type before and after (`encloses_granted_iff`).

The element of a uid that only one document has is decided in this document, whatever was read before
or after it (`find?_written_of_mem`).  That is why the order of documents without a common uid does
not matter.
-/

namespace TypePages.Catalog

variable {c c' : Catalog} {uid : String} {e : Element} {es before after : List Element}
  {entries : List (Scalar × Value)} {carried : List (List (Scalar × Value))}
  {doc doc' : Value} {docs docs' : List Value}

/-! ### Writing elements -/

theorem find?_put (e : Element) (es : List Element) (uid : String) :
    (put e es).find? (·.uid == uid) = if e.uid = uid then some e else es.find? (·.uid == uid) := by
  induction es with
  | nil => by_cases h : e.uid = uid <;> simp [put, h]
  | cons x es ih =>
      rw [put]
      by_cases hx : x.uid = e.uid
      · by_cases h : e.uid = uid <;> simp [hx, h]
      · by_cases h : e.uid = uid
        · have hne : ¬x.uid = uid := fun heq => hx (heq.trans h.symm)
          simp [h, hne, ih]
        · simp [hx, h, ih, List.find?_cons]

theorem find?_insert (c : Catalog) (e : Element) (uid : String) :
    (c.insert e).find? uid = if e.uid = uid then some e else c.find? uid :=
  find?_put e c.elements uid

/-- A uid is bound to the last element with it that was written. -/
theorem find?_foldl_insert (es : List Element) (c : Catalog) (uid : String) :
    (es.foldl insert c).find? uid = (es.reverse.find? (·.uid == uid)).or (c.find? uid) := by
  induction es generalizing c with
  | nil => rfl
  | cons e es ih =>
      rw [List.foldl_cons, ih, find?_insert, List.reverse_cons, List.find?_append, Option.or_assoc]
      by_cases h : e.uid = uid <;> simp [h]

theorem find?_foldl_of_notMem (h : uid ∉ es.map (·.uid)) (c : Catalog) :
    (es.foldl insert c).find? uid = c.find? uid := by
  have hnone : es.reverse.find? (·.uid == uid) = none := by
    rw [List.find?_eq_none]
    intro e he huid
    exact h (List.mem_map.mpr ⟨e, List.mem_reverse.mp he, beq_iff_eq.mp huid⟩)
  rw [find?_foldl_insert, hnone, Option.none_or]

/-- What a uid was bound to before does not matter once it is written. -/
theorem find?_foldl_of_mem (h : uid ∈ es.map (·.uid)) (c c' : Catalog) :
    (es.foldl insert c).find? uid = (es.foldl insert c').find? uid := by
  obtain ⟨e, he, huid⟩ := List.mem_map.mp h
  have hsome : (es.reverse.find? (·.uid == uid)).isSome := by
    rw [List.find?_isSome]
    exact ⟨e, List.mem_reverse.mpr he, beq_iff_eq.mpr huid⟩
  obtain ⟨x, hx⟩ := Option.isSome_iff_exists.mp hsome
  rw [find?_foldl_insert, find?_foldl_insert, hx, Option.some_or, Option.some_or]

theorem find?_foldl_last (h : e.uid ∉ after.map (·.uid)) (before : List Element) (c : Catalog) :
    ((before ++ e :: after).foldl insert c).find? e.uid = some e := by
  rw [List.foldl_append, List.foldl_cons, find?_foldl_of_notMem h, find?_insert, if_pos rfl]

/-- The uids stand where they came first. -/
theorem uids_foldl_insert (es : List Element) :
    (es.foldl insert empty).elements.map (·.uid) = (es.map (·.uid)).eraseDups := by
  induction es using List.reverseRecOn with
  | nil => rfl
  | append_singleton es e ih =>
      rw [List.foldl_append, List.foldl_cons, List.foldl_nil, insert, map_uid_put, ih,
        List.map_append, List.eraseDups_append, List.map_singleton, List.removeAll]
      by_cases h : e.uid ∈ es.map (·.uid)
      · have helem : (es.map (·.uid)).elem e.uid = true := List.elem_iff.mpr h
        rw [if_pos (List.mem_eraseDups.mpr h), List.filter_cons_of_neg (by rw [helem]; decide)]
        exact (List.append_nil _).symm
      · have helem : (es.map (·.uid)).elem e.uid = false :=
          Bool.eq_false_iff.mpr (mt List.elem_iff.mp h)
        rw [if_neg (mt List.mem_eraseDups.mp h), List.filter_cons_of_pos (by rw [helem]; decide)]
        rfl

/-! ### Granting access -/

theorem grantAccess_kind (c : Catalog) (e : Element) : (c.grantAccess e).kind = e.kind := by
  unfold grantAccess
  repeat' split
  all_goals rfl

theorem find?_granted (c : Catalog) (uid : String) :
    c.granted.find? uid = (c.find? uid).map c.grantAccess := by
  have hsame : ((fun x : Element => x.uid == uid) ∘ c.grantAccess) = fun x => x.uid == uid := by
    funext x
    simp
  rw [find?, granted, List.find?_map, hsame, find?]

/-- The catalog has the type that encloses the element, and it is declared like an interface. -/
def Encloses (c : Catalog) (parent : Option String) : Prop :=
  ∃ uid outer, parent = some uid ∧ c.find? uid = some outer ∧
    (outer.kind = .interfaceType ∨ outer.kind = .annotationType)

/-- Whoever encloses an element does so after the grants as before. -/
theorem encloses_granted_iff (c : Catalog) (parent : Option String) :
    c.granted.Encloses parent ↔ c.Encloses parent := by
  constructor
  · intro ⟨uid, outer, hparent, hfind, hkind⟩
    rw [find?_granted] at hfind
    obtain ⟨x, hx, rfl⟩ := Option.map_eq_some_iff.mp hfind
    rw [grantAccess_kind] at hkind
    exact ⟨uid, x, hparent, hx, hkind⟩
  · intro ⟨uid, outer, hparent, hfind, hkind⟩
    refine ⟨uid, c.grantAccess outer, hparent, ?_, ?_⟩
    · rw [find?_granted, hfind, Option.map_some]
    · rwa [grantAccess_kind]

theorem isInterfaceLike_iff {k : Element.Kind} :
    k.isInterfaceLike = true ↔ k = .interfaceType ∨ k = .annotationType := by
  cases k <;> simp [Element.Kind.isInterfaceLike]

/-- A grant is made where nothing is stated and an interface encloses the element. -/
theorem grantAccess_of_encloses (h : c.Encloses e.parent) (hstates : e.statesAccess = false) :
    c.grantAccess e = { e with access := "public" } := by
  obtain ⟨uid, outer, hparent, hfind, hkind⟩ := h
  rw [grantAccess, hparent, Option.bind_some, hfind]
  simp only [isInterfaceLike_iff.mpr hkind, hstates]
  rfl

theorem grantAccess_of_not (h : ¬(e.statesAccess = false ∧ c.Encloses e.parent)) :
    c.grantAccess e = e := by
  unfold grantAccess
  split
  next outer houter =>
    rw [if_neg]
    intro hgrant
    obtain ⟨hkind, hstates⟩ := Bool.and_eq_true_iff.mp hgrant
    obtain ⟨uid, hparent, hfind⟩ := Option.bind_eq_some_iff.mp houter
    exact h ⟨by simpa using hstates, uid, outer, hparent, hfind, isInterfaceLike_iff.mp hkind⟩
  · rfl

/-! ### Items -/

/-- The text of an item's uid. -/
def uidText (entries : List (Scalar × Value)) : String := (Value.fieldOf entries "uid").display

/-- The uid of the type that encloses an item, if it names one. -/
def parentText? (entries : List (Scalar × Value)) : Option String :=
  let parent := Value.fieldOf entries "parent"
  if parent.isGiven then some parent.display else none

/-- The access level that an item states, package access where it states none. -/
def accessText (entries : List (Scalar × Value)) : String :=
  (Element.nonempty? (Text.lower (Value.fieldOf entries "access").prose)).getD "package"

/-- The items of a document that are mappings with a uid. -/
def carriers : Value → List (List (Scalar × Value))
  | .mapping fields =>
    match Value.fieldOf fields "items" with
    | .list items => items.filterMap fun
      | .mapping entries => if (Value.fieldOf entries "uid").isGiven then some entries else none
      | _ => none
    | _ => []
  | _ => []

theorem filter_eq_map_carried (items : List Value) :
    (items.filter fun
      | .mapping entries => (Value.fieldOf entries "uid").isGiven
      | _ => false) =
    (items.filterMap fun
      | .mapping entries => if (Value.fieldOf entries "uid").isGiven then some entries else none
      | _ => none).map .mapping := by
  induction items with
  | nil => rfl
  | cons v items ih =>
      cases v with
      | scalar s => simpa using ih
      | list items => simpa using ih
      | mapping entries =>
          by_cases h : (Value.fieldOf entries "uid").isGiven = true
          · simpa [h] using ih
          · simpa [h] using ih

/-- What is gone through is the items of a list, or else scalars. -/
theorem of_givenItems {v : Value} {given : List Value} (h : v.givenItems = .ok given) :
    v = .list given ∨ (∀ items, v ≠ .list items) ∧ ∀ w ∈ given, ∃ s, w = .scalar s := by
  rw [Value.givenItems] at h
  by_cases hgiven : v.isGiven = true
  · rw [if_pos hgiven] at h
    cases v with
    | list items =>
        cases h
        exact .inl rfl
    | mapping entries =>
        cases h
        refine .inr ⟨fun items hitems => (by cases hitems), fun w hw => ?_⟩
        obtain ⟨e, -, rfl⟩ := List.mem_map.mp hw
        exact ⟨e.1, rfl⟩
    | scalar s =>
        refine .inr ⟨fun items hitems => (by cases hitems), fun w hw => ?_⟩
        cases s with
        | text t =>
            cases h
            obtain ⟨c, -, rfl⟩ := List.mem_map.mp hw
            exact ⟨_, rfl⟩
        | null => cases h
        | bool b => cases h
        | int n => cases h
        | real x => cases h
  · rw [if_neg hgiven] at h
    cases h
    by_cases hlist : ∃ items, v = .list items
    · obtain ⟨items, rfl⟩ := hlist
      cases items with
      | nil => exact .inl rfl
      | cons w items => exact absurd rfl hgiven
    · exact .inr ⟨fun items hitems => hlist ⟨items, hitems⟩, fun w hw => absurd hw List.not_mem_nil⟩

/-- Whatever a document is gone through by, it is its mappings with a uid that are read. -/
theorem itemsOf_eq {items : List Value} (h : itemsOf doc = .ok items) :
    items = (carriers doc).map .mapping := by
  obtain ⟨field, hfield, h⟩ := Refusal.bind_eq_ok.mp h
  obtain ⟨given, hgiven, h⟩ := Refusal.bind_eq_ok.mp h
  rw [← Refusal.pure_eq_ok.mp h]
  cases doc with
  | scalar s => cases hfield
  | list xs => cases hfield
  | mapping fields =>
      cases hfield
      rcases of_givenItems hgiven with hlist | ⟨hother, hscalars⟩
      · have hitems : Value.fieldOf fields "items" = .list given := hlist
        rw [carriers, hitems]
        exact filter_eq_map_carried given
      · have hnone : carriers (.mapping fields) = [] := by
          rw [carriers]
          split
          next items hitems => exact absurd hitems (hother items)
          · rfl
        rw [hnone, List.map_nil, List.filter_eq_nil_iff]
        intro w hw
        obtain ⟨s, rfl⟩ := hscalars w hw
        simp

/-! ### Documents -/

/-- The document can be gone through, and every item of it that carries a uid can be read. -/
structure Loads (doc : Value) : Prop where
  items : ∃ items, itemsOf doc = .ok items
  elements : ∀ entries ∈ carriers doc, ∃ e, Element.ofFields entries = .ok e

theorem loads_of_carriers_eq (hitems : ∃ items, itemsOf doc = .ok items)
    (hone : carriers doc = [entries]) (he : Element.ofFields entries = .ok e) : Loads doc := by
  refine ⟨hitems, fun x hx => ?_⟩
  rw [hone] at hx
  rw [List.mem_singleton.mp hx]
  exact ⟨e, he⟩

/-- The element that an item describes. -/
def built? (entries : List (Scalar × Value)) : Option Element :=
  (Element.ofFields entries).toOption

/-- The elements that the items of a document describe. -/
def elementsOf (doc : Value) : List Element := (carriers doc).filterMap built?

theorem uid_eq_of_built? (h : built? entries = some e) : e.uid = uidText entries := by
  have hread := Element.readFrom_of_ofFields (Refusal.toOption_eq_some_iff.mp h)
  obtain ⟨_, -, huid⟩ := Refusal.map_eq_ok.mp hread.uid
  exact huid.symm

theorem parent_eq_of_readFrom (h : Element.ReadFrom entries e) : e.parent = parentText? entries := by
  have hparent := h.parent
  rw [Value.readGiven?] at hparent
  rw [parentText?]
  split at hparent
  next hgiven =>
    obtain ⟨text, htext, hsome⟩ := Refusal.map_eq_ok.mp hparent
    obtain ⟨_, -, rfl⟩ := Refusal.map_eq_ok.mp htext
    rw [if_pos hgiven, hsome]
  next hgiven =>
    rw [if_neg hgiven]
    exact (Except.ok.inj hparent).symm

theorem access_eq_of_readFrom (h : Element.ReadFrom entries e) : e.access = accessText entries := by
  obtain ⟨text, htext, haccess⟩ := h.access
  obtain ⟨_, -, rfl⟩ := Refusal.map_eq_ok.mp htext
  exact haccess

theorem statesAccess_eq_false_iff (h : Element.ReadFrom entries e) :
    e.statesAccess = false ↔ entryAt? (.text "access") entries = none := by
  rw [h.statesAccess, Option.isSome_eq_false_iff, Option.isNone_iff_eq_none]

theorem uids_filterMap_built? (h : ∀ entries ∈ carried, ∃ e, Element.ofFields entries = .ok e) :
    (carried.filterMap built?).map (·.uid) = carried.map uidText := by
  induction carried with
  | nil => rfl
  | cons entries carried ih =>
      obtain ⟨e, he⟩ := h entries List.mem_cons_self
      have hbuilt : built? entries = some e := Refusal.toOption_eq_some_iff.mpr he
      rw [List.filterMap_cons_some hbuilt, List.map_cons, List.map_cons, uid_eq_of_built? hbuilt,
        ih fun x hx => h x (List.mem_cons_of_mem entries hx)]

theorem foldlM_addItem (h : ∀ entries ∈ carried, ∃ e, Element.ofFields entries = .ok e)
    (c : Catalog) : (carried.map .mapping).foldlM addItem c =
      .ok ((carried.filterMap built?).foldl insert c) := by
  induction carried generalizing c with
  | nil => rfl
  | cons entries carried ih =>
      obtain ⟨e, he⟩ := h entries List.mem_cons_self
      have hbuilt : built? entries = some e := Refusal.toOption_eq_some_iff.mpr he
      rw [List.map_cons, List.foldlM_cons, List.filterMap_cons_some hbuilt, List.foldl_cons,
        ← ih (fun x hx => h x (List.mem_cons_of_mem entries hx)) (c.insert e)]
      have hadd : addItem c (.mapping entries) = .ok (c.insert e) := by
        rw [addItem, Element.ofValue, he]
        rfl
      rw [hadd]
      rfl

theorem foldlM_addDocument (h : ∀ doc ∈ docs, Loads doc) (c : Catalog) :
    docs.foldlM addDocument c = .ok ((docs.flatMap elementsOf).foldl insert c) := by
  induction docs generalizing c with
  | nil => rfl
  | cons doc docs ih =>
      have hdoc : Loads doc := h doc List.mem_cons_self
      obtain ⟨items, hitems⟩ := hdoc.items
      have hadd : addDocument c doc = .ok ((elementsOf doc).foldl insert c) := by
        rw [addDocument, hitems]
        show items.foldlM addItem c = _
        rw [itemsOf_eq hitems, foldlM_addItem hdoc.elements, elementsOf]
      rw [List.foldlM_cons, hadd, List.flatMap_cons, List.foldl_append,
        ← ih fun x hx => h x (List.mem_cons_of_mem doc hx)]
      rfl

/-- What documents bind before access is granted. -/
def written (docs : List Value) : Catalog := (docs.flatMap elementsOf).foldl insert empty

theorem ofDocuments_eq (h : ∀ doc ∈ docs, Loads doc) :
    ofDocuments docs = .ok (written docs).granted := by
  rw [ofDocuments, foldlM_addDocument h]
  rfl

/-! ### Documents that were read -/

theorem loads_of_foldlM_addItem (h : (carried.map .mapping).foldlM addItem c = .ok c') :
    ∀ entries ∈ carried, ∃ e, Element.ofFields entries = .ok e := by
  induction carried generalizing c with
  | nil => exact fun entries hentries => absurd hentries List.not_mem_nil
  | cons x carried ih =>
      rw [List.map_cons, List.foldlM_cons] at h
      obtain ⟨c₁, hx, hrest⟩ := Refusal.bind_eq_ok.mp h
      obtain ⟨e, he, -⟩ := Refusal.bind_eq_ok.mp hx
      intro entries hentries
      rcases List.mem_cons.mp hentries with rfl | hentries
      · exact ⟨e, he⟩
      · exact ih hrest entries hentries

/-- Documents that could be added can be read. -/
theorem loads_of_foldlM_addDocument (h : docs.foldlM addDocument c = .ok c') :
    ∀ doc ∈ docs, Loads doc := by
  induction docs generalizing c with
  | nil => exact fun doc hdoc => absurd hdoc List.not_mem_nil
  | cons d docs ih =>
      rw [List.foldlM_cons] at h
      obtain ⟨c₁, hd, hrest⟩ := Refusal.bind_eq_ok.mp h
      obtain ⟨items, hitems, hadd⟩ := Refusal.bind_eq_ok.mp hd
      rw [itemsOf_eq hitems] at hadd
      intro doc hdoc
      rcases List.mem_cons.mp hdoc with rfl | hdoc
      · exact ⟨⟨items, hitems⟩, loads_of_foldlM_addItem hadd⟩
      · exact ih hrest doc hdoc

/-! ### The order of documents -/

/-- The documents have no uid in common. -/
def Apart (doc doc' : Value) : Prop :=
  ∀ entries ∈ carriers doc, ∀ entries' ∈ carriers doc', uidText entries ≠ uidText entries'

theorem Apart.symm (h : Apart doc doc') : Apart doc' doc :=
  fun entries hentries entries' hentries' => (h entries' hentries' entries hentries).symm

theorem exists_of_mem_uids (h : uid ∈ (elementsOf doc).map (·.uid)) :
    ∃ entries ∈ carriers doc, uidText entries = uid := by
  obtain ⟨e, he, huid⟩ := List.mem_map.mp h
  obtain ⟨entries, hentries, hbuilt⟩ := List.mem_filterMap.mp he
  exact ⟨entries, hentries, (uid_eq_of_built? hbuilt).symm.trans huid⟩

theorem Apart.notMem (h : Apart doc doc') (huid : uid ∈ (elementsOf doc).map (·.uid)) :
    uid ∉ (elementsOf doc').map (·.uid) := by
  intro huid'
  obtain ⟨entries, hentries, heq⟩ := exists_of_mem_uids huid
  obtain ⟨entries', hentries', heq'⟩ := exists_of_mem_uids huid'
  exact h entries hentries entries' hentries' (heq.trans heq'.symm)

/-- What a uid is bound to is decided in the one document that has it. -/
theorem find?_written_of_mem (hapart : docs.Pairwise Apart) (hdoc : doc ∈ docs)
    (huid : uid ∈ (elementsOf doc).map (·.uid)) :
    (written docs).find? uid = ((elementsOf doc).foldl insert empty).find? uid := by
  obtain ⟨before, after, rfl⟩ := List.append_of_mem hdoc
  have hafter : uid ∉ (after.flatMap elementsOf).map (·.uid) := by
    intro hmem
    obtain ⟨e, he, heq⟩ := List.mem_map.mp hmem
    obtain ⟨doc', hdoc', he'⟩ := List.mem_flatMap.mp he
    have hrest := (List.pairwise_cons.mp (List.pairwise_append.mp hapart).2.1).1 doc' hdoc'
    exact hrest.notMem huid (List.mem_map.mpr ⟨e, he', heq⟩)
  rw [written, List.flatMap_append, List.flatMap_cons, List.foldl_append, List.foldl_append,
    find?_foldl_of_notMem hafter]
  exact find?_foldl_of_mem huid _ _

/-- Documents without a common uid bind every uid alike in every order. -/
theorem find?_written_of_perm (hperm : docs.Perm docs') (hapart : docs.Pairwise Apart)
    (uid : String) : (written docs).find? uid = (written docs').find? uid := by
  have hunbound : ∀ {ds : List Value}, (∀ doc ∈ ds, uid ∉ (elementsOf doc).map (·.uid)) →
      (written ds).find? uid = none := by
    intro ds hnone
    refine find?_foldl_of_notMem (fun hmem => ?_) empty
    obtain ⟨e, he, heq⟩ := List.mem_map.mp hmem
    obtain ⟨doc, hdoc, he⟩ := List.mem_flatMap.mp he
    exact hnone doc hdoc (List.mem_map.mpr ⟨e, he, heq⟩)
  by_cases h : ∃ doc ∈ docs, uid ∈ (elementsOf doc).map (·.uid)
  · obtain ⟨doc, hdoc, huid⟩ := h
    have hapart' : docs'.Pairwise Apart := hperm.pairwise hapart Apart.symm
    rw [find?_written_of_mem hapart hdoc huid,
      find?_written_of_mem hapart' (hperm.mem_iff.mp hdoc) huid]
  · rw [hunbound fun doc hdoc huid => h ⟨doc, hdoc, huid⟩,
      hunbound fun doc hdoc huid => h ⟨doc, hperm.mem_iff.mpr hdoc, huid⟩]

/-- Catalogs that bind every uid alike hold the same elements. -/
theorem perm_of_find?_eq (h : ∀ uid, c.find? uid = c'.find? uid) :
    c.elements.Perm c'.elements := by
  rw [List.perm_ext_iff_of_nodup (.of_map _ c.distinct_uids) (.of_map _ c'.distinct_uids)]
  intro e
  have hmem : ∀ c : Catalog, e ∈ c.elements ↔ c.find? e.uid = some e := fun c =>
    ⟨fun he => find?_eq_some_iff.mpr ⟨he, rfl⟩, fun hfind => (find?_eq_some_iff.mp hfind).1⟩
  rw [hmem, hmem, h]

/-- Grants depend on what uids are bound to, and on nothing else of a catalog. -/
theorem find?_granted_congr (h : ∀ uid, c.find? uid = c'.find? uid) (uid : String) :
    c.granted.find? uid = c'.granted.find? uid := by
  have hgrant : c.grantAccess = c'.grantAccess := by
    funext e
    rw [grantAccess, grantAccess, show c.find? = c'.find? from funext h]
  rw [find?_granted, find?_granted, h, hgrant]

/-! ### What is promised -/

/-- What the uids of documents are bound to, told by the items that carry them. -/
structure Binds (docs : List Value) (c : Catalog) : Prop where
  /-- The uids are those of the items, each where it comes first. -/
  uids : c.elements.map (·.uid) = ((docs.flatMap carriers).map uidText).eraseDups
  /-- Each uid is bound to what its last item describes.  The access is public where the item states
  none and its parent, as it is bound in the end, is an interface or an annotation type, and
  otherwise the one that the item has. -/
  last : ∀ before entries after, docs.flatMap carriers = before ++ entries :: after →
    uidText entries ∉ after.map uidText →
    ∃ e access, Element.ofFields entries = .ok e ∧
      c.find? (uidText entries) = some { e with access } ∧
      (entryAt? (.text "access") entries = none ∧ c.Encloses (parentText? entries) →
        access = "public") ∧
      (¬(entryAt? (.text "access") entries = none ∧ c.Encloses (parentText? entries)) →
        access = accessText entries)

/-- What is written is what the items say, and a grant is made where they ask for one. -/
theorem binds_written (h : ∀ doc ∈ docs, Loads doc) : Binds docs (written docs).granted := by
  have hbuilt : docs.flatMap elementsOf = (docs.flatMap carriers).filterMap built? :=
    List.filterMap_flatMap.symm
  have hitems : ∀ entries ∈ docs.flatMap carriers, ∃ e, Element.ofFields entries = .ok e := by
    intro entries hentries
    obtain ⟨doc, hdoc, hcarried⟩ := List.mem_flatMap.mp hentries
    exact (h doc hdoc).elements entries hcarried
  constructor
  case uids =>
    have huids : (written docs).granted.elements.map (·.uid) =
        (written docs).elements.map (·.uid) := by
      simp [granted]
    rw [huids, written, uids_foldl_insert, hbuilt, uids_filterMap_built? hitems]
  case last =>
    intro before entries after hsplit hlast
    rw [hsplit] at hbuilt hitems
    obtain ⟨e, he⟩ := hitems entries (by simp)
    have hread := Element.readFrom_of_ofFields he
    have hsome : built? entries = some e := Refusal.toOption_eq_some_iff.mpr he
    have hafter : e.uid ∉ (after.filterMap built?).map (·.uid) := by
      rw [uid_eq_of_built? hsome, uids_filterMap_built? fun x hx => hitems x (by simp [hx])]
      exact hlast
    have hfind : (written docs).find? e.uid = some e := by
      rw [written, hbuilt, List.filterMap_append, List.filterMap_cons_some hsome]
      exact find?_foldl_last hafter _ empty
    rw [← uid_eq_of_built? hsome, encloses_granted_iff, ← parent_eq_of_readFrom hread,
      ← statesAccess_eq_false_iff hread, ← access_eq_of_readFrom hread, find?_granted, hfind,
      Option.map_some]
    by_cases hgrant : e.statesAccess = false ∧ (written docs).Encloses e.parent
    · exact ⟨e, "public", he, by rw [grantAccess_of_encloses hgrant.2 hgrant.1],
        fun _ => rfl, fun hnot => absurd hgrant hnot⟩
    · exact ⟨e, e.access, he, by rw [grantAccess_of_not hgrant],
        fun hyes => absurd hyes hgrant, fun _ => rfl⟩

/-- **Documents bind each uid where it comes first, to the element that comes last**, and documents
without a common uid bind the same elements in every order. -/
theorem ofDocuments_binds (h : ∀ doc ∈ docs, Loads doc) :
    ∃ c, ofDocuments docs = .ok c ∧ Binds docs c ∧
      ∀ docs', docs.Perm docs' → docs.Pairwise Apart →
        ∃ c', ofDocuments docs' = .ok c' ∧ c.elements.Perm c'.elements := by
  refine ⟨(written docs).granted, ofDocuments_eq h, binds_written h, ?_⟩
  intro docs' hperm hapart
  have h' : ∀ doc ∈ docs', Loads doc := fun doc hdoc => h doc (hperm.mem_iff.mpr hdoc)
  exact ⟨(written docs').granted, ofDocuments_eq h',
    perm_of_find?_eq (find?_granted_congr (find?_written_of_perm hperm hapart))⟩

/-! ### A member before its type -/

/-- A document with a method of shapes that states no access. -/
def areaDocument : Value :=
  Config.named [("items", .list [
    Config.named [("uid", .text "Shape.area"), ("type", .text "method"),
      ("parent", .text "Shape")]])]

/-- A document that describes shapes by a class. -/
def classDocument : Value :=
  Config.named [("items", .list [
    Config.named [("uid", .text "Shape"), ("type", .text "class")]])]

/-- A document that describes shapes by an interface, and something else without a uid. -/
def interfaceDocument : Value :=
  Config.named [("items", .list [
    Config.named [("uid", .text "Shape"), ("type", .text "Interface"), ("access", .text "public")],
    Config.named [("name", .text "Stray")]])]

/-- The method comes first, and is public because its type is an interface in the end.  Without the
class the documents have no uid in common, and their order does not matter. -/
theorem ofDocuments_binds_shapes :
    (∀ doc ∈ [areaDocument, classDocument, interfaceDocument], Loads doc) ∧
    (∃ c shape area, ofDocuments [areaDocument, classDocument, interfaceDocument] = .ok c ∧
      c.elements.map (·.uid) = ["Shape.area", "Shape"] ∧
      c.find? "Shape" = some shape ∧ shape.kind = .interfaceType ∧
      c.find? "Shape.area" = some area ∧ area.access = "public") ∧
    ∃ c c', ofDocuments [areaDocument, interfaceDocument] = .ok c ∧
      ofDocuments [interfaceDocument, areaDocument] = .ok c' ∧
      c.elements.Perm c'.elements := by
  have harea : Loads areaDocument := loads_of_carriers_eq ⟨_, rfl⟩ rfl rfl
  have hclass : Loads classDocument := loads_of_carriers_eq ⟨_, rfl⟩ rfl rfl
  have hinterface : Loads interfaceDocument := loads_of_carriers_eq ⟨_, rfl⟩ rfl rfl
  have hall : ∀ doc ∈ [areaDocument, classDocument, interfaceDocument], Loads doc := by
    simp only [List.mem_cons, List.not_mem_nil, or_false]
    rintro doc (rfl | rfl | rfl)
    · exact harea
    · exact hclass
    · exact hinterface
  refine ⟨hall, ?_, ?_⟩
  · obtain ⟨c, hc, hbinds, -⟩ := ofDocuments_binds hall
    obtain ⟨shape, _, hshape, hfind, -, -⟩ :=
      hbinds.last [_, _] _ [] rfl List.not_mem_nil
    obtain ⟨area, access, harea, hfind', hgranted, -⟩ :=
      hbinds.last [] _ [_, _] rfl (by decide)
    cases hshape
    cases harea
    refine ⟨c, _, _, hc, hbinds.uids.trans (by decide), hfind, rfl, hfind', ?_⟩
    exact hgranted ⟨rfl, _, _, rfl, hfind, .inl rfl⟩
  · have htwo : ∀ doc ∈ [areaDocument, interfaceDocument], Loads doc := by
      intro doc hdoc
      rcases List.mem_pair.mp hdoc with rfl | rfl
      · exact harea
      · exact hinterface
    have hapart : [areaDocument, interfaceDocument].Pairwise Apart := by
      refine List.pairwise_pair.mpr fun entries hentries entries' hentries' => ?_
      rw [List.mem_singleton.mp hentries, List.mem_singleton.mp hentries']
      decide
    obtain ⟨c, hc, -, horder⟩ := ofDocuments_binds htwo
    obtain ⟨c', hc', hperm⟩ := horder _ (.swap _ _ _) hapart
    exact ⟨c, c', hc, hc', hperm⟩

end TypePages.Catalog
