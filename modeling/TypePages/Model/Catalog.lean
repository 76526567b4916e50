import TypePages.Element.Reader

/-!
The elements of all documents, each uid once.

A uid keeps the place at which it was first met and the element that was read last.  Members of
interfaces and annotation types are public unless their document states an access level, and this is
decided when all documents have been read, because the enclosing type may come later.
-/

namespace TypePages

/-- Elements with distinct uids. -/
structure Catalog where
  elements : List Element
  distinct_uids : (elements.map (·.uid)).Nodup

namespace Catalog

/-- The elements with one written: in place of the one with its uid, else at the end. -/
def put (e : Element) : List Element → List Element
  | [] => [e]
  | x :: xs => if x.uid = e.uid then e :: xs else x :: put e xs

/-- Writing an element changes the uids only where its uid is new, and then at the end. -/
theorem map_uid_put (e : Element) (es : List Element) :
    (put e es).map (·.uid) =
      if e.uid ∈ es.map (·.uid) then es.map (·.uid) else es.map (·.uid) ++ [e.uid] := by
  induction es with
  | nil => simp [put]
  | cons x xs ih =>
    by_cases h : x.uid = e.uid
    · simp [put, h]
    · have h' : ¬e.uid = x.uid := fun he => h he.symm
      simp only [put, h, if_false, List.map_cons, ih, List.mem_cons, h', false_or]
      split <;> simp

theorem nodup_map_uid_put (e : Element) {es : List Element} (h : (es.map (·.uid)).Nodup) :
    ((put e es).map (·.uid)).Nodup := by
  rw [map_uid_put]
  split
  · exact h
  next hn =>
    refine List.nodup_append.2 ⟨h, by simp, ?_⟩
    intro a ha b hb
    rw [List.mem_singleton.1 hb]
    exact fun hab => hn (hab ▸ ha)

/-- No elements. -/
def empty : Catalog := ⟨[], List.nodup_nil⟩

/-- The catalog with an element written. -/
def insert (c : Catalog) (e : Element) : Catalog :=
  ⟨put e c.elements, nodup_map_uid_put e c.distinct_uids⟩

/-- The element of a uid. -/
def find? (c : Catalog) (uid : String) : Option Element := c.elements.find? (·.uid == uid)

/-- Whether the catalog has an element of the uid. -/
def contains (c : Catalog) (uid : String) : Bool := c.elements.any (·.uid == uid)

/-- The element with the access level that its enclosing type gives it. -/
def grantAccess (c : Catalog) (e : Element) : Element :=
  match e.parent.bind c.find? with
  | some outer =>
    if outer.kind.isInterfaceLike && !e.statesAccess then { e with access := "public" } else e
  | none => e

@[simp] theorem grantAccess_uid (c : Catalog) (e : Element) : (c.grantAccess e).uid = e.uid := by
  unfold grantAccess
  repeat' split
  all_goals rfl

/-- The catalog in which members of interfaces are public unless stated. -/
def granted (c : Catalog) : Catalog where
  elements := c.elements.map c.grantAccess
  distinct_uids := by
    have : c.elements.map (fun e => (c.grantAccess e).uid) = c.elements.map (·.uid) := by simp
    simpa [List.map_map, Function.comp_def] using c.distinct_uids

/-! ### Documents -/

/-- The items of a document that are mappings and carry a uid. -/
def itemsOf (doc : Value) : Except Fault (List Value) := do
  let items ← ((← doc.field? "items").getD .null).givenItems
  return items.filter fun
    | .mapping entries => (Value.fieldOf entries "uid").isGiven
    | _ => false

/-- The catalog with the element of an item written. -/
def addItem (c : Catalog) (item : Value) : Except Fault Catalog := do
  return c.insert (← Element.ofValue item)

/-- The catalog with the items of a document written. -/
def addDocument (c : Catalog) (doc : Value) : Except Fault Catalog := do
  (← itemsOf doc).foldlM addItem c

/-- The elements of documents, in the order of the documents. -/
def ofDocuments (docs : List Value) : Except Fault Catalog := do
  return (← docs.foldlM addDocument empty).granted

end Catalog

end TypePages
