import TypePages.Model.Catalog

/-!
The model: the catalog of elements together with what of it may be shown.

An element is *included* when the most restrictive access along its enclosing types reaches the
least level that is documented.  Types that are included have a page; types documented elsewhere may
be named as linkable besides.  The least level is a setting and may be anything; one that is no text
is refused where it is first compared with.
-/

namespace TypePages

/-- The documented elements and the settings on visibility. -/
structure Model extends Catalog where
  minAccess : Value
  /-- The uids of types that are documented elsewhere. -/
  external : List String

namespace Model

/-- The uids of the elements, in order. -/
def uids (m : Model) : List String := m.elements.map (·.uid)

/-- The element of a uid. -/
def find? (m : Model) (uid : String) : Option Element := m.toCatalog.find? uid

/-- The elements that are declared directly in a type. -/
def membersOf (m : Model) (e : Element) : List Element :=
  m.elements.filter (·.parent == some e.uid)

/-- The element that encloses an element. -/
def enclosing? (m : Model) (e : Element) : Option Element := e.parent.bind m.find?

/-- The superclass of an element. -/
def superclass? (m : Model) (e : Element) : Option Element := e.superclass.bind m.find?

/-- The methods that a method overrides, as far as they are in the model, nearest first. -/
def overridden (m : Model) (e : Element) : List Element := e.overrides.filterMap m.find?

/-- The elements of an annotation type. -/
def annotationMembers (m : Model) (e : Element) : List Element :=
  (m.membersOf e).filter (·.kind == .annotationElement)

/-! ### Chains

Following a link such as the enclosing type or the superclass may lead round in a circle.  A walk
therefore carries the uids that it has not visited; each step takes one of them away, so it ends.
-/

/-- The elements reached from one by following a link until it ends or comes back. -/
def chain (next : Element → Option Element) (unvisited : List String) (e : Element) :
    List Element :=
  match next e with
  | none => []
  | some e' =>
    if e'.uid ∈ unvisited then e' :: chain next (unvisited.erase e'.uid) e' else []
termination_by unvisited.length
decreasing_by
  next h =>
    have := List.length_erase_of_mem h
    have := List.length_pos_of_mem h
    omega

/-- The enclosing elements of an element, innermost first. -/
def enclosingChain (m : Model) (e : Element) : List Element :=
  chain m.enclosing? (m.uids.erase e.uid) e

/-- The superclasses of an element, nearest first. -/
def superclassChain (m : Model) (e : Element) : List Element :=
  chain m.superclass? (m.uids.erase e.uid) e

/-! ### Access -/

/-- The most restrictive access level of an element and the elements around it. -/
def effectiveAccess (m : Model) (e : Element) : Access :=
  (m.enclosingChain e).foldl (fun a outer => a.meet outer.level) e.level

/-- Whether the element itself is public. -/
def isPublic (e : Element) : Bool := e.level == .everywhere

/-- Whether the element can be reached only from its package. -/
def isPackagePrivate (m : Model) (e : Element) : Bool := m.effectiveAccess e == .package

/-- The least level that is documented. -/
def threshold (m : Model) : Except Fault Access :=
  match m.minAccess with
  | .text s => .ok (.ofWord s)
  | v => .error (.noAttribute v.form "lower")

/-- Whether an element is documented, given what encloses it. -/
def isIncluded (m : Model) (e : Element) : Except Fault Bool := do
  return (← m.threshold) ≤ m.effectiveAccess e

/-- Whether an element has a page that links can point to. -/
def isLinkable (m : Model) (e : Element) : Except Fault Bool :=
  if m.external.contains e.uid then .ok true
  else if e.isType then m.isIncluded e
  else .ok false

/-- The types that get a page. -/
def documentedTypes (m : Model) : Except Fault (List Element) :=
  (m.elements.filter (·.isType)).filterM m.isIncluded

/-! ### Settings -/

/-- The uids of types that are documented elsewhere. -/
def externalOf (v : Value) : Except Fault (List String) := do
  let items ← v.givenItems
  let uids ← items.mapM fun
    | .scalar (.text s) => .ok (some s)
    | .scalar _ => .ok none
    | v => .error (.unhashable v.form)
  return uids.filterMap id

/-- The model of a catalog under the visibility settings. -/
def ofCatalog (c : Catalog) (visibility : Value) : Except Fault Model := do
  let minAccess ← visibility.entry "min_access"
  let external ← externalOf ((← visibility.field? "linkable_external").getD .null)
  return { toCatalog := c, minAccess, external }

end Model

end TypePages
