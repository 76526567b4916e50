import TypePages.Member.Table

/-!
Where the documentation of a property and its accessors comes from.

It comes from the field behind the property, if that field has a comment, and otherwise from the
property method.  An accessor with a comment of its own is left alone; only the source itself stays
among the entries with its comment.  Where two properties share an accessor, the later one counts.
-/

namespace TypePages

/-- Members with the element that they are documented from, in the order of the properties. -/
structure Sources where
  entries : List (String × Element)

namespace Sources

/-- The element that a property is documented from. -/
def sourceOf (property : Element) (accessors : Accessors) : Element :=
  match accessors.field with
  | some field => if field.comment.isSome then field else property
  | none => property

/-- The entries of a property. -/
def entriesOf (property : Element) (accessors : Accessors) : List (String × Element) :=
  let source := sourceOf property accessors
  let members := property :: (accessors.getter.toList ++ accessors.setter.toList)
  (members.filter fun e => e.comment.isNone || e.uid == source.uid).map fun e => (e.uid, source)

/-- The sources of the properties that a type shows. -/
def ofTable (t : Table) : Sources := ⟨t.accessors.flatMap fun (p, found) => entriesOf p found⟩

/-- The element that a member is documented from. -/
def find? (s : Sources) (uid : String) : Option Element := s.entries.reverse.lookup uid

/-- The members that are documented from an element. -/
def keys (s : Sources) : List String := (s.entries.map (·.1)).eraseDups

/-- The notes on where properties are documented from. -/
def notes (t : Table) : List Note :=
  t.accessors.map fun (p, found) => .propertySource p.uid (sourceOf p found).uid

end Sources

end TypePages
