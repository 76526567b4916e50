import TypePages.Link.PagePath
import TypePages.Model.Basic

/-!
Link targets.

Every linkable type is a target, and so are the members of these types: a member is an anchor on the
page of its type.  Members are taken in the order of the model, so what is declared in a member is a
target if that member comes before it.
-/

namespace TypePages

/-- Where a link to an element points. -/
structure Target where
  title : String
  page : String
  deriving DecidableEq, Inhabited

namespace Target

/-- The target of a type. -/
def ofType (root : Value) (e : Element) : Except Fault Target := do
  return ⟨e.name, ← PagePath.ofSetting root e.fullName e.package⟩

/-- The target of a member on the page of a type, which may differ from the type that declares it.
-/
def ofMember (type : Target) (e : Element) : Target :=
  ⟨e.name, Text.before '#' type.page ++ "#" ++ Anchor.ofMember e⟩

end Target

/-- Uids with their targets. -/
abbrev Targets := List (String × Target)

namespace Targets

/-- The target of a uid. -/
def find? (ts : Targets) (uid : String) : Option Target := ts.lookup uid

/-- The targets of the linkable types. -/
def ofTypes (m : Model) (root : Value) : Except Fault Targets := do
  let types ← (m.elements.filter (·.isType)).filterMapM fun e => do
    if ← m.isLinkable e then return some (e.uid, ← Target.ofType root e) else return none
  return types

/-- The targets with that of a member, if the element that declares it is a target already. -/
def addMember (ts : Targets) (e : Element) : Targets :=
  match e.parent.bind ts.find? with
  | some t => ts ++ [(e.uid, t.ofMember e)]
  | none => ts

/-- The targets of a model whose pages lie below a root. -/
def ofModel (m : Model) (root : Value) : Except Fault Targets := do
  let types ← ofTypes m root
  return (m.elements.filter (!·.isType)).foldl addMember types

end Targets

end TypePages
