import TypePages.Element.Basic

/-!
The order of elements in every list of members.

Names come first, without regard to case, then the parameter types; what is still equal is told
apart by the exact name and types, the kind, the enclosing type and last the uid.  Two elements of
one model are therefore never equal in the order.
-/

namespace TypePages.Element

/-- What elements are ordered by, most significant part first. -/
structure SortKey where
  foldedName : String
  foldedTypes : List String
  name : String
  types : List String
  kind : Nat
  foldedParent : String
  parent : String
  uid : String
  deriving DecidableEq

/-- The sort key of an element. -/
def sortKey (e : Element) : SortKey where
  foldedName := Text.lower e.name
  foldedTypes := e.parameterTypes.map Text.lower
  name := e.name
  types := e.parameterTypes
  kind := e.kind.rank
  foldedParent := Text.lower (e.parent.getD "")
  parent := e.parent.getD ""
  uid := e.uid

/-- Sort keys compare part by part; texts compare character by character. -/
def SortKey.compare (a b : SortKey) : Ordering :=
  (Ord.compare a.foldedName b.foldedName).then <|
  (Ord.compare a.foldedTypes b.foldedTypes).then <|
  (Ord.compare a.name b.name).then <|
  (Ord.compare a.types b.types).then <|
  (Ord.compare a.kind b.kind).then <|
  (Ord.compare a.foldedParent b.foldedParent).then <|
  (Ord.compare a.parent b.parent).then <|
  Ord.compare a.uid b.uid

/-- Comparison of elements. -/
def compare (a b : Element) : Ordering := a.sortKey.compare b.sortKey

/-- The elements without those whose uid has occurred before. -/
def distinct (es : List Element) : List Element :=
  es.foldl (fun kept e => if kept.any (·.uid == e.uid) then kept else kept ++ [e]) []

/-- The elements in order, each uid once. -/
def sorted (es : List Element) : List Element :=
  (distinct es).mergeSort fun a b => (compare a b).isLE

end TypePages.Element
