import TypePages.Comment.Overlay
import TypePages.Model.Basic
import TypePages.Note

/-!
The method from which an undocumented method borrows its first sentence.

The overridden methods are searched depth first, in the order in which they are listed, each once;
the first whose comment has a first sentence is the donor.
-/

namespace TypePages

/-- The outcome of a search for a donor. -/
structure DonorSearch where
  /-- The methods that had no first sentence, in the order in which they were passed. -/
  passed : List Element
  donor : Option Element

namespace DonorSearch

/-- The search goes on after a method without a first sentence. -/
def after (e : Element) (s : DonorSearch) : DonorSearch := { s with passed := e :: s.passed }

/-- The search through pending methods, next one first, of which only unvisited ones count. -/
def through (m : Model) (o : Overlay) (unvisited : List String) (pending : List Element) :
    DonorSearch :=
  match pending with
  | [] => ⟨[], none⟩
  | e :: rest =>
    if _h : e.uid ∈ unvisited then
      if o.firstSentence e ≠ "" then ⟨[], some e⟩
      else after e (through m o (unvisited.erase e.uid) (m.overridden e ++ rest))
    else through m o unvisited rest
termination_by (unvisited.length, pending.length)
decreasing_by
  · have := List.length_erase_of_mem _h
    have := List.length_pos_of_mem _h
    exact Prod.Lex.left _ _ (by omega)
  · exact Prod.Lex.right _ (by simp)

/-- The search for the donor of a method. -/
def ofMethod (m : Model) (o : Overlay) (e : Element) : DonorSearch :=
  through m o (m.uids.erase e.uid) (m.overridden e)

/-- The notes on overridden methods that are not in the model. -/
def missingNotes (m : Model) (e : Element) : List Note :=
  (e.overrides.filter (!m.contains ·)).map (.overriddenMissing · e.uid)

/-- What the search for the donor of a method reports. -/
def notes (m : Model) (o : Overlay) (e : Element) : List Note :=
  let s := ofMethod m o e
  (e :: s.passed).flatMap (missingNotes m)
    ++ if s.donor.isNone then [.nothingInherited e.uid] else []

end DonorSearch

/-- The method from which a method borrows its first sentence. -/
def Model.donor? (m : Model) (o : Overlay) (e : Element) : Option Element :=
  (DonorSearch.ofMethod m o e).donor

end TypePages
