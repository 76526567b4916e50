import TypePages.Comment.Sentence
import TypePages.Element.Basic

/-!
Comments that were written in the course of a page.

The comments of the documents stay as they are.  What is written for an element lies over its
comment and hides it, so that the summary and the details of a page show the same text.
-/

namespace TypePages

/-- The comments written over elements, and the methods whose comments were borrowed, by uid. -/
structure Overlay where
  installed : String → Option Comment := fun _ => none
  donors : String → Option Element := fun _ => none

namespace Overlay

/-- Nothing written. -/
def empty : Overlay := {}

/-- The comment that is shown for an element. -/
def comment? (o : Overlay) (e : Element) : Option Comment := (o.installed e.uid).or e.comment

/-- The body of the comment that is shown for an element. -/
def body (o : Overlay) (e : Element) : String := ((o.comment? e).map (·.body)).getD ""

/-- The first sentence of the comment that is shown for an element. -/
def firstSentence (o : Overlay) (e : Element) : String := Comment.firstSentence (o.body e)

/-- The block tags of a name in the comment that is shown for an element. -/
def tagsNamed (o : Overlay) (e : Element) (name : String) : List Tag :=
  ((o.comment? e).map (·.tagsNamed name)).getD []

/-- The method from which the comment of an element was borrowed. -/
def donor? (o : Overlay) (e : Element) : Option Element := o.donors e.uid

/-- The overlay with a comment written over an element. -/
def install (o : Overlay) (e : Element) (c : Comment) : Overlay :=
  { o with installed := fun uid => if uid = e.uid then some c else o.installed uid }

/-- The overlay with the method noted from which an element's comment was borrowed. -/
def borrow (o : Overlay) (e donor : Element) : Overlay :=
  { o with donors := fun uid => if uid = e.uid then some donor else o.donors uid }

theorem comment?_install_self (o : Overlay) (e : Element) (c : Comment) :
    (o.install e c).comment? e = some c := by
  simp [comment?, install]

theorem comment?_install_of_ne (o : Overlay) {e e' : Element} (h : e'.uid ≠ e.uid) (c : Comment) :
    (o.install e c).comment? e' = o.comment? e' := by
  simp [comment?, install, h]

theorem comment?_borrow (o : Overlay) (e donor e' : Element) :
    (o.borrow e donor).comment? e' = o.comment? e' := rfl

end Overlay

end TypePages
