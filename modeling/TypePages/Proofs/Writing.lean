import TypePages.Proofs.Refusal
import TypePages.Summary.Record

/-!
What one synthesis does.

The comment that a member gets is made from its source as the documents have it, and what has been
written before is not asked for.  `Builder.commentFor` is that comment, without an overlay to depend
on, and `Builder.synthesize_eq` takes the synthesis apart into it: the comment is written, the record
is read off what is then written, and its donor is noted.  Nothing else has to open the synthesis.
-/

namespace TypePages

namespace Overlay

variable {o : Overlay} {e x : Element} {c : Option Comment}

/-- The overlay with a comment written over an element, if there is one to write. -/
def write (o : Overlay) (e : Element) : Option Comment → Overlay
  | some c => o.install e c
  | none => o

/-- The overlay with a donor noted for an element, if there is one to note. -/
def lend (o : Overlay) (e : Element) : Option Element → Overlay
  | some donor => o.borrow e donor
  | none => o

theorem installed_write_self : (o.write e c).installed e.uid = c.or (o.installed e.uid) := by
  cases c with
  | none => rfl
  | some c => exact if_pos rfl

theorem installed_write_of_ne {uid : String} (h : uid ≠ e.uid) :
    (o.write e c).installed uid = o.installed uid := by
  cases c with
  | none => rfl
  | some c => exact if_neg h

@[simp] theorem installed_lend (donor : Option Element) :
    (o.lend e donor).installed = o.installed := by
  cases donor <;> rfl

@[simp] theorem donors_write : (o.write e c).donors = o.donors := by
  cases c <;> rfl

theorem donors_lend_self (donor : Option Element) :
    (o.lend e donor).donors e.uid = donor.or (o.donors e.uid) := by
  cases donor with
  | none => rfl
  | some d => exact if_pos rfl

theorem donors_lend_of_ne {uid : String} (h : uid ≠ e.uid) (donor : Option Element) :
    (o.lend e donor).donors uid = o.donors uid := by
  cases donor with
  | none => rfl
  | some d => exact if_neg h

theorem comment?_of_installed_eq_none (h : o.installed x.uid = none) :
    o.comment? x = x.comment := by
  rw [comment?, h, Option.none_or]

end Overlay

namespace Builder

variable {b : Builder} {e : Element} {o o' : Overlay} {r : Record}

/-- The comment that the synthesis writes over a member, if the member has a source. -/
def commentFor (b : Builder) (e : Element) : Except Fault (Option Comment) :=
  match b.sources.find? e.uid with
  | some source => do return some (← b.propertyComment e source)
  | none => .ok none

theorem commentFor_eq {s : Element} (h : b.sources.find? e.uid = some s) :
    b.commentFor e = (b.propertyComment e s).map some := by
  unfold commentFor
  rw [h]
  show (do return some (← b.propertyComment e s)) = _
  cases b.propertyComment e s <;> rfl

theorem commentFor_of_source {s : Element} (h : b.sources.find? e.uid = some s)
    {c : Option Comment} :
    b.commentFor e = .ok c ↔ ∃ w, b.propertyComment e s = .ok w ∧ c = some w := by
  rw [commentFor_eq h, Refusal.map_eq_ok]
  exact exists_congr fun w => and_congr_right fun _ => eq_comm

/-- A comment is written over the members that have a source, and over them alone. -/
theorem isSome_commentFor {c : Option Comment} (hc : b.commentFor e = .ok c) :
    c.isSome = (b.sources.find? e.uid).isSome := by
  cases h : b.sources.find? e.uid with
  | none =>
      unfold commentFor at hc
      rw [h, Except.ok.injEq] at hc
      rw [← hc]
      rfl
  | some s =>
      obtain ⟨w, -, rfl⟩ := (commentFor_of_source h).mp hc
      rfl

/-- Documenting a member writes its comment. -/
theorem document_eq (b : Builder) (o : Overlay) (e : Element) :
    b.document o e = (b.commentFor e).map (o.write e) := by
  unfold document commentFor
  cases b.sources.find? e.uid with
  | none => rfl
  | some s =>
      show (do return o.install e (← b.propertyComment e s)) =
        Except.map (o.write e) (do return some (← b.propertyComment e s))
      cases b.propertyComment e s <;> rfl

theorem document_eq_ok_iff : b.document o e = .ok o' ↔
    ∃ c, b.commentFor e = .ok c ∧ o' = o.write e c := by
  rw [document_eq, Refusal.map_eq_ok]
  exact exists_congr fun c => and_congr_right fun _ => eq_comm

/-- A synthesis writes the comment of its member, reads the record off what is then written, and
notes the donor of the record. -/
theorem synthesize_eq (b : Builder) (o : Overlay) (e : Element) :
    b.synthesize o e = (b.commentFor e).map fun c => (b.recordOf (o.write e c) e,
      (o.write e c).lend e (b.recordOf (o.write e c) e).donor) := by
  unfold synthesize
  rw [document_eq]
  cases b.commentFor e with
  | error f => rfl
  | ok c =>
      show Except.ok (_, match (b.recordOf (o.write e c) e).donor with
        | some d => _
        | none => _) = Except.ok (_, (o.write e c).lend e (b.recordOf (o.write e c) e).donor)
      cases (b.recordOf (o.write e c) e).donor <;> rfl

theorem synthesize_iff : b.synthesize o e = .ok (r, o') ↔ ∃ c, b.commentFor e = .ok c ∧
    r = b.recordOf (o.write e c) e ∧ o' = (o.write e c).lend e r.donor := by
  rw [synthesize_eq, Refusal.map_eq_ok]
  refine exists_congr fun c => and_congr_right fun _ => ?_
  rw [Prod.mk.injEq]
  constructor
  · rintro ⟨rfl, rfl⟩
    exact ⟨rfl, rfl⟩
  · rintro ⟨rfl, rfl⟩
    exact ⟨rfl, rfl⟩

/-- A member whose comment can be made is synthesised over whatever was written before. -/
theorem exists_synthesize {c : Option Comment} (hc : b.commentFor e = .ok c) (o : Overlay) :
    ∃ r o', b.synthesize o e = .ok (r, o') :=
  ⟨_, _, synthesize_iff.mpr ⟨c, hc, rfl, rfl⟩⟩

end Builder

end TypePages
