import TypePages.Config.Basic
import TypePages.Proofs.Hiding
import TypePages.Proofs.Writing

/-!
What a run of syntheses leaves written.

A synthesis writes over its member a comment that does not depend on what has been written before.
So a run writes over each of its members the one comment that is the member's own, however often and
in whatever order, and `Builder.Written` says this of the overlay that it leaves.
-/

namespace TypePages

namespace Builder

variable {b : Builder} {m : Model} {e x : Element} {es es' : List Element} {o o' : Overlay}
  {r : Record}

/-! ### A run of syntheses -/

/-- The overlay that the syntheses of some members leave, one after the other, of which the first
finds nothing written. -/
inductive Synthesized (b : Builder) : List Element → Overlay → Prop
  | nil : Synthesized b [] {}
  | snoc {es : List Element} {o : Overlay} {e : Element} {r : Record} {o' : Overlay}
      (run : Synthesized b es o) (step : b.synthesize o e = .ok (r, o')) :
      Synthesized b (es ++ [e]) o'

/-- What is written after the syntheses of some members. -/
structure Written (b : Builder) (es : List Element) (o : Overlay) : Prop where
  /-- Over each of the members stands the comment that is its own, if it has one. -/
  own : ∀ e ∈ es, b.commentFor e = .ok (o.installed e.uid)
  /-- Over nothing else anything is written. -/
  other : ∀ uid, (∀ e ∈ es, e.uid ≠ uid) → o.installed uid = none

theorem written_nil : b.Written [] {} where
  own := by simp
  other _ _ := rfl

theorem Written.installed_eq_none (h : b.Written es o) (hes : ∀ x ∈ es, x ∈ m.elements)
    (hx : x ∈ m.elements) (hnot : x ∉ es) : o.installed x.uid = none :=
  h.other x.uid fun y hy huid => hnot (Catalog.eq_of_uid_eq (hes y hy) hx huid ▸ hy)

/-- What stands over a member already is what is written over it again. -/
theorem Written.or_installed (h : b.Written es o) (hes : ∀ x ∈ es, x ∈ m.elements)
    (he : e ∈ m.elements) {c : Option Comment} (hc : b.commentFor e = .ok c) :
    c.or (o.installed e.uid) = c := by
  by_cases hmem : e ∈ es
  · have hown := h.own e hmem
    rw [hc, Except.ok.injEq] at hown
    rw [← hown, Option.or_self]
  · rw [h.installed_eq_none hes he hmem, Option.or_none]

theorem Written.snoc (h : b.Written es o) (hes : ∀ x ∈ es, x ∈ m.elements) (he : e ∈ m.elements)
    (hstep : b.synthesize o e = .ok (r, o')) : b.Written (es ++ [e]) o' := by
  obtain ⟨c, hc, -, rfl⟩ := synthesize_iff.mp hstep
  have hself : (o.write e c).installed e.uid = c := by
    rw [Overlay.installed_write_self, h.or_installed hes he hc]
  constructor
  · intro x hx
    rw [Overlay.installed_lend]
    by_cases hxe : x = e
    · rw [hxe, hself]
      exact hc
    · have hmem : x ∈ es := by simpa [hxe] using hx
      have hne : x.uid ≠ e.uid := fun huid => hxe (Catalog.eq_of_uid_eq (hes x hmem) he huid)
      rw [Overlay.installed_write_of_ne hne]
      exact h.own x hmem
  · intro uid hnot
    have hne : uid ≠ e.uid := (hnot e (by simp)).symm
    rw [Overlay.installed_lend, Overlay.installed_write_of_ne hne]
    exact h.other uid fun x hx => hnot x (List.mem_append_left _ hx)

theorem written_of_synthesized (hrun : b.Synthesized es o) (hes : ∀ x ∈ es, x ∈ m.elements) :
    b.Written es o := by
  induction hrun with
  | nil => exact written_nil
  | @snoc es o e r o' _ step ih =>
      have hinit : ∀ x ∈ es, x ∈ m.elements := fun x hx => hes x (List.mem_append_left _ hx)
      exact (ih hinit).snoc hinit (hes e (by simp)) step

/-! ### Two runs -/

/-- What is written depends only on which members were synthesised. -/
theorem Written.installed_eq (h : b.Written es o) (h' : b.Written es' o')
    (hsame : ∀ x, x ∈ es ↔ x ∈ es') : o.installed = o'.installed := by
  funext uid
  by_cases hmem : ∃ x ∈ es, x.uid = uid
  · obtain ⟨x, hx, rfl⟩ := hmem
    have hown := h.own x hx
    rw [h'.own x ((hsame x).mp hx), Except.ok.injEq] at hown
    exact hown.symm
  · have hnot : ∀ x ∈ es, x.uid ≠ uid := fun x hx huid => hmem ⟨x, hx, huid⟩
    rw [h.other uid hnot, h'.other uid fun x hx => hnot x ((hsame x).mpr hx)]

theorem Written.isSome_installed_iff (h : b.Written es o) (hes : ∀ x ∈ es, x ∈ m.elements)
    (hx : x ∈ m.elements) :
    (o.installed x.uid).isSome ↔ x ∈ es ∧ (b.sources.find? x.uid).isSome := by
  by_cases hmem : x ∈ es
  · rw [isSome_commentFor (h.own x hmem)]
    simp [hmem]
  · simp [hmem, h.installed_eq_none hes hx hmem]

/-- A synthesis writes the same comment over a member whatever was written before. -/
theorem comment?_of_synthesize {s : Element} {c : Comment} (hs : b.sources.find? e.uid = some s)
    (hc : b.propertyComment e s = .ok c) (h : b.synthesize o e = .ok (r, o')) :
    o'.comment? e = some c := by
  obtain ⟨c', hc', -, rfl⟩ := synthesize_iff.mp h
  obtain ⟨w, hw, rfl⟩ := (commentFor_of_source hs).mp hc'
  rw [hc, Except.ok.injEq] at hw
  rw [Overlay.comment?, Overlay.installed_lend, Overlay.installed_write_self, hw]
  rfl

/-- **The order and the number of syntheses leave no trace in the comments.**  Two runs over the
same members leave the same comments.  A comment is written over the members that have a source and
were synthesised, everything else keeps the comment that the documents give it, and what is written
is what any synthesis of the member writes, over whatever was written before. -/
theorem comments_of_runs (hes : ∀ x ∈ es, x ∈ b.model.membersOf b.owner)
    (hsame : ∀ x, x ∈ es ↔ x ∈ es') (hrun : b.Synthesized es o) (hrun' : b.Synthesized es' o') :
    o.installed = o'.installed ∧ (∀ x ∈ b.model.elements, o.comment? x = o'.comment? x) ∧
      (∀ x ∈ b.model.elements, ((o.installed x.uid).isSome ↔
          x ∈ es ∧ (b.sources.find? x.uid).isSome) ∧
        (¬(x ∈ es ∧ (b.sources.find? x.uid).isSome) → o.comment? x = x.comment)) ∧
      ∀ x ∈ es, ∀ s, b.sources.find? x.uid = some s →
        ∃ c, b.propertyComment x s = .ok c ∧ o.comment? x = some c ∧
          ∀ before r after, b.synthesize before x = .ok (r, after) → after.comment? x = some c := by
  have hmem : ∀ x ∈ es, x ∈ b.model.elements :=
    fun x hx => (Model.mem_membersOf_iff.mp (hes x hx)).1
  have hmem' : ∀ x ∈ es', x ∈ b.model.elements := fun x hx => hmem x ((hsame x).mpr hx)
  have hw := written_of_synthesized hrun hmem
  have hinstalled := hw.installed_eq (written_of_synthesized hrun' hmem') hsame
  refine ⟨hinstalled, fun x _ => ?_, fun x hx => ⟨hw.isSome_installed_iff hmem hx, ?_⟩, ?_⟩
  · rw [Overlay.comment?, Overlay.comment?, hinstalled]
  · intro hnot
    apply Overlay.comment?_of_installed_eq_none
    rwa [← hw.isSome_installed_iff hmem hx, Option.not_isSome_iff_eq_none] at hnot
  · intro x hx s hs
    obtain ⟨c, hc, hown⟩ := (commentFor_of_source hs).mp (hw.own x hx)
    refine ⟨c, hc, ?_, fun before r after hstep => comment?_of_synthesize hs hc hstep⟩
    rw [Overlay.comment?, hown]
    rfl

/-! A dial has a property with a getter.  One of its methods overrides the property method, another
one the getter. -/

/-- The class of dials. -/
def dial : Element := Table.sampleType .classType "Dial" none []

/-- The property method of the angle. -/
def angle : Element :=
  { Table.sampleMethod "Dial" "angleProperty" "public" [] with
    comment := some { body := "The angle." } }

/-- The getter of the angle, which has no comment. -/
def getAngle : Element := Table.sampleMethod "Dial" "getAngle" "public" []

/-- A method without a comment that overrides the property method. -/
def turn : Element :=
  { Table.sampleMethod "Dial" "turn" "public" [] with overrides := ["Dial.angleProperty"] }

/-- A method without a comment that overrides the getter. -/
def aim : Element :=
  { Table.sampleMethod "Dial" "aim" "protected" [] with overrides := ["Dial.getAngle"] }

/-- Dials, documented from a least level on. -/
def dials (least : String) : Model where
  elements := [dial, angle, getAngle, turn, aim]
  distinct_uids := by decide +kernel
  minAccess := .text least
  external := []

/-- The messages that the page of dials needs. -/
def dialMessages : Value :=
  Config.named [("property_getter_with_name", .text "Gets the value of the property \x7b0\x7d."),
    ("properties_summary", .text "Properties"), ("methods_summary", .text "Methods")]

/-- The builder of dials. -/
def dialBuilder (least : String) : Builder where
  model := dials least
  targets := []
  messages := dialMessages
  naming := .standard
  table := ⟨dials least, .standard, dial, .ofWord least,
    [(.properties, angle), (.methods, getAngle), (.methods, turn), (.methods, aim)], [],
    [(angle, ⟨none, some getAngle, none⟩)]⟩
  sources := ⟨[(angle.uid, angle), (getAngle.uid, angle)]⟩

theorem ofType_dial : ofType (dials "public") [] dialMessages ⟨.standard, true⟩ dial =
    .ok (dialBuilder "public") := by cbv

/-- The comment that is written over the getter. -/
def getAngleComment : Comment where
  body := "Gets the value of the property angle."
  tags := [{ name := descriptionTag, text := "The angle." }]

/-- The comment that is written over the property method. -/
def angleComment : Comment where
  body := "The angle."
  tags := [getterTag getAngle]

theorem source_getAngle (least : String) :
    (dialBuilder least).sources.find? getAngle.uid = some angle := rfl

theorem source_angle (least : String) :
    (dialBuilder least).sources.find? angle.uid = some angle := rfl

theorem propertyComment_getAngle (least : String) :
    (dialBuilder least).propertyComment getAngle angle = .ok getAngleComment := by
  have hrole : Naming.standard.role getAngle = .ok .getter := by cbv
  have hname : Naming.standard.propertyName getAngle = .ok "angle" := by cbv
  have hmessage : (dialBuilder least).message "property_getter_with_name" ["angle"] =
      .ok "Gets the value of the property angle." := by
    show (dialBuilder "public").message _ _ = _
    rw [← Refusal.toOption_eq_some_iff]
    decide +kernel
  have hcomment : (dialBuilder least).accessorComment "property_getter_with_name" getAngle
      ⟨"The angle.", []⟩ = .ok getAngleComment := by
    refine Refusal.bind_eq_ok.mpr ⟨_, hname, Refusal.bind_eq_ok.mpr ⟨_, hmessage, ?_⟩⟩
    decide +kernel
  exact Refusal.bind_eq_ok.mpr ⟨_, hrole, hcomment⟩

theorem propertyComment_angle (least : String) :
    (dialBuilder least).propertyComment angle angle = .ok angleComment := by
  have hrole : Naming.standard.role angle = .ok .property := by cbv
  have htags : (dialBuilder least).accessorTags angle = .ok [getterTag getAngle] := rfl
  exact Refusal.bind_eq_ok.mpr ⟨_, hrole, Refusal.bind_eq_ok.mpr ⟨_, htags, rfl⟩⟩

theorem commentFor_getAngle (least : String) :
    (dialBuilder least).commentFor getAngle = .ok (some getAngleComment) :=
  (commentFor_of_source (source_getAngle least)).mpr ⟨_, propertyComment_getAngle least, rfl⟩

theorem commentFor_angle (least : String) :
    (dialBuilder least).commentFor angle = .ok (some angleComment) :=
  (commentFor_of_source (source_angle least)).mpr ⟨_, propertyComment_angle least, rfl⟩

theorem comments_of_runs_dial :
    ofType (dials "public") [] dialMessages ⟨.standard, true⟩ dial = .ok (dialBuilder "public") ∧
      ∃ o o', (dialBuilder "public").Synthesized [getAngle, angle] o ∧
        (dialBuilder "public").Synthesized [angle, getAngle, angle] o' ∧
        o.installed = o'.installed ∧ o.comment? getAngle = some getAngleComment ∧
        o'.comment? angle = some angleComment ∧ o.comment? turn = none := by
  obtain ⟨_, o₁, h₁⟩ := exists_synthesize (commentFor_getAngle "public") {}
  obtain ⟨_, o, h₂⟩ := exists_synthesize (commentFor_angle "public") o₁
  obtain ⟨_, o₁', h₁'⟩ := exists_synthesize (commentFor_angle "public") {}
  obtain ⟨_, o₂', h₂'⟩ := exists_synthesize (commentFor_getAngle "public") o₁'
  obtain ⟨_, o', h₃'⟩ := exists_synthesize (commentFor_angle "public") o₂'
  have hrun : (dialBuilder "public").Synthesized [getAngle, angle] o :=
    (Synthesized.nil.snoc h₁).snoc h₂
  have hrun' : (dialBuilder "public").Synthesized [angle, getAngle, angle] o' :=
    ((Synthesized.nil.snoc h₁').snoc h₂').snoc h₃'
  obtain ⟨hinstalled, hagree, hother, hown⟩ := comments_of_runs (by decide +kernel)
    (fun x => by simp [or_comm]) hrun hrun'
  obtain ⟨c, hc, hgetter, -⟩ := hown getAngle (by simp) angle (source_getAngle "public")
  rw [propertyComment_getAngle, Except.ok.injEq] at hc
  obtain ⟨c', hc', hproperty, -⟩ := hown angle (by simp) angle (source_angle "public")
  rw [propertyComment_angle, Except.ok.injEq] at hc'
  have hturn : o.comment? turn = turn.comment :=
    (hother turn (by decide +kernel)).2 fun h => absurd h.1 (by decide +kernel)
  refine ⟨ofType_dial, o, o', hrun, hrun', hinstalled, ?_, ?_, hturn⟩
  · rw [hgetter, hc]
  · rw [← hagree angle (by decide +kernel), hproperty, hc']

end Builder

end TypePages
