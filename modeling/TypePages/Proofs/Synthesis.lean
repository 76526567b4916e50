import TypePages.Config.Basic
import TypePages.Proofs.Properties
import TypePages.Proofs.Writing

/-!
When the synthesis keeps what an author has written.

A member with a comment gets another text in two ways only.  A property method that is documented
from itself is asked for its role, and if its name starts like that of an accessor the sentence of
the accessor replaces its text.  A method whose text has no first sentence borrows one.  Everything
else that is declared in a type keeps its body and its first sentence.
-/

namespace TypePages

/-! ### The search for a donor -/

namespace DonorSearch

variable {m : Model} {o o' : Overlay} {unvisited : List String} {pending : List Element}
  {e d : Element}

/-- A donor has a first sentence to lend. -/
theorem firstSentence_of_donor (h : (through m o unvisited pending).donor = some d) :
    o.firstSentence d ≠ "" := by
  fun_induction through m o unvisited pending with
  | case1 => cases h
  | case2 unvisited e rest hmem hne =>
      cases h
      exact hne
  | case3 unvisited e rest hmem hempty ih => exact ih h
  | case4 unvisited e rest hmem ih => exact ih h

/-- A search looks at the first sentences of unvisited methods alone. -/
theorem through_congr
    (h : ∀ x : Element, x.uid ∈ unvisited → o.firstSentence x = o'.firstSentence x) :
    through m o unvisited pending = through m o' unvisited pending := by
  fun_induction through m o unvisited pending with
  | case1 => rw [through]
  | case2 unvisited e rest hmem hne =>
      rw [h e hmem] at hne
      rw [through, dif_pos hmem, if_pos hne]
  | case3 unvisited e rest hmem hempty ih =>
      rw [h e hmem] at hempty
      rw [through, dif_pos hmem, if_neg hempty, ih fun x hx => h x (List.mem_of_mem_erase hx)]
  | case4 unvisited e rest hmem ih =>
      rw [through, dif_neg hmem, ih h]

/-- The search for the donor of a method does not look at the method itself. -/
theorem ofMethod_congr (h : ∀ x : Element, x.uid ≠ e.uid → o.firstSentence x = o'.firstSentence x) :
    ofMethod m o e = ofMethod m o' e :=
  through_congr fun x hx => h x ((m.nodup_uids.mem_erase_iff).mp hx).1

end DonorSearch

namespace Model

variable {m : Model} {o : Overlay} {e d : Element}

theorem firstSentence_of_donor? (h : m.donor? o e = some d) : o.firstSentence d ≠ "" :=
  DonorSearch.firstSentence_of_donor h

/-- What is written over a method is not asked for when the method looks for a donor. -/
theorem donor?_install (o : Overlay) (e : Element) (c : Comment) :
    m.donor? (o.install e c) e = m.donor? o e := by
  unfold donor?
  rw [DonorSearch.ofMethod_congr fun x hne => ?_]
  simp only [Overlay.firstSentence, Overlay.body, Overlay.comment?_install_of_ne o hne]

end Model

/-! ### What is written over a member -/

namespace Builder

variable {b : Builder} {m : Model} {targets : Targets} {messages : Value} {rules : Table.Rules}
  {owner e : Element} {c : Comment} {o : Overlay}

/-- The message that begins the documentation of an accessor. -/
def messageKey : Naming.Role → Option String
  | .getter => some "property_getter_with_name"
  | .setter => some "property_setter_with_name"
  | .property => none

theorem role_returns (hb : ofType m targets messages rules owner = .ok b)
    (hself : b.table.DocumentsItself e) : ∃ role, b.naming.role e = .ok role := by
  obtain ⟨-, -, hnaming, ht, -⟩ := of_ofType hb
  obtain ⟨found, hfound⟩ := Table.exists_accessors ht hself.visible
  obtain ⟨hgetters, hsetters⟩ :=
    Table.allTexts_of_findAccessors ((Table.accessors_of_read ht).2 _ hfound)
  rw [hnaming]
  exact Naming.role_of_allTexts hsetters hgetters e

/-- A setter has a parameter to name, so a property method can always refer to its accessors. -/
theorem accessorTags_returns (hb : ofType m targets messages rules owner = .ok b) (e : Element) :
    ∃ tags, b.accessorTags e = .ok tags := by
  obtain ⟨-, -, -, ht, -⟩ := of_ofType hb
  have htags : ∃ tags, (b.table.setter? e).toList.mapM setterTag = .ok tags := by
    refine Refusal.mapM_returns fun s hs => ?_
    obtain ⟨p, hp⟩ := Table.parameters_of_setter? ht (Option.mem_toList.mp hs)
    exact ⟨_, by rw [setterTag, hp]⟩
  obtain ⟨tags, htags⟩ := htags
  exact ⟨_, Refusal.bind_eq_ok.mpr ⟨tags, htags, rfl⟩⟩

/-- The text that the synthesis gives a property method with a comment. -/
inductive Writes (b : Builder) (e : Element) (c : Comment) : String → Prop
  | own (h : b.naming.role e = .ok .property) : Writes b e c c.body
  | sentence {role : Naming.Role} {key name sentence : String} (h : b.naming.role e = .ok role)
      (hkey : messageKey role = some key) (hname : b.naming.propertyName e = .ok name)
      (hmessage : b.message key [name] = .ok sentence) : Writes b e c (Text.collapse sentence)

theorem writes_of_accessorComment {role : Naming.Role} {key : String}
    (hrole : b.naming.role e = .ok role) (hkey : messageKey role = some key) {w : Comment}
    (h : b.accessorComment key e c = .ok w) : b.Writes e c w.body := by
  obtain ⟨name, hname, h₁⟩ := Refusal.bind_eq_ok.mp h
  obtain ⟨sentence, hmessage, h₂⟩ := Refusal.bind_eq_ok.mp h₁
  rw [Refusal.pure_eq_ok] at h₂
  subst h₂
  exact .sentence hrole hkey hname hmessage

theorem accessorComment_of_message {key name sentence : String}
    (hname : b.naming.propertyName e = .ok name) (hmessage : b.message key [name] = .ok sentence)
    (c : Comment) : ∃ w, b.accessorComment key e c = .ok w ∧ w.body = Text.collapse sentence :=
  ⟨_, Refusal.bind_eq_ok.mpr ⟨name, hname, Refusal.bind_eq_ok.mpr ⟨sentence, hmessage, rfl⟩⟩, rfl⟩

/-- The comment that is made from a source, role by role. -/
theorem propertyComment_eq {role : Naming.Role} (hrole : b.naming.role e = .ok role)
    (s : Element) : b.propertyComment e s = match messageKey role with
      | some key => b.accessorComment key e (s.comment.getD .empty)
      | none => do
        return { body := (s.comment.getD .empty).body
                 tags := keptTags (s.comment.getD .empty) ++ (← b.accessorTags e) } := by
  unfold propertyComment
  rw [hrole]
  cases role <;> rfl

theorem body_propertyComment_iff (hb : ofType m targets messages rules owner = .ok b)
    (hc : e.comment = some c) (hself : b.table.DocumentsItself e) {text : String} :
    (∃ w, b.propertyComment e e = .ok w ∧ w.body = text) ↔ b.Writes e c text := by
  obtain ⟨role, hrole⟩ := role_returns hb hself
  rw [propertyComment_eq hrole, hc, Option.getD_some]
  constructor
  · rintro ⟨w, hw, rfl⟩
    cases hkey : messageKey role with
    | some key =>
        rw [hkey] at hw
        exact writes_of_accessorComment hrole hkey hw
    | none =>
        rw [hkey] at hw
        obtain ⟨tags, -, h₁⟩ := Refusal.bind_eq_ok.mp hw
        rw [Refusal.pure_eq_ok] at h₁
        subst h₁
        have hproperty : role = .property := by cases role <;> first | rfl | cases hkey
        exact .own (hproperty ▸ hrole)
  · intro h
    cases h with
    | own hproperty =>
        rw [hrole, Except.ok.injEq] at hproperty
        subst hproperty
        obtain ⟨tags, htags⟩ := accessorTags_returns hb e
        exact ⟨_, Refusal.bind_eq_ok.mpr ⟨tags, htags, rfl⟩, rfl⟩
    | @sentence role' key name sentence hrole' hkey hname hmessage =>
        rw [hrole, Except.ok.injEq] at hrole'
        subst hrole'
        rw [hkey]
        exact accessorComment_of_message hname hmessage c

/-! ### The record of a member with a comment -/

theorem body_recordOf (b : Builder) (o : Overlay) (e : Element) :
    (b.recordOf o e).body = o.body e := by
  show ((o.comment? e).getD .empty).body = ((o.comment? e).map (·.body)).getD ""
  cases o.comment? e <;> rfl

/-- A text without a first sentence sends its method to look for a donor, and there is one. -/
structure Borrows (b : Builder) (e : Element) (c : Comment) : Prop where
  executable : e.isExecutable = true
  silent : Comment.firstSentence c.body = ""
  lent : ∃ donor, b.model.donor? {} e = some donor

/-- Where a member's text is kept its first sentence is, unless it is borrowed. -/
theorem firstSentence_recordOf_iff (hdonor : b.model.donor? o e = b.model.donor? {} e)
    (hbody : o.body e = c.body) :
    (b.recordOf o e).firstSentence = Comment.firstSentence c.body ↔ ¬b.Borrows e c := by
  have hfirst : o.firstSentence e = Comment.firstSentence c.body := by
    rw [Overlay.firstSentence, hbody]
  have hborrows : borrows o e = true ↔
      e.isExecutable = true ∧ Comment.firstSentence c.body = "" := by
    rw [borrows, hfirst, Bool.and_eq_true, beq_iff_eq]
  cases hd : b.donorOf o e with
  | none =>
      have hown : (b.recordOf o e).firstSentence = o.firstSentence e := by
        simp only [recordOf, hd]
      refine iff_of_true (hown.trans hfirst) fun hlent => ?_
      obtain ⟨donor, hdonor'⟩ := hlent.lent
      rw [donorOf, if_pos (hborrows.mpr ⟨hlent.executable, hlent.silent⟩), hdonor, hdonor'] at hd
      cases hd
  | some d =>
      have hlent : (b.recordOf o e).firstSentence = o.firstSentence d := by
        simp only [recordOf, hd]
      unfold donorOf at hd
      by_cases hb : borrows o e = true
      · rw [if_pos hb] at hd
        obtain ⟨hexecutable, hsilent⟩ := hborrows.mp hb
        refine iff_of_false ?_ (not_not_intro ⟨hexecutable, hsilent, d, hdonor ▸ hd⟩)
        rw [hlent, hsilent]
        exact Model.firstSentence_of_donor? hd
      · rw [if_neg hb] at hd
        cases hd

theorem synthesize_eq_ok_iff {r : Record} :
    (∃ o', b.synthesize o e = .ok (r, o')) ↔ ∃ o₁, b.document o e = .ok o₁ ∧
      r = b.recordOf o₁ e := by
  constructor
  · rintro ⟨o', h⟩
    obtain ⟨c, hc, hr, -⟩ := synthesize_iff.mp h
    exact ⟨_, document_eq_ok_iff.mpr ⟨c, hc, rfl⟩, hr⟩
  · rintro ⟨o₁, hdocument, rfl⟩
    obtain ⟨c, hc, rfl⟩ := document_eq_ok_iff.mp hdocument
    exact ⟨_, synthesize_iff.mpr ⟨c, hc, rfl, rfl⟩⟩

theorem donor?_of_document {o₁ : Overlay} (h : b.document o e = .ok o₁) :
    b.model.donor? o₁ e = b.model.donor? o e := by
  obtain ⟨c, -, rfl⟩ := document_eq_ok_iff.mp h
  cases c with
  | none => rfl
  | some w => exact Model.donor?_install o e w

theorem body_install (o : Overlay) (e : Element) (w : Comment) :
    (o.install e w).body e = w.body := by
  rw [Overlay.body, Overlay.comment?_install_self]
  rfl

/-- A member with a comment is written over where it is documented from itself, and only there. -/
theorem document_of_comment (hb : ofType m targets messages rules owner = .ok b)
    (he : e ∈ m.membersOf owner) (hc : e.comment = some c) :
    (b.table.DocumentsItself e →
        b.document o e = do return o.install e (← b.propertyComment e e)) ∧
      (¬b.table.DocumentsItself e → b.document o e = .ok o) := by
  obtain ⟨-, -, -, ht, hsources⟩ := of_ofType hb
  have hsource := Table.find?_source_of_comment ht he (by simp [hc])
  rw [← hsources] at hsource
  unfold document
  constructor
  · intro hself
    rw [(hsource e).mpr ⟨rfl, hself⟩]
  · intro hnot
    cases hfind : b.sources.find? e.uid with
    | none => rfl
    | some s => exact absurd ((hsource s).mp hfind).2 hnot

/-- The texts that a member with a comment can have once it has been documented. -/
theorem body_document_iff (hb : ofType m targets messages rules owner = .ok b)
    (he : e ∈ m.membersOf owner) (hc : e.comment = some c) {text : String} :
    (∃ o, b.document {} e = .ok o ∧ o.body e = text) ↔
      b.table.DocumentsItself e ∧ b.Writes e c text ∨
        ¬b.table.DocumentsItself e ∧ text = c.body := by
  obtain ⟨hitself, hother⟩ := document_of_comment (o := {}) hb he hc
  by_cases hself : b.table.DocumentsItself e
  · rw [hitself hself, ← body_propertyComment_iff hb hc hself]
    simp only [hself, true_and, not_true_eq_false, false_and, or_false]
    constructor
    · rintro ⟨o, ho, rfl⟩
      obtain ⟨w, hw, h₁⟩ := Refusal.bind_eq_ok.mp ho
      rw [Refusal.pure_eq_ok] at h₁
      exact ⟨w, hw, by rw [← h₁, body_install]⟩
    · rintro ⟨w, hw, rfl⟩
      exact ⟨_, Refusal.bind_eq_ok.mpr ⟨w, hw, rfl⟩, body_install _ _ _⟩
  · have hbody : Overlay.body {} e = c.body := by
      show ((e.comment).map (·.body)).getD "" = c.body
      rw [hc]
      rfl
    rw [hother hself]
    simp [hself, hbody, eq_comm]

/-- **The synthesis keeps the text of a member with a comment, but for two exceptions.**  A property
method that is documented from itself keeps it only if its name gives it no other role or the
sentence of that role is its text, and a text without a first sentence may borrow one. -/
theorem keeps_text_iff (hb : ofType m targets messages rules owner = .ok b)
    (he : e ∈ m.membersOf owner) (hc : e.comment = some c) :
    (∃ r o, b.synthesize {} e = .ok (r, o) ∧ r.body = c.body ∧
        r.firstSentence = Comment.firstSentence c.body) ↔
      (b.table.DocumentsItself e → b.Writes e c c.body) ∧ ¬b.Borrows e c := by
  have hdocument : (∃ o, b.document {} e = .ok o ∧ o.body e = c.body) ↔
      b.table.DocumentsItself e ∧ b.Writes e c c.body ∨
        ¬b.table.DocumentsItself e ∧ c.body = c.body := body_document_iff hb he hc
  constructor
  · rintro ⟨r, o', hr, hbody, hfirst⟩
    obtain ⟨o, ho, rfl⟩ := synthesize_eq_ok_iff.mp ⟨o', hr⟩
    rw [body_recordOf] at hbody
    refine ⟨fun hself => ?_, (firstSentence_recordOf_iff (donor?_of_document ho) hbody).mp hfirst⟩
    rcases hdocument.mp ⟨o, ho, hbody⟩ with ⟨-, hwrites⟩ | ⟨hnot, -⟩
    · exact hwrites
    · exact absurd hself hnot
  · rintro ⟨hwrites, hborrows⟩
    have hcases : b.table.DocumentsItself e ∧ b.Writes e c c.body ∨
        ¬b.table.DocumentsItself e ∧ c.body = c.body := by
      by_cases hself : b.table.DocumentsItself e
      · exact .inl ⟨hself, hwrites hself⟩
      · exact .inr ⟨hself, rfl⟩
    obtain ⟨o, ho, hbody⟩ := hdocument.mpr hcases
    obtain ⟨o', hr⟩ := synthesize_eq_ok_iff.mpr ⟨o, ho, rfl⟩
    exact ⟨_, o', hr, (body_recordOf b o e).trans hbody,
      (firstSentence_recordOf_iff (donor?_of_document ho) hbody).mpr hborrows⟩

/-! A box has two commented properties.  The name of the second starts like that of a getter, and
its comment is lost. -/

/-- The class of boxes. -/
def box : Element := Table.sampleType .classType "Box" none []

/-- A commented method of boxes. -/
def boxMethod (name body : String) : Element :=
  { Table.sampleMethod "Box" name "public" [] with comment := some { body } }

/-- The property method of the width. -/
def width : Element := boxMethod "widthProperty" "The width."

/-- The property method of the depth. -/
def depth : Element := boxMethod "getDepthProperty" "The depth."

/-- Boxes. -/
def boxes : Model where
  elements := [box, width, depth]
  distinct_uids := by decide +kernel
  minAccess := .text "protected"
  external := []

/-- The message that the page of boxes needs. -/
def boxMessages : Value :=
  Config.named [("property_getter_with_name", .text "Gets the value of the property \x7b0\x7d.")]

/-- The builder of boxes. -/
def boxBuilder : Builder where
  model := boxes
  targets := []
  messages := boxMessages
  naming := .standard
  table := ⟨boxes, .standard, box, .protectedOnly, [(.properties, width), (.properties, depth)], [],
    [(width, ⟨none, none, none⟩), (depth, ⟨none, none, none⟩)]⟩
  sources := ⟨[(width.uid, width), (depth.uid, depth)]⟩

theorem ofType_box : ofType boxes [] boxMessages ⟨.standard, true⟩ box = .ok boxBuilder := by
  have hancestors : boxes.ancestors box = [] := by cbv
  have hown : Table.classifyAll ⟨.standard, true⟩ boxes box =
      .ok [(.properties, width), (.properties, depth)] := by
    rw [← Refusal.toOption_eq_some_iff]
    decide +kernel
  have hmembers : Table.readMembers ⟨.standard, true⟩ boxes box =
      .ok { boxBuilder.table with accessors := [] } := by
    unfold Table.readMembers
    rw [hown, hancestors]
    rfl
  have hwidth : Table.findAccessors .standard (boxes.membersOf box) width =
      .ok ⟨none, none, none⟩ := by
    rw [← Refusal.toOption_eq_some_iff]
    decide +kernel
  have hdepth : Table.findAccessors .standard (boxes.membersOf box) depth =
      .ok ⟨none, none, none⟩ := by
    rw [← Refusal.toOption_eq_some_iff]
    decide +kernel
  have hvisible : ({ boxBuilder.table with accessors := [] } : Table).visible .properties =
      [width, depth] := by decide +kernel
  have haccessors : (({ boxBuilder.table with accessors := [] } : Table).visible .properties).mapM
      (fun p => do return (p, ← Table.findAccessors .standard (boxes.membersOf box) p)) =
        Except.ok [(width, ⟨none, none, none⟩), (depth, ⟨none, none, none⟩)] := by
    rw [hvisible, Refusal.mapM_eq_ok]
    exact .cons (Refusal.bind_eq_ok.mpr ⟨_, hwidth, rfl⟩)
      (.cons (Refusal.bind_eq_ok.mpr ⟨_, hdepth, rfl⟩) .nil)
  exact Refusal.bind_eq_ok.mpr ⟨boxBuilder.table, Refusal.bind_eq_ok.mpr ⟨_, hmembers,
    Refusal.bind_eq_ok.mpr ⟨_, haccessors, rfl⟩⟩, rfl⟩

theorem keeps_text_width : ∃ r o, boxBuilder.synthesize {} width = .ok (r, o) ∧
    r.body = "The width." ∧ r.firstSentence = Comment.firstSentence "The width." := by
  have hmem : width ∈ boxes.membersOf box := by decide +kernel
  refine (keeps_text_iff (c := ⟨"The width.", []⟩) ofType_box hmem rfl).mpr ⟨fun _ => ?_, ?_⟩
  · exact .own (by cbv)
  · rintro ⟨-, hsilent, -⟩
    exact absurd hsilent (by decide +kernel)

theorem text_lost_depth :
    ofType boxes [] boxMessages ⟨.standard, true⟩ box = .ok boxBuilder ∧
      depth ∈ boxes.membersOf box ∧ depth.comment = some ⟨"The depth.", []⟩ ∧
      ∃ r o, boxBuilder.synthesize {} depth = .ok (r, o) ∧
        r.body = "Gets the value of the property depthProperty." ∧ r.body ≠ "The depth." := by
  have hmem : depth ∈ boxes.membersOf box := by decide +kernel
  have hself : boxBuilder.table.DocumentsItself depth :=
    ⟨by decide +kernel, fun f hf => by
      have hnone : boxBuilder.table.field? depth = none := by decide +kernel
      rw [hnone] at hf
      cases hf⟩
  have hrole : boxBuilder.naming.role depth = .ok .getter := by cbv
  have hname : boxBuilder.naming.propertyName depth = .ok "depthProperty" := by cbv
  have hmessage : boxBuilder.message "property_getter_with_name" ["depthProperty"] =
      .ok "Gets the value of the property depthProperty." := by
    rw [← Refusal.toOption_eq_some_iff]
    decide +kernel
  have hwrites : boxBuilder.Writes depth ⟨"The depth.", []⟩
      (Text.collapse "Gets the value of the property depthProperty.") :=
    .sentence hrole rfl hname hmessage
  obtain ⟨o, ho, hbody⟩ := (body_document_iff ofType_box hmem rfl).mpr (.inl ⟨hself, hwrites⟩)
  obtain ⟨o', hr⟩ := synthesize_eq_ok_iff.mpr ⟨o, ho, rfl⟩
  have htext : (boxBuilder.recordOf o depth).body =
      "Gets the value of the property depthProperty." := by
    rw [body_recordOf, hbody]
    decide +kernel
  refine ⟨ofType_box, hmem, rfl, _, o', hr, htext, ?_⟩
  rw [htext]
  decide

end Builder

end TypePages
