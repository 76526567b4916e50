import TypePages.Proofs.Completion
import TypePages.Proofs.History
import TypePages.Proofs.Links

/-!
Rows that wait for their table.

A call that is refused in the middle of a table leaves the rows that it has put there, and the next
table of the kind would start with them.  It never comes to that.  Whether a member's row is refused
does not depend on the draft, so a table that is refused once is refused always
(`total_ownGroup_of_returns`), and rows are left of such kinds only.  `Called` is any sequence of
calls, refused or not; `Drained` is what each of them keeps.
-/

namespace TypePages

/-! ### Steps that may be refused -/

namespace Work

variable {α β : Type} {P : Draft → Prop} {w : Work α} {f : α → Work β} {d d' : Draft}

/-- The draft that a step leaves behind, also when it is refused. -/
def after (w : Work α) (d : Draft) : Draft := (w.run.run d).run.2

theorem after_of_returns {a : α} (h : w.Returns d a d') : w.after d = d' := congrArg Prod.snd h

/-- A step goes on from the draft that its first part leaves behind. -/
theorem after_bind_of_returns {a : α} {d₁ : Draft} (h : w.Returns d a d₁) :
    (w >>= f).after d = (f a).after d₁ := by
  unfold Returns at h
  unfold after
  rw [ExceptT.run_bind, StateT.run_bind]
  simp only [Id.run_bind, h]

/-- A step whose first part is refused ends there. -/
theorem after_bind_of_refused (h : ¬∃ a d₁, w.Returns d a d₁) : (w >>= f).after d = w.after d := by
  unfold Returns at h
  unfold after
  rw [ExceptT.run_bind, StateT.run_bind]
  simp only [Id.run_bind]
  rcases hrun : (w.run.run d).run with ⟨o, d₁⟩
  cases o with
  | error fault => rfl
  | ok a => exact absurd ⟨a, d₁, hrun⟩ h

/-- What holds of a draft holds of the one that the step leaves behind, also when it is refused. -/
def Keeps (P : Draft → Prop) (w : Work α) : Prop := ∀ d, P d → P (w.after d)

theorem keeps_of (x : Except Fault α) : Keeps P (Work.of x) := fun _ h => h

theorem keeps_pure (a : α) : Keeps P (pure a) := fun _ h => h

theorem keeps_get : Keeps P (get : Work Draft) := fun _ h => h

theorem keeps_modify {g : Draft → Draft} (h : ∀ d, P d → P (g d)) :
    Keeps P (modify g : Work PUnit) := h

/-- The second part has to keep the property only for values that the first part returns. -/
theorem Keeps.bind (hw : Keeps P w) (hf : ∀ a, (∃ d d', w.Returns d a d') → Keeps P (f a)) :
    Keeps P (w >>= f) := by
  intro d hd
  by_cases h : ∃ a d₁, w.Returns d a d₁
  · obtain ⟨a, d₁, hreturns⟩ := h
    rw [after_bind_of_returns hreturns]
    exact hf a ⟨d, d₁, hreturns⟩ d₁ (after_of_returns hreturns ▸ hw d hd)
  · rw [after_bind_of_refused h]
    exact hw d hd

theorem keeps_mapM {xs : List α} (h : ∀ x ∈ xs, Keeps P (f x)) : Keeps P (xs.mapM f) := by
  induction xs with
  | nil => exact keeps_pure []
  | cons x xs ih =>
      rw [List.mapM_cons]
      exact (h x List.mem_cons_self).bind fun y _ =>
        (ih fun z hz => h z (List.mem_cons_of_mem x hz)).bind fun ys _ => keeps_pure (y :: ys)

/-- Where a list of steps returns, each of them has returned from some draft. -/
theorem Each.exists_returns {xs : List α} {ys : List β} (h : Each f xs d ys d') {x : α}
    (hx : x ∈ xs) : ∃ d₀ y d₁, (f x).Returns d₀ y d₁ := by
  induction h with
  | nil => exact absurd hx List.not_mem_nil
  | cons head _ ih =>
      rcases List.mem_cons.mp hx with rfl | hx
      · exact ⟨_, _, _, head⟩
      · exact ih hx

/-- A list of steps is refused when one of them is refused from every draft. -/
theorem not_returns_mapM {xs : List α} {x : α} (hx : x ∈ xs)
    (h : ∀ d, ¬∃ y d', (f x).Returns d y d') : ¬∃ ys d', (xs.mapM f).Returns d ys d' := by
  rintro ⟨ys, d', hreturns⟩
  obtain ⟨d₀, hstep⟩ := (returns_mapM_iff.mp hreturns).exists_returns hx
  exact h d₀ hstep

end Work

namespace Builder

open Work

variable {b : Builder} {k k' : Member.Kind} {e : Element} {d d' : Draft}
  {Q : (Member.Kind → List Row) → Prop}

/-! ### What a section does to the rows -/

/-- What the section of a kind keeps of the waiting rows: it stays when a row of the kind is put
with them, and when those of the kind are taken. -/
structure Stable (b : Builder) (k : Member.Kind) (Q : (Member.Kind → List Row) → Prop) : Prop where
  put : ∀ {o e sentence row rows}, b.rowOf o k e sentence = .ok row → Q rows →
    Q fun k' => if k' = k then rows k ++ [row] else rows k'
  take : ∀ {rows}, Q rows → Q fun k' => if k' = k then [] else rows k'

/-- A record changes the overlay and the notes only. -/
theorem keeps_recordStep {P : Draft → Prop} (b : Builder) (e : Element)
    (h : ∀ d overlay notes, P d → P { d with overlay, notes }) : Keeps P (b.recordStep e) := by
  refine keeps_get.bind fun d _ => (keeps_of _).bind fun made _ => ?_
  refine Keeps.bind ?_ fun _ _ => keeps_pure _
  exact keeps_modify fun d hd => h d _ _ hd

theorem Stable.keeps_memberStep (h : b.Stable k Q) (e : Element) :
    Keeps (fun d => Q d.rows) (b.memberStep k e) := by
  have hrecord : Keeps (fun d => Q d.rows) (b.recordStep e) :=
    keeps_recordStep b e fun _ _ _ hd => hd
  refine hrecord.bind fun r _ => Keeps.bind ?_ fun _ _ => keeps_pure r
  refine keeps_get.bind fun d _ => (keeps_of _).bind fun row hrow => keeps_modify fun _ hd => ?_
  obtain ⟨_, _, hreturns⟩ := hrow
  exact h.put (returns_of_iff.mp hreturns).1 hd

theorem Stable.keeps_ownGroup (h : b.Stable k Q) : Keeps (fun d => Q d.rows) (b.ownGroup k) := by
  unfold ownGroup
  dsimp only
  split
  · exact keeps_pure []
  · refine (keeps_mapM fun e _ => h.keeps_memberStep e).bind fun records _ => ?_
    refine Keeps.bind ?_ fun text _ => keeps_pure _
    refine keeps_get.bind fun d _ => Keeps.bind ?_ fun _ _ => keeps_pure _
    exact keeps_modify fun _ hd => h.take hd

/-- After the own group, a section leaves the rows alone. -/
theorem keeps_addSection (hown : Keeps (fun d => Q d.rows) (b.ownGroup k)) (inherited : Bool) :
    Keeps (fun d => Q d.rows) (b.addSection k inherited) := by
  rw [addSection_eq]
  refine hown.bind fun own _ => Keeps.bind ?_ fun others _ => ?_
  · cases inherited with
    | false => exact keeps_pure []
    | true => exact keeps_of _
  · unfold addShown
    split
    · exact keeps_pure []
    · refine (keeps_of _).bind fun heading _ => Keeps.bind ?_ fun _ _ => keeps_pure _
      exact keeps_modify fun _ hd => hd

/-- The rows of other kinds are left alone. -/
theorem stable_of_ne (h : k' ≠ k) (rows : List Row) : b.Stable k fun waiting =>
    waiting k' = rows where
  put _ hrows := (if_neg h).trans hrows
  take hrows := (if_neg h).trans hrows

/-! ### Tables that are never finished -/

/-- Whether the row of a member is refused does not depend on the draft. -/
theorem total_memberStep_of_returns {r : Record} (h : (b.memberStep k e).Returns d r d') :
    Total (b.memberStep k e) := by
  obtain ⟨o, row, hsynth, hrow, -⟩ := returns_memberStep_iff.mp h
  obtain ⟨c, hcomment, -⟩ := synthesize_iff.mp hsynth
  obtain ⟨link, hlink, -⟩ := Refusal.bind_eq_ok.mp hrow
  obtain ⟨title, hname, -⟩ := Refusal.bind_eq_ok.mp hlink
  exact total_memberStep ⟨c, hcomment⟩ ⟨title, hname⟩

/-- A table that is finished once is finished from every draft. -/
theorem total_ownGroup_of_returns {shown : List Shown} (h : (b.ownGroup k).Returns d shown d') :
    Total (b.ownGroup k) := by
  refine total_ownGroup fun e he => ?_
  rcases returns_ownGroup_iff.mp h with ⟨hempty, -⟩ | ⟨-, records, d₁, hrecords, -⟩
  · rw [hempty] at he
    exact absurd he List.not_mem_nil
  · obtain ⟨_, _, _, hreturns⟩ := hrecords.exists_returns he
    exact total_memberStep_of_returns hreturns

theorem keeps_ownGroup_of_total (h : Total (b.ownGroup k)) :
    Keeps (fun d => d.rows k = []) (b.ownGroup k) := by
  intro d hrows
  obtain ⟨shown, d₁, hreturns⟩ := h d
  rw [after_of_returns hreturns]
  exact rows_self_of_ownGroup hreturns hrows

/-! ### Sequences of calls -/

/-- The drafts that calls of sections leave behind, in any order and refused or not, where no rows
waited at first. -/
inductive Called (b : Builder) : Draft → Prop
  | start {d : Draft} (rows : d.rows = fun _ => []) : Called b d
  | call {d : Draft} (k : Member.Kind) (inherited : Bool) (before : Called b d) :
      Called b ((b.addSection k inherited).after d)

/-- Rows wait only of kinds whose table is refused from some draft. -/
def Drained (b : Builder) (d : Draft) : Prop := ∀ k, Total (b.ownGroup k) → d.rows k = []

theorem keeps_drained (k : Member.Kind) (inherited : Bool) :
    Keeps b.Drained (b.addSection k inherited) := by
  intro d hd k' htotal
  by_cases hk : k' = k
  · subst hk
    exact keeps_addSection (Q := fun rows => rows k' = []) (keeps_ownGroup_of_total htotal)
      inherited d (hd k' htotal)
  · exact keeps_addSection (Q := fun rows => rows k' = []) (stable_of_ne hk []).keeps_ownGroup
      inherited d (hd k' htotal)

theorem Called.drained (h : b.Called d) : b.Drained d := by
  induction h with
  | start rows => exact fun k _ => congrFun rows k
  | call k inherited _ ih => exact keeps_drained k inherited _ ih

/-- What every call keeps of the waiting rows holds after any calls. -/
theorem Called.rows (hstable : ∀ k, b.Stable k Q) (hnone : Q fun _ => []) (h : b.Called d) :
    Q d.rows := by
  induction h with
  | start rows => exact rows ▸ hnone
  | call k inherited _ ih => exact keeps_addSection (hstable k).keeps_ownGroup inherited _ ih

/-! ### The table of a call -/

theorem heading_eq_ok_iff {lines : List String} : b.heading k = .ok lines ↔ ∃ title,
    b.message (k.key ++ "_summary") [] = .ok title ∧ lines = ["## " ++ title, ""] := by
  unfold heading
  rw [Refusal.bind_eq_ok]
  refine exists_congr fun title => and_congr_right fun _ => ?_
  rw [Refusal.pure_eq_ok, eq_comm]

/-- A call that returns shows the own members, if there are any, below the heading of the kind. -/
theorem text_of_addSection {inherited : Bool} {groups : List RowGroup}
    (h : (b.addSection k inherited).Returns d groups d') :
    ∃ lines, d'.tree = d.tree ++ lines ∧
      (b.members k = [] ∧ (∀ g ∈ groups, g.isInherited = true) ∨
        ∃ heading own text others rest d₁, b.heading k = .ok heading ∧ groups = own :: others ∧
          (b.ownGroup k).Returns d [(own, text)] d₁ ∧ d'.overlay = d₁.overlay ∧
          lines = heading ++ text :: "" :: rest ∧ ∀ g ∈ others, g.isInherited = true) := by
  obtain ⟨own, others, d₁, hown, hothers, hadd, hoverlay, -⟩ := own_of_addSection h
  have hinherited := isInherited_of_otherGroups hothers
  obtain ⟨htree, ⟨hempty, rfl⟩ | ⟨-, records, text, rfl⟩⟩ := of_returns_ownGroup hown
  · obtain ⟨rfl, lines, -, hlines⟩ := of_returns_addShown hadd
    exact ⟨lines, htree ▸ hlines, .inl ⟨hempty, hinherited⟩⟩
  · obtain ⟨rfl, ⟨hnil, -⟩ | ⟨-, heading, hheading, rfl⟩⟩ := returns_addShown_iff.mp hadd
    · exact absurd hnil (List.cons_ne_nil _ _)
    · refine ⟨_, by rw [← htree], .inr ⟨heading, _, text, others.map (·.1),
        others.flatMap (fun s => [s.2, ""]) ++ [""], d₁, hheading, rfl, hown, hoverlay, ?_,
        hinherited⟩⟩
      rw [List.append_assoc]
      rfl

variable {m : Model} {targets : Targets} {messages : Value} {rules : Table.Rules} {owner : Element}

/-- **No rows leak from one call into another.**  Whatever sections of a type have been called
before, and whether they were refused or not, a call that returns leaves no row of its kind waiting.
If the type shows members of the kind itself, the call adds a table below its heading.  The text of
the table has two lines more than there are members, and each of these lines is read as the row of a
member, in ascending order. -/
theorem own_rows_of_called (hb : ofType m targets messages rules owner = .ok b) (hd : b.Called d)
    {inherited : Bool} {groups : List RowGroup}
    (h : (b.addSection k inherited).Returns d groups d') :
    d'.rows k = [] ∧ ∃ lines, d'.tree = d.tree ++ lines ∧
      (b.table.visible k = [] ∧ (∀ g ∈ groups, g.isInherited = true) ∨
        ∃ title own text rows others rest, b.message (k.key ++ "_summary") [] = .ok title ∧
          groups = own :: others ∧ own.kind = k ∧ own.isInherited = false ∧
          own.members.Perm (b.table.visible k) ∧
          own.members.Pairwise (fun e e' => e.compare e' = .lt) ∧
          own.records.map (·.member) = own.members ∧
          List.Forall₂ (fun r row => b.IsRow k r.member (r.context d'.overlay) r.firstSentence row)
            own.records rows ∧
          text = Markdown.table k.headers rows ∧ Markdown.ReadsAs k.headers 0 rows text ∧
          (Text.lines text).length = 2 + own.members.length ∧
          lines = ("## " ++ title) :: "" :: text :: "" :: rest ∧
          ∀ g ∈ others, g.isInherited = true) := by
  have htotal : Total (b.ownGroup k) := by
    obtain ⟨own, others, d₁, hown, -⟩ := own_of_addSection h
    exact total_ownGroup_of_returns hown
  have hbefore : d.rows k = [] := hd.drained k htotal
  have hafter : d'.rows k = [] := by
    have hdrained := (hd.call k inherited).drained k htotal
    rwa [after_of_returns h] at hdrained
  have hr := reads_of_ofType hb
  have hperm := members_perm (k := k) hr
  obtain ⟨lines, htree, hshown⟩ := text_of_addSection h
  refine ⟨hafter, lines, htree, ?_⟩
  rcases hshown with ⟨hempty, hinherited⟩ |
    ⟨heading, own, text, others, rest, d₁, hheading, hgroups, hown, hoverlay, hlines, hinherited⟩
  · rw [hempty] at hperm
    exact .inl ⟨hperm.nil_eq.symm, hinherited⟩
  · obtain ⟨title, htitle, rfl⟩ := heading_eq_ok_iff.mp hheading
    obtain ⟨hkind, hnot, hmembers, hrecords, rows, hrows, htext, hread⟩ :=
      isTable_of_ownGroup hr hown _ (List.mem_singleton_self _)
    rw [hbefore] at htext hread
    have hlength : rows.length = own.members.length := by
      rw [← hrows.length_eq, ← hrecords, List.length_map]
    refine .inr ⟨title, own, text, rows, others, rest, htitle, hgroups, hkind, hnot, ?_, ?_, hrecords,
      hoverlay ▸ hrows, htext, hread, ?_, hlines, hinherited⟩
    · rw [hmembers]
      exact hperm
    · rw [hmembers]
      exact Element.sorted_ascending _
    · rw [hread.length_lines, hlength, List.length_nil, Nat.zero_add]

/-! ### Rows that are left -/

theorem not_returns_recordStep (h : ¬∃ c, b.commentFor e = .ok c) :
    ¬∃ r d', (b.recordStep e).Returns d r d' := by
  rintro ⟨r, d', hreturns⟩
  obtain ⟨o, hsynth, -⟩ := returns_recordStep_iff.mp hreturns
  obtain ⟨c, hcomment, -⟩ := synthesize_iff.mp hsynth
  exact h ⟨c, hcomment⟩

theorem not_returns_memberStep (h : ¬∃ c, b.commentFor e = .ok c) :
    ¬∃ r d', (b.memberStep k e).Returns d r d' := by
  rintro ⟨r, d', hreturns⟩
  obtain ⟨r', d₁, hrecord, -⟩ := returns_bind_iff.mp hreturns
  exact not_returns_recordStep h ⟨r', d₁, hrecord⟩

/-- A call that is refused at the comment of the second member leaves the row of the first one. -/
theorem row_left_of_refused {e' : Element} {es : List Element}
    (hmembers : b.members k = e :: e' :: es) (he : Total (b.memberStep k e))
    (he' : ¬∃ c, b.commentFor e' = .ok c) (hd : d.rows k = []) (inherited : Bool) :
    ∃ row, ((b.addSection k inherited).after d).rows k = [row] := by
  obtain ⟨r, d₁, hfirst⟩ := he d
  obtain ⟨o, row, -, -, hd₁⟩ := returns_memberStep_iff.mp hfirst
  have hrow : d₁.rows k = [row] := by
    rw [hd₁]
    exact (if_pos rfl).trans (by rw [hd, List.nil_append])
  have hsecond : ∀ d, ¬∃ r d', (b.memberStep k e').Returns d r d' :=
    fun d => not_returns_memberStep he'
  have hall : ¬∃ records d', ((b.members k).mapM (b.memberStep k)).Returns d records d' :=
    not_returns_mapM (by rw [hmembers]; simp) hsecond
  have hrest : ¬∃ records d', ((e' :: es).mapM (b.memberStep k)).Returns d₁ records d' :=
    not_returns_mapM List.mem_cons_self hsecond
  have hown : ¬∃ shown d', (b.ownGroup k).Returns d shown d' := by
    rintro ⟨shown, d', hreturns⟩
    rcases returns_ownGroup_iff.mp hreturns with ⟨hnil, -⟩ | ⟨-, records, d₂, hrecords, -⟩
    · rw [hmembers] at hnil
      cases hnil
    · exact hall ⟨records, d₂, returns_mapM_iff.mpr hrecords⟩
  -- The call ends where the record of the second member is refused.
  have hend : (b.addSection k inherited).after d = (b.recordStep e').after d₁ := by
    have hne : (b.members k).isEmpty = false := by rw [hmembers]; rfl
    rw [addSection_eq, after_bind_of_refused hown, ownGroup]
    simp only [hne, Bool.false_eq_true, if_false]
    rw [after_bind_of_refused hall, hmembers, List.mapM_cons, after_bind_of_returns hfirst,
      after_bind_of_refused hrest, List.mapM_cons,
      after_bind_of_refused (not_returns_memberStep he'), memberStep,
      after_bind_of_refused (not_returns_recordStep he')]
  rw [hend]
  have hkeeps : Keeps (fun d => d.rows k = [row]) (b.recordStep e') :=
    keeps_recordStep b e' fun _ _ _ hd => hd
  exact ⟨row, hkeeps d₁ hrow⟩

/-! On a page of dials the message for getters asks for more than it is given, so the methods of a
dial are refused behind the row of the first one.  The properties are shown all the same. -/

/-- The builder of dials, with a message that cannot be formatted. -/
def jammedBuilder : Builder :=
  { dialBuilder "protected" with
    messages := Config.named [("property_getter_with_name", .text "Gets \x7b1\x7d."),
      ("properties_summary", .text "Properties"), ("methods_summary", .text "Methods")] }

theorem commentFor_jammed_getAngle : ¬∃ c, jammedBuilder.commentFor getAngle = .ok c := by
  have hsource : jammedBuilder.sources.find? getAngle.uid = some angle := rfl
  have hrole : jammedBuilder.naming.role getAngle = .ok .getter := by cbv
  have hname : jammedBuilder.naming.propertyName getAngle = .ok "angle" := by cbv
  have hmessage : (jammedBuilder.message "property_getter_with_name" ["angle"]).toOption =
      none := by decide +kernel
  rintro ⟨c, hc⟩
  obtain ⟨w, hw, -⟩ := (commentFor_of_source hsource).mp hc
  obtain ⟨role, hrole', hw⟩ := Refusal.bind_eq_ok.mp hw
  obtain rfl := Except.ok.inj (hrole.symm.trans hrole')
  obtain ⟨name, hname', hw⟩ := Refusal.bind_eq_ok.mp hw
  obtain rfl := Except.ok.inj (hname.symm.trans hname')
  obtain ⟨sentence, hsentence, -⟩ := Refusal.bind_eq_ok.mp hw
  rw [hsentence] at hmessage
  cases hmessage

theorem commentFor_jammed_angle : ∃ c, jammedBuilder.commentFor angle = .ok c := by
  have hsource : jammedBuilder.sources.find? angle.uid = some angle := rfl
  have hrole : jammedBuilder.naming.role angle = .ok .property := by cbv
  have htags : jammedBuilder.accessorTags angle = .ok [getterTag getAngle] := rfl
  exact ⟨_, (commentFor_of_source hsource).mpr
    ⟨_, Refusal.bind_eq_ok.mpr ⟨_, hrole, Refusal.bind_eq_ok.mpr ⟨_, htags, rfl⟩⟩, rfl⟩⟩

theorem own_rows_of_called_dial :
    ofType (dials "protected") [] jammedBuilder.messages ⟨.standard, true⟩ dial =
        .ok jammedBuilder ∧
      ∃ d lost groups d', jammedBuilder.Called d ∧ d.rows .methods = [lost] ∧
        (jammedBuilder.addSection .properties true).Returns d groups d' ∧
        d'.rows .properties = [] ∧ ∃ text rest sentence,
          d'.tree = d.tree ++ "## Properties" :: "" :: text :: "" :: rest ∧
          (Text.lines text).length = 3 ∧
          ((Text.lines text).drop 2).map Markdown.readRow =
            [["", "[angle](#angleproperty)", sentence]] := by
  have hb : ofType (dials "protected") [] jammedBuilder.messages ⟨.standard, true⟩ dial =
      .ok jammedBuilder := by cbv
  have hmethods : jammedBuilder.members .methods = [aim, getAngle, turn] := by
    have hall : (jammedBuilder.table.visible .methods).Perm [aim, getAngle, turn] := by
      decide +kernel
    exact Element.eq_of_ascending ((members_perm (reads_of_ofType hb)).trans hall)
      (Element.sorted_ascending _) (by decide +kernel)
  have hvisible : jammedBuilder.table.visible .properties = [angle] := by decide +kernel
  have hmessage : jammedBuilder.message "properties_summary" [] = .ok "Properties" := by
    rw [← Refusal.toOption_eq_some_iff]
    decide +kernel
  have haim : Total (jammedBuilder.memberStep .methods aim) :=
    total_memberStep ⟨none, rfl⟩ ⟨"aim", rfl⟩
  obtain ⟨lost, hlost⟩ := row_left_of_refused (d := {}) hmethods haim commentFor_jammed_getAngle rfl
    true
  have hcalled := (Called.start (b := jammedBuilder) (d := {}) rfl).call .methods true
  have hproperties : jammedBuilder.Writable .properties := by
    refine ⟨⟨_, heading_eq_ok_iff.mpr ⟨_, hmessage, rfl⟩⟩, fun _ => ⟨[], rfl⟩, fun e he => ?_,
      fun e he => ⟨_, rfl⟩⟩
    rw [(members_perm (reads_of_ofType hb)).mem_iff, hvisible, List.mem_singleton] at he
    rw [he]
    exact commentFor_jammed_angle
  obtain ⟨groups, d', hreturns⟩ := total_addSection hproperties _
  obtain ⟨hrows, lines, htree, hshown⟩ := own_rows_of_called hb hcalled hreturns
  rcases hshown with ⟨hnone, -⟩ |
    ⟨title, own, text, rows, others, rest, htitle, -, -, -, hperm, -, hrecords, hall, -, hread,
      hlength, rfl, -⟩
  · rw [hvisible] at hnone
    cases hnone
  · obtain rfl := Except.ok.inj (hmessage.symm.trans htitle)
    rw [hvisible, List.perm_singleton] at hperm
    rw [hperm] at hlength hrecords
    obtain ⟨r, hr, hmember⟩ := List.map_eq_singleton_iff.mp hrecords
    rw [hr] at hall
    have hcells := hread.map_readRow
    cases hall with
    | cons head tail =>
        cases tail
        obtain ⟨base, hbase, rfl⟩ := head
        rw [IsTitle, if_pos rfl, hmember] at hbase
        obtain rfl : base = "angle" := (Except.ok.inj hbase).symm
        have htype : Text.collapse (typeText angle) = "" := by decide +kernel
        have hlink : Text.collapse ("[" ++ "angle" ++ "](#" ++ Anchor.ofMember angle ++ ")" ++
            callText .properties angle) = "[angle](#angleproperty)" := by decide +kernel
        refine ⟨hb, _, lost, groups, d', hcalled, hlost, hreturns, hrows, text, rest,
          Text.collapse (Inline.markdown jammedBuilder.model jammedBuilder.targets
            (jammedBuilder.model.enclosing? (r.context d'.overlay)) r.firstSentence), htree, hlength,
          hcells.trans ?_⟩
        have hcolumns : Member.Kind.properties.headers.length = 3 := rfl
        rw [List.map_singleton, if_pos hcolumns, hmember]
        simp only [List.singleton_append, List.map_cons, List.map_nil, htype, hlink]

end Builder

end TypePages
