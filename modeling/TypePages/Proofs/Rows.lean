import TypePages.Proofs.Groups
import TypePages.Proofs.TableText
import TypePages.Proofs.Writing

/-!
What the table of own members says.

A row is spelled out here cell by cell: the modifiers and the type, the link to the member's details,
and a sentence (`IsRow`).  `IsTable` then speaks of the text that is written, which is read as rows of
this form, one for each record.

A sentence that was borrowed is read where it comes from, and a row finds this out from the overlay
when it is written.  The overlay of the finished page says the same: what is written afterwards for
other members, and for members of other kinds, notes no donor for this one (`Spares`).
-/

namespace TypePages

/-- The element in whose type the first sentence of a record is read: the donor that is noted for
its member, or the member. -/
def Record.context (r : Record) (o : Overlay) : Element := (o.donor? r.member).getD r.member

theorem Record.context_congr {r : Record} {o o' : Overlay}
    (h : o'.donors r.member.uid = o.donors r.member.uid) : r.context o' = r.context o := by
  rw [context, context, Overlay.donor?, Overlay.donor?, h]

namespace Builder

open Work

variable {b : Builder} {k k' : Member.Kind} {e context : Element} {o : Overlay} {r : Record}
  {sentence : String} {row : Row} {d d' : Draft}

/-! ### Cells -/

/-- The shown modifiers and the type of a member, as code. -/
def typeText (e : Element) : String :=
  let words := ["static", "abstract", "final", "default"].filter e.modifiers.contains ++
    if e.isType then [e.kind.name] else e.returnType.toList
  if words = [] then "" else "`" ++ " ".intercalate words ++ "`"

/-- The parameters of a call behind its name; a property is shown without any. -/
def callText (k : Member.Kind) (e : Element) : String :=
  if e.isExecutable ∧ k ≠ .properties then
    "(" ++ ", ".intercalate (e.parameters.map fun p => Text.trim (p.type ++ " " ++ p.name)) ++ ")"
  else ""

/-- The title of a member: a property method is called as its property. -/
def IsTitle (b : Builder) (k : Member.Kind) (e : Element) (title : String) : Prop :=
  if k = .properties then b.naming.baseName e = .ok title else title = e.name

/-- The cells of the row that shows a member with a sentence. -/
def IsRow (b : Builder) (k : Member.Kind) (e context : Element) (sentence : String) (row : Row) :
    Prop :=
  ∃ title, b.IsTitle k e title ∧ row = (if k.headers.length = 3 then [typeText e] else []) ++
    ["[" ++ title ++ "](#" ++ Anchor.ofMember e ++ ")" ++ callText k e,
      Inline.markdown b.model b.targets (b.model.enclosing? context) sentence]

theorem typeColumn_eq (e : Element) : typeColumn e = typeText e := by
  unfold typeColumn typeText
  dsimp only
  rw [shownModifiers]
  split
  next hnil => rw [hnil, if_pos rfl]
  next hne => rw [if_neg hne, code, Text.join_eq]

theorem isTitle_iff {title : String} : b.displayName k e = .ok title ↔ b.IsTitle k e title := by
  unfold displayName IsTitle
  split
  · rfl
  · rw [Except.ok.injEq, eq_comm]

/-- A link to an anchor of the page that it stands on. -/
theorem link_anchor (title anchor : String) :
    link title ("#" ++ anchor) = "[" ++ title ++ "](#" ++ anchor ++ ")" := by
  have hopen : "](#" = "](" ++ "#" := rfl
  simp only [link, hopen, String.append_assoc]

theorem memberLink_eq_ok_iff {text : String} : b.memberLink k e = .ok text ↔ ∃ title,
    b.IsTitle k e title ∧ text = "[" ++ title ++ "](#" ++ Anchor.ofMember e ++ ")" ++ callText k e := by
  unfold memberLink
  rw [Refusal.bind_eq_ok]
  refine exists_congr fun title => and_congr isTitle_iff ?_
  rw [Refusal.pure_eq_ok, eq_comm, link_anchor, callText, parameterList, Text.join_eq]
  by_cases hcall : e.isExecutable = true ∧ k ≠ .properties
  · simp only [if_pos hcall, String.append_assoc]
  · simp only [if_neg hcall, String.append_empty]

/-- A row is spelled out in the context that the overlay gives its member. -/
theorem isRow_of_rowOf (h : b.rowOf o k e sentence = .ok row) :
    b.IsRow k e ((o.donor? e).getD e) sentence row := by
  obtain ⟨text, htext, h₁⟩ := Refusal.bind_eq_ok.mp h
  obtain ⟨title, htitle, rfl⟩ := memberLink_eq_ok_iff.mp htext
  rw [Refusal.pure_eq_ok] at h₁
  refine ⟨title, htitle, ?_⟩
  rw [← h₁, typeColumn_eq]
  simp only [Member.Kind.hasTypeColumn, beq_iff_eq]

theorem IsRow.length_eq (h : b.IsRow k e context sentence row) :
    row.length = k.headers.length := by
  obtain ⟨title, -, rfl⟩ := h
  cases k <;> rfl

/-! ### What is left alone -/

/-- What a step for some members of a kind leaves alone: the rows of other kinds, and the donors of
all other elements. -/
structure Spares (k : Member.Kind) (es : List Element) (d d' : Draft) : Prop where
  rows : ∀ k', k' ≠ k → d'.rows k' = d.rows k'
  donors : ∀ uid, (∀ e ∈ es, e.uid ≠ uid) → d'.overlay.donors uid = d.overlay.donors uid

theorem spares_refl (k : Member.Kind) (es : List Element) (d : Draft) : Spares k es d d :=
  ⟨fun _ _ => rfl, fun _ _ => rfl⟩

theorem member_of_memberStep (h : (b.memberStep k e).Returns d r d') : r.member = e := by
  obtain ⟨o, row, hsynth, -, -⟩ := returns_memberStep_iff.mp h
  obtain ⟨c, -, rfl, -⟩ := synthesize_iff.mp hsynth
  rfl

theorem spares_of_memberStep (h : (b.memberStep k e).Returns d r d') : Spares k [e] d d' := by
  obtain ⟨o, row, hsynth, -, rfl⟩ := returns_memberStep_iff.mp h
  obtain ⟨c, -, -, rfl⟩ := synthesize_iff.mp hsynth
  refine ⟨fun k' hne => if_neg hne, fun uid hne => ?_⟩
  have huid : uid ≠ e.uid := (hne e (List.mem_singleton_self e)).symm
  exact (Overlay.donors_lend_of_ne huid _).trans (congrFun Overlay.donors_write uid)

theorem spares_of_memberSteps {es : List Element} {records : List Record}
    (h : Each (b.memberStep k) es d records d') : Spares k es d d' := by
  induction h with
  | nil => exact spares_refl k [] _
  | cons head _ ih =>
      have hhead := spares_of_memberStep head
      refine ⟨fun k' hne => (ih.rows k' hne).trans (hhead.rows k' hne), fun uid hne => ?_⟩
      rw [List.forall_mem_cons] at hne
      exact (ih.donors uid hne.2).trans (hhead.donors uid (List.forall_mem_singleton.mpr hne.1))

theorem spares_of_ownGroup {shown : List Shown} (h : (b.ownGroup k).Returns d shown d') :
    Spares k (b.members k) d d' := by
  rcases returns_ownGroup_iff.mp h with ⟨-, -, rfl⟩ | ⟨-, records, d₁, hrecords, -, rfl⟩
  · exact spares_refl k _ _
  · have hsteps := spares_of_memberSteps hrecords
    exact ⟨fun k' hne => (if_neg hne).trans (hsteps.rows k' hne), hsteps.donors⟩

/-- A finished table has taken the rows of its kind. -/
theorem rows_self_of_ownGroup {shown : List Shown} (h : (b.ownGroup k).Returns d shown d')
    (hrows : d.rows k = []) : d'.rows k = [] := by
  rcases returns_ownGroup_iff.mp h with ⟨-, -, rfl⟩ | ⟨-, records, d₁, -, -, rfl⟩
  · exact hrows
  · exact if_pos rfl

/-- The lines of a section are added to the page, and nothing else is changed. -/
theorem kept_of_addShown {shown : List Shown} {groups : List RowGroup}
    (h : (b.addShown k shown).Returns d groups d') :
    d'.overlay = d.overlay ∧ d'.rows = d.rows := by
  obtain ⟨-, ⟨-, rfl⟩ | ⟨-, heading, -, rfl⟩⟩ := returns_addShown_iff.mp h
  · exact ⟨rfl, rfl⟩
  · exact ⟨rfl, rfl⟩

/-- After its own group, a section changes the page only. -/
theorem own_of_addSection {inherited : Bool} {groups : List RowGroup}
    (h : (b.addSection k inherited).Returns d groups d') : ∃ own others d₁,
      (b.ownGroup k).Returns d own d₁ ∧ (b.otherGroups k inherited).Returns d₁ others d₁ ∧
        (b.addShown k (own ++ others)).Returns d₁ groups d' ∧
          d'.overlay = d₁.overlay ∧ d'.rows = d₁.rows := by
  rw [addSection_eq] at h
  obtain ⟨own, d₁, hown, h₁⟩ := returns_bind_iff.mp h
  obtain ⟨others, d₂, hothers, h₂⟩ := returns_bind_iff.mp h₁
  obtain ⟨rfl, -⟩ := of_returns_otherGroups hothers
  exact ⟨own, others, d₂, hown, hothers, h₂, kept_of_addShown h₂⟩

theorem spares_of_addSection {inherited : Bool} {groups : List RowGroup}
    (h : (b.addSection k inherited).Returns d groups d') : Spares k (b.members k) d d' := by
  obtain ⟨own, others, d₁, hown, -, -, hoverlay, hrows⟩ := own_of_addSection h
  have hspares := spares_of_ownGroup hown
  exact ⟨hrows ▸ hspares.rows, hoverlay ▸ hspares.donors⟩

/-- Sections of some kinds leave the donors of all elements alone that they have no row for. -/
theorem donors_of_each {show? : Member.Kind → Bool} {ks : List Member.Kind}
    {found : List (List RowGroup)} (h : Each (fun k => b.addSection k (show? k)) ks d found d')
    {uid : String} (hne : ∀ e ∈ ks.flatMap b.members, e.uid ≠ uid) :
    d'.overlay.donors uid = d.overlay.donors uid := by
  induction h with
  | nil => rfl
  | cons head _ ih =>
      rw [List.flatMap_cons, List.forall_mem_append] at hne
      exact (ih hne.2).trans ((spares_of_addSection head).donors uid hne.1)

/-! ### Rows of members -/

/-- The step for a member puts its row with those that wait. -/
theorem row_of_memberStep (h : (b.memberStep k e).Returns d r d') : ∃ row,
    b.IsRow k r.member (r.context d'.overlay) r.firstSentence row ∧ d'.rows k = d.rows k ++ [row] := by
  have hmember := member_of_memberStep h
  obtain ⟨o, row, -, hrow, rfl⟩ := returns_memberStep_iff.mp h
  subst hmember
  exact ⟨row, isRow_of_rowOf hrow, if_pos rfl⟩

/-- The rows of members wait behind those that waited before, each with what its record says. -/
theorem rows_of_memberSteps {es : List Element} {records : List Record}
    (h : Each (b.memberStep k) es d records d') (hnodup : (es.map (·.uid)).Nodup) :
    records.map (·.member) = es ∧ ∃ rows, d'.rows k = d.rows k ++ rows ∧
      List.Forall₂ (fun r row => b.IsRow k r.member (r.context d'.overlay) r.firstSentence row)
        records rows := by
  induction h with
  | nil => exact ⟨rfl, [], (List.append_nil _).symm, .nil⟩
  | @cons e es r records d d₁ d' head tail ih =>
      rw [List.map_cons, List.nodup_cons] at hnodup
      obtain rfl := member_of_memberStep head
      obtain ⟨row, hrow, hrows₁⟩ := row_of_memberStep head
      obtain ⟨hmembers, rows, hrows, hall⟩ := ih hnodup.2
      -- No later member has the uid of this one, so its donor is still the one of its own step.
      have hdonor : d'.overlay.donors r.member.uid = d₁.overlay.donors r.member.uid :=
        (spares_of_memberSteps tail).donors _ fun x hx huid =>
          hnodup.1 (huid ▸ List.mem_map_of_mem hx)
      refine ⟨by rw [List.map_cons, hmembers], row :: rows, ?_, .cons ?_ hall⟩
      · rw [hrows, hrows₁, List.append_assoc, List.singleton_append]
      · rwa [Record.context_congr hdonor]

theorem length_rows_of_memberSteps {es : List Element} {records : List Record}
    (h : Each (b.memberStep k) es d records d') :
    (d'.rows k).length = (d.rows k).length + es.length := by
  induction h with
  | nil => rfl
  | cons head _ ih =>
      obtain ⟨row, -, hrows⟩ := row_of_memberStep head
      rw [ih, hrows, List.length_append, List.length_singleton, List.length_cons]
      omega

/-! ### The text of a table -/

/-- A text is the table of some records, behind rows that waited before. -/
def IsTable (b : Builder) (k : Member.Kind) (context : Record → Element) (waiting : List Row)
    (records : List Record) (text : String) : Prop :=
  ∃ rows, List.Forall₂ (fun r row => b.IsRow k r.member (context r) r.firstSentence row)
      records rows ∧
    text = Markdown.table k.headers (waiting ++ rows) ∧
    Markdown.ReadsAs k.headers waiting.length rows text

theorem IsTable.congr {context context' : Record → Element} {waiting : List Row}
    {records : List Record} {text : String} (h : b.IsTable k context waiting records text)
    (hcontext : ∀ r ∈ records, context' r = context r) :
    b.IsTable k context' waiting records text := by
  obtain ⟨rows, hrows, htext⟩ := h
  refine ⟨rows, ?_, htext⟩
  refine ((List.forall₂_and_left records rows).mpr ⟨hcontext, hrows⟩).imp ?_
  rintro r row ⟨heq, hrow⟩
  rwa [heq]

/-- A record has one of the rows. -/
theorem exists_row_of_mem {context : Record → Element} {records : List Record} {rows : List Row}
    (h : List.Forall₂ (fun r row => b.IsRow k r.member (context r) r.firstSentence row) records rows)
    (hr : r ∈ records) : ∃ row ∈ rows, b.IsRow k r.member (context r) r.firstSentence row := by
  induction h with
  | nil => exact absurd hr List.not_mem_nil
  | cons head _ ih =>
      rcases List.mem_cons.mp hr with rfl | hr
      · exact ⟨_, List.mem_cons_self, head⟩
      · obtain ⟨row, hmem, hrow⟩ := ih hr
        exact ⟨row, List.mem_cons_of_mem _ hmem, hrow⟩

/-- In a table each record has a line that links its member's details. -/
theorem IsTable.exists_line {context : Record → Element} {waiting : List Row}
    {records : List Record} {text : String} (h : b.IsTable k context waiting records text)
    (hr : r ∈ records) : ∃ title, b.IsTitle k r.member title ∧ ∃ line ∈ Text.lines text,
      Text.collapse ("[" ++ title ++ "](#" ++ Anchor.ofMember r.member ++ ")" ++
        callText k r.member) ∈ Markdown.readRow line := by
  obtain ⟨rows, hrows, -, before, lines, htext, -, hread⟩ := h
  obtain ⟨row, hmem, title, htitle, rfl⟩ := exists_row_of_mem hrows hr
  have hline := List.mem_map_of_mem (f := List.map Text.collapse) hmem
  rw [← hread] at hline
  obtain ⟨line, hmemline, hcells⟩ := List.mem_map.mp hline
  refine ⟨title, htitle, line, ?_, ?_⟩
  · rw [htext]
    exact List.mem_cons_of_mem _ (List.mem_cons_of_mem _ (List.mem_append_right _ hmemline))
  · rw [hcells]
    exact List.mem_map_of_mem (List.mem_append_right _ List.mem_cons_self)

variable {rules : Table.Rules} {m : Model}

/-- The members that a type shows, one kind after the other, have distinct uids. -/
theorem nodup_members (hr : Table.Reads rules m b.owner b.table) {ks : List Member.Kind}
    (hks : ks.Nodup) : ((ks.flatMap b.members).map (·.uid)).Nodup := by
  have hdeclared : ∀ k, ∀ e ∈ b.members k, e ∈ Table.declared rules m k b.owner := fun k e he =>
    (hr.mem_visible_iff.mp ((members_perm hr).mem_iff.mp he)).1
  rw [List.map_flatMap, List.nodup_flatMap]
  constructor
  · intro k _
    rw [((members_perm hr).map _).nodup_iff]
    exact (hr.nodup_allVisible k).sublist ((List.sublist_append_left _ _).map _)
  · refine hks.imp fun {k k'} hne uid huid huid' => hne ?_
    obtain ⟨e, he, rfl⟩ := List.mem_map.mp huid
    obtain ⟨e', he', heq⟩ := List.mem_map.mp huid'
    have hmem := (Model.mem_membersOf_iff.mp (Table.mem_declared_iff.mp (hdeclared k e he)).1).1
    have hmem' := (Model.mem_membersOf_iff.mp (Table.mem_declared_iff.mp (hdeclared k' e' he')).1).1
    rw [Catalog.eq_of_uid_eq hmem' hmem heq] at he'
    exact Table.eq_of_mem_declared (hdeclared k e he) (hdeclared k' e he')

/-- Rows of members have a cell for each header. -/
theorem length_of_forall₂ {context : Record → Element} {records : List Record} {rows : List Row}
    (h : List.Forall₂ (fun r row => b.IsRow k r.member (context r) r.firstSentence row) records
      rows) : ∀ row ∈ rows, row.length = k.headers.length := by
  induction h with
  | nil => simp
  | cons head _ ih => exact List.forall_mem_cons.mpr ⟨IsRow.length_eq head, ih⟩

/-- Sections of other kinds leave the donors of the members of a kind alone. -/
theorem donors_of_each_members (hr : Table.Reads rules m b.owner b.table)
    {show? : Member.Kind → Bool} {ks : List Member.Kind} {found : List (List RowGroup)}
    (hnodup : (k :: ks).Nodup) (h : Each (fun k => b.addSection k (show? k)) ks d found d') :
    ∀ e ∈ b.members k, d'.overlay.donors e.uid = d.overlay.donors e.uid := by
  intro e he
  have hapart := nodup_members hr hnodup
  rw [List.flatMap_cons, List.map_append, List.nodup_append] at hapart
  exact donors_of_each h fun x hx huid =>
    hapart.2.2 _ (List.mem_map_of_mem he) _ (List.mem_map_of_mem hx) huid.symm

/-- The group of own members is shown by the table of their records. -/
theorem isTable_of_ownGroup (hr : Table.Reads rules m b.owner b.table) {shown : List Shown}
    (h : (b.ownGroup k).Returns d shown d') : ∀ s ∈ shown, s.1.kind = k ∧ s.1.isInherited = false ∧
      s.1.members = b.members k ∧ s.1.records.map (·.member) = s.1.members ∧
      b.IsTable k (·.context d'.overlay) (d.rows k) s.1.records s.2 := by
  rcases returns_ownGroup_iff.mp h with ⟨-, rfl, -⟩ | ⟨hne, records, d₁, hrecords, rfl, rfl⟩
  · exact fun s hs => absurd hs List.not_mem_nil
  · intro s hs
    obtain ⟨hmembers, rows, hrows, hall⟩ :=
      rows_of_memberSteps hrecords (by simpa using nodup_members hr (List.nodup_singleton k))
    rw [List.mem_singleton.mp hs]
    refine ⟨rfl, rfl, rfl, hmembers, rows, hall, by rw [hrows], ?_⟩
    rw [hrows]
    refine Markdown.readsAs_table k.isLine_headers ?_ fun row hrow => ?_
    · have hlength := hall.length_eq
      rw [← List.length_map (·.member), hmembers] at hlength
      exact List.append_ne_nil_of_right_ne_nil _ fun hnil => hne (by simpa [hnil] using hlength)
    · rw [← List.length_pos_iff_ne_nil, length_of_forall₂ hall row hrow, k.length_headers]
      split <;> decide

end Builder

end TypePages
