import TypePages.Page.Basic
import TypePages.Proofs.Records

/-!
The details of a page tell what its summary has told.

The summary is written from records, row by row, and the details are written from the overlay when
all rows are there.  What the overlay holds then of a member is its record (`Builder.Holds`), so the
two agree: on the text of the member, on the method it was borrowed from, on the type in whose
context links are read, and on the tags.  `Builder.retold` spells the lines out that a record gives.
A text borrowed from a member of the same type is left out, because the donor may have been given
another text after it was borrowed.

The details go through the members as the summary does, so there is a block of lines for each record
of the own groups, in the same order.
-/

namespace TypePages

namespace Overlay

theorem body_eq_getD (o : Overlay) (e : Element) :
    o.body e = ((o.comment? e).getD .empty).body := by
  unfold body
  cases o.comment? e <;> rfl

theorem tags_eq_getD (o : Overlay) (e : Element) :
    ((o.comment? e).map (·.tags)).getD [] = ((o.comment? e).getD .empty).tags := by
  cases o.comment? e <;> rfl

end Overlay

namespace Work

theorem returns_discard {α : Type} {w : Work α} {a : α} {d d' : Draft} (h : w.Returns d a d') :
    (discard w).Returns d ⟨⟩ d' := by
  rw [discard, map_const, Function.comp_apply, map_eq_pure_bind]
  exact returns_bind_iff.mpr ⟨a, d', h, returns_pure_iff.mpr ⟨rfl, rfl⟩⟩

end Work

/-- The text that a record comes down to: its body, or else that of its donor. -/
def Record.text (r : Record) : String :=
  if r.body = "" then (r.donor.map fun donor => Overlay.body {} donor).getD "" else r.body

namespace Builder

open Work

variable {b : Builder} {m : Model} {targets : Targets} {messages : Value} {rules : Table.Rules}
  {owner e : Element} {o : Overlay} {r : Record} {records : List Record} {k : Member.Kind}
  {d d' : Draft} {groups : List RowGroup}

/-! ### Lines of a member -/

/-- A member as the heading of its details: its name, and its parameter types if it is called. -/
def headingText (e : Element) : String :=
  "### " ++ e.name ++
    if e.isExecutable then "(" ++ ", ".intercalate (e.parameters.map (·.type)) ++ ")" else ""

/-- A type of which only the uid may be known: a link to its page, or else its name as code. -/
def nameText (b : Builder) (uid : String) : String :=
  match b.targets.find? uid with
  | some t => "[" ++ t.title ++ "](" ++ t.page ++ ")"
  | none => "`" ++ ((b.model.find? uid).map (·.name)).getD ((Text.splitAt '.' uid).getLastD "") ++ "`"

/-- The line of a block tag: behind its label stands what it says or, for a reference, where it
leads.  Other tags and those without a text have none. -/
def tagText? (b : Builder) (e : Element) (tag : Tag) : Option String :=
  let text := Inline.markdown b.model b.targets (b.model.enclosing? e) tag.text
  let reference := match tag.reference.bind b.targets.find? with
    | some t => "[" ++ tag.text ++ "](" ++ t.page ++ ")"
    | none => "`" ++ tag.text ++ "`"
  if tag.text = "" then none
  else if tag.name = "propertyDescription" then some ("**Property description:** " ++ text)
  else if tag.name = "defaultValue" then some ("**Default value:** " ++ text)
  else if tag.name = "since" then some ("**Since:** " ++ text)
  else if tag.name = "see" then some ("**See also:** " ++ reference)
  else none

/-- The lines on a member that its record gives, each with an empty one after it: the heading, a note
on the donor if there is one, the text in the context of the type that encloses the donor or else the
member, and the tags. -/
def retold (b : Builder) (r : Record) : List String :=
  let text := Inline.markdown b.model b.targets (b.model.enclosing? (teller r)) r.text
  let note := r.donor.map fun donor =>
    "*Description copied from " ++ b.nameText (donor.parent.getD "") ++ "*"
  (headingText r.member :: (note.toList ++ (if text = "" then [] else [text]) ++
    r.tags.filterMap (b.tagText? r.member))).flatMap fun line => [line, ""]

theorem detailHeading_eq (e : Element) : detailHeading e = headingText e := by
  unfold detailHeading headingText Element.signature Element.parameterTypes
  rw [Text.join_eq]

theorem borrowedNote_eq (b : Builder) (donor : Element) : b.borrowedNote donor =
    "*Description copied from " ++ b.nameText (donor.parent.getD "") ++ "*" := by
  unfold borrowedNote typeLink nameText
  cases b.targets.find? (donor.parent.getD "") <;> rfl

theorem lookup_tagLabels (name : String) : tagLabels.lookup name =
    if name = "propertyDescription" then some "Property description"
    else if name = "defaultValue" then some "Default value"
    else if name = "since" then some "Since"
    else if name = "see" then some "See also"
    else none := by
  by_cases hdescription : name = "propertyDescription"
  · subst hdescription
    rfl
  by_cases hdefault : name = "defaultValue"
  · subst hdefault
    rfl
  by_cases hsince : name = "since"
  · subst hsince
    rfl
  by_cases hsee : name = "see"
  · subst hsee
    rfl
  · rw [if_neg hdescription, if_neg hdefault, if_neg hsince, if_neg hsee, tagLabels]
    simp only [List.lookup_cons, List.lookup_nil, beq_false_of_ne, ne_eq, hdescription, hdefault,
      hsince, hsee, not_false_eq_true]

theorem tagLine?_eq (b : Builder) (e : Element) (tag : Tag) :
    b.tagLine? e tag = b.tagText? e tag := by
  unfold tagLine? tagText?
  rw [lookup_tagLabels]
  by_cases htext : tag.text = ""
  · split_ifs <;> simp [htext, guard]
  · by_cases hsee : tag.name = "see"
    · cases tag.reference.bind b.targets.find? <;> simp [htext, guard, hsee, link, code]
    · simp only [if_neg hsee, if_neg htext]
      split_ifs
      · simp [htext, guard]
      · simp [htext, guard]
      · simp [htext, guard]
      · rfl

/-- The lines on a member begin with its heading. -/
theorem memberDetails_eq (b : Builder) (o : Overlay) (e : Element) :
    ∃ rest, b.memberDetails o e = headingText e :: "" :: rest := by
  rw [← detailHeading_eq]
  exact ⟨_, rfl⟩

/-- A record borrows from no member of its own type. -/
def BorrowsElsewhere (b : Builder) (r : Record) : Prop :=
  ∀ donor, r.donor = some donor → donor.parent ≠ some b.owner.uid

/-- The lines of the details retell a record, unless it borrows from a member of the same type. -/
structure Retells (b : Builder) (o : Overlay) (r : Record) (block : List String) : Prop where
  /-- The lines begin with the heading of the member. -/
  heading : ∃ rest, block = headingText r.member :: "" :: rest
  /-- They are the lines that the record gives. -/
  lines : b.BorrowsElsewhere r → block = b.retold r
  /-- The text that is shown is the one that the record comes down to. -/
  shown : b.BorrowsElsewhere r → shownBody o r.member = (r.text, r.donor)
  /-- This text starts with the sentence that stands in the table. -/
  sentence : b.BorrowsElsewhere r → Comment.firstSentence r.text = r.firstSentence

/-- The text of a record is what the details show for its member. -/
theorem Holds.shownBody_eq (h : b.Holds records o) (hr : r ∈ records)
    (helsewhere : b.BorrowsElsewhere r) : shownBody o r.member = (r.text, r.donor) := by
  have hbody : o.body r.member = r.body := by rw [Overlay.body_eq_getD, h.comment r hr]
  unfold shownBody Record.text
  rw [hbody, h.donor r hr]
  cases hfound : r.donor with
  | none =>
      by_cases hempty : r.body = ""
      · rw [if_pos hempty, hempty]
        rfl
      · rw [if_neg hempty]
        split
        next _ heq => cases heq
        · rfl
  | some donor =>
      obtain ⟨hmem, hempty, -⟩ := (h.sound r hr).lent donor hfound
      have hnone := h.installed_eq_none hmem (helsewhere donor hfound)
      rw [if_pos hempty, hempty]
      show (o.body donor, some donor) = (Overlay.body {} donor, some donor)
      rw [Overlay.body, Overlay.comment?_of_installed_eq_none hnone]
      rfl

/-- The text of a record has the record's first sentence. -/
theorem Sound.firstSentence_text (h : b.Sound r) (helsewhere : b.BorrowsElsewhere r) :
    Comment.firstSentence r.text = r.firstSentence := by
  unfold Record.text
  cases hfound : r.donor with
  | none =>
      rw [h.own hfound]
      by_cases hempty : r.body = ""
      · rw [if_pos hempty, hempty]
        rfl
      · rw [if_neg hempty]
  | some donor =>
      obtain ⟨-, hempty, hfirst⟩ := h.lent donor hfound
      rw [if_pos hempty, hfirst (helsewhere donor hfound)]
      rfl

theorem Holds.retells (h : b.Holds records o) (hr : r ∈ records) :
    b.Retells o r (b.memberDetails o r.member) where
  heading := memberDetails_eq b o r.member
  lines helsewhere := by
    unfold memberDetails retold
    rw [h.shownBody_eq hr helsewhere, h.donor r hr, Overlay.tags_eq_getD, h.comment r hr,
      ← funext (tagLine?_eq b r.member), ← detailHeading_eq]
    simp only [← borrowedNote_eq]
    rfl
  shown := h.shownBody_eq hr
  sentence := (h.sound r hr).firstSentence_text

/-! ### The section of details -/

/-- The lines of the section: a heading, if there is anything to tell, and the blocks. -/
def detailLines (blocks : List (List String)) : List String :=
  if blocks = [] then [] else "## Member Details" :: "" :: blocks.flatten

theorem details_eq (b : Builder) (o : Overlay) :
    b.details o = detailLines ((b.kinds.flatMap b.members).map (b.memberDetails o)) := by
  unfold details detailLines
  cases b.kinds.flatMap b.members with
  | nil => rfl
  | cons e es =>
      obtain ⟨rest, hrest⟩ := memberDetails_eq b o e
      rw [List.flatMap_cons, List.map_cons, if_neg (List.cons_ne_nil _ _), List.flatten_cons, hrest,
        List.flatMap_def]
      rfl

/-- A page with members is written with its summary and then its details; without, nothing is. -/
theorem writeMembers_returns (h : b.build.Returns d groups d') :
    (Page.writeMembers b true).Returns d ⟨⟩ (if b.hasMembers = true then
      { d' with tree := d'.tree ++ b.details d'.overlay } else d) := by
  unfold Page.writeMembers
  split
  · exact returns_bind_iff.mpr ⟨⟨⟩, d', returns_discard h, returns_modify_iff.mpr rfl⟩
  · exact returns_pure_iff.mpr ⟨rfl, rfl⟩

/-- **The details tell what the summary has told.**  The first page of a type has a table for each
own group, with a row for each of its records, and a record for each member that the type shows
itself.  Behind the summary the details have a block of lines for each of these records, in the same
order, and nothing else.  Unless a record borrows from a member of the same type, the block shows the
body of the record, or else the body that the documents give the donor; it names the type of the
donor if there is one; its text has the first sentence of the record; and links are read where the
table has read them. -/
theorem details_of_build (hb : ofType m targets messages rules owner = .ok b) (hm : m.Loaded)
    (h : b.build.Returns d groups d') (hoverlay : d.overlay = {}) (hrows : d.rows = fun _ => []) :
    ∃ lines blocks, d'.tree = d.tree ++ lines ∧
      (∀ g ∈ groups, g.isInherited = false → b.Tabled teller [] lines g) ∧
      (ownRecords groups).map (·.member) = b.kinds.flatMap b.members ∧
      List.Forall₂ (b.Retells d'.overlay) (ownRecords groups) blocks ∧
      b.details d'.overlay = detailLines blocks ∧
      (Page.writeMembers b true).Returns d ⟨⟩ (if b.hasMembers = true then
        { d' with tree := d.tree ++ lines ++ detailLines blocks } else d) ∧
      ∀ k ∈ b.kinds, ∀ e ∈ b.members k, ∃ g ∈ groups, (g.kind = k ∧ g.isInherited = false) ∧
        ∃ r ∈ g.records, r.member = e := by
  obtain ⟨lines, htree, hholds, hadds⟩ := adds_of_build hb hm h hoverlay hrows
  have hdetails : b.details d'.overlay =
      detailLines ((ownRecords groups).map fun r => b.memberDetails d'.overlay r.member) := by
    rw [details_eq, ← hadds.members, List.map_map]
    rfl
  refine ⟨lines, _, htree, hadds.tabled, hadds.members, ?_, hdetails, ?_, ?_⟩
  · rw [List.forall₂_map_right_iff, List.forall₂_same]
    exact fun r hr => hholds.retells hr
  · have hwritten := writeMembers_returns h
    rwa [hdetails, htree] at hwritten
  · intro k hk e he
    obtain ⟨g, hg, hnot, hkind, hmembers⟩ := hadds.complete k hk (List.ne_nil_of_mem he)
    rw [← hmembers, ← (hadds.tabled g hg hnot).members] at he
    obtain ⟨r, hr, rfl⟩ := List.mem_map.mp he
    exact ⟨g, hg, ⟨hkind, hnot⟩, r, hr, rfl⟩

/-! A lamp is toggled as its switch says. -/

/-- The class of lamps. -/
def lamp : Element := Table.sampleType .classType "Lamp" none ["Switch"]

/-- A method of lamps that is documented by their interface. -/
def toggle : Element :=
  { Table.sampleMethod "Lamp" "toggle" "public" [] with overrides := ["Switch.toggle"] }

/-- The interface of switches. -/
def lampSwitch : Element := Table.sampleType .interfaceType "Switch" none []

/-- The method of switches. -/
def switchToggle : Element :=
  { Table.sampleMethod "Switch" "toggle" "public" [] with
    comment := some { body := "Toggles. Twice does nothing." } }

/-- The document that describes lamps and their switches. -/
def lampDocument : Value :=
  Config.named [("items", .list [
    Config.named [("uid", .text "Lamp"), ("type", .text "class"), ("access", .text "public"),
      ("interfaces", .text "Switch")],
    Config.named [("uid", .text "Lamp.toggle"), ("type", .text "method"), ("name", .text "toggle"),
      ("fullName", .text "Lamp.toggle"), ("parent", .text "Lamp"), ("access", .text "public"),
      ("overrides", .text "Switch.toggle")],
    Config.named [("uid", .text "Switch"), ("type", .text "interface"),
      ("access", .text "public")],
    Config.named [("uid", .text "Switch.toggle"), ("type", .text "method"),
      ("name", .text "toggle"), ("fullName", .text "Switch.toggle"), ("parent", .text "Switch"),
      ("access", .text "public"), ("comment", .text "Toggles. Twice does nothing.")]])]

/-- Lamps and their switches. -/
def lamps : Model where
  elements := [lamp, toggle, lampSwitch, switchToggle]
  distinct_uids := by decide +kernel
  minAccess := .text "protected"
  external := []

theorem loaded_lamps : lamps.Loaded := by
  have hdocument : Catalog.ofDocuments [lampDocument] = .ok lamps.toCatalog := rfl
  exact Catalog.loaded_of_ofDocuments hdocument

/-- The messages that the page of lamps needs. -/
def lampMessages : Value := Config.named [("methods_summary", .text "Methods")]

/-- The builder of lamps. -/
def lampBuilder : Builder where
  model := lamps
  targets := []
  messages := lampMessages
  naming := .standard
  table := ⟨lamps, .standard, lamp, .protectedOnly, [(.methods, toggle)],
    [(lampSwitch, [(.methods, switchToggle)])], []⟩
  sources := ⟨[]⟩

theorem ofType_lamp : ofType lamps [] lampMessages ⟨.standard, true⟩ lamp = .ok lampBuilder := by
  cbv

/-- The record of the method of lamps. -/
def toggleRecord : Record := ⟨toggle, "Toggles.", "", [], some switchToggle⟩

theorem retold_toggleRecord : lampBuilder.retold toggleRecord = ["### toggle()", "",
    "*Description copied from `Switch`*", "", "Toggles. Twice does nothing.", ""] := by
  have htext : Inline.markdown lampBuilder.model lampBuilder.targets
      (lampBuilder.model.enclosing? (teller toggleRecord)) toggleRecord.text =
        "Toggles. Twice does nothing." := by cbv
  simp only [retold, htext]
  decide +kernel

theorem details_of_build_lamp :
    ofType lamps [] lampMessages ⟨.standard, true⟩ lamp = .ok lampBuilder ∧ lamps.Loaded ∧
      ∃ groups d' lines, lampBuilder.build.Returns {} groups d' ∧
        groups.map (fun g => (g.kind, g.isInherited, g.records)) =
          [(.methods, false, [toggleRecord])] ∧
        (∃ text ∈ lines, ((Text.lines text).drop 2).map Markdown.readRow =
          [["", "[toggle](#toggle)()", "Toggles."]]) ∧
        (Page.writeMembers lampBuilder true).Returns {} ⟨⟩
          { d' with tree := lines ++ ["## Member Details", "", "### toggle()", "",
            "*Description copied from `Switch`*", "", "Toggles. Twice does nothing.", ""] } := by
  have hgroups : (lampBuilder.build.run.run {}).run.1.toOption.map
      (List.map fun g => (g.kind, g.isInherited, g.records)) =
        some [(.methods, false, [toggleRecord])] := by cbv
  obtain ⟨groups, d', hbuild, hgroups⟩ := exists_returns hgroups
  obtain ⟨lines, blocks, -, htables, -, htold, -, hwritten, -⟩ :=
    details_of_build ofType_lamp loaded_lamps hbuild rfl rfl
  obtain ⟨g, rfl, heq⟩ := List.map_eq_singleton_iff.mp hgroups
  obtain ⟨hkind, hnot, hrecords⟩ : g.kind = .methods ∧ g.isInherited = false ∧
      g.records = [toggleRecord] := by simpa using heq
  refine ⟨ofType_lamp, loaded_lamps, [g], d', lines, hbuild, hgroups, ?_, ?_⟩
  · obtain ⟨-, text, htext, rows, hrows, -, hread⟩ := htables g (List.mem_singleton_self g) hnot
    rw [hkind, hrecords] at hrows
    obtain ⟨row, _, ⟨title, rfl, rfl⟩, htail, rfl⟩ := List.forall₂_cons_left_iff.mp hrows
    obtain rfl := List.forall₂_nil_left_iff.mp htail
    have hsentence : Inline.markdown lampBuilder.model lampBuilder.targets
        (lampBuilder.model.enclosing? (teller toggleRecord)) toggleRecord.firstSentence =
          "Toggles." := by cbv
    refine ⟨text, htext, hread.map_readRow.trans ?_⟩
    rw [hsentence]
    decide +kernel
  · have hmembers : lampBuilder.hasMembers = true := by decide +kernel
    have hown : ownRecords [g] = [toggleRecord] := by simp [ownRecords, hnot, hrecords]
    rw [hown] at htold
    obtain ⟨block, _, hblock, htail, rfl⟩ := List.forall₂_cons_left_iff.mp htold
    obtain rfl := List.forall₂_nil_left_iff.mp htail
    have helsewhere : lampBuilder.BorrowsElsewhere toggleRecord := by
      rintro donor ⟨⟩
      decide +kernel
    rw [hblock.lines helsewhere, retold_toggleRecord, if_pos hmembers] at hwritten
    exact hwritten

end Builder

end TypePages
