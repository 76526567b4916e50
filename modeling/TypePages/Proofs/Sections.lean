import TypePages.Proofs.Refusal
import TypePages.Summary.Section

/-!
What the steps of a section do.

A section is written in two halves.  The type's own members are written one row after the other,
with the draft passed on, and the rows are then taken as a table; the supertypes are gone through
without touching the draft.  The lemmas here say what each step leaves behind, so that what a
section shows can be stated without the steps.
-/

namespace TypePages

/-- A type is public, or it has a page that links can point to. -/
def Model.PublicOrLinkable (m : Model) (a : Element) : Prop :=
  Model.isPublic a = true ∨ m.isLinkable a = .ok true

namespace Builder

open Work

variable {b : Builder} {k : Member.Kind} {d d' : Draft}

/-! ### What the steps of a section do -/

theorem returns_recordStep_iff {e : Element} {r : Record} :
    (b.recordStep e).Returns d r d' ↔ ∃ o, b.synthesize d.overlay e = .ok (r, o) ∧
      d' = { d with overlay := o, notes := d.notes ++ b.recordNotes o e } := by
  unfold recordStep
  constructor
  · intro h
    obtain ⟨_, _, hget, h₁⟩ := returns_bind_iff.mp h
    obtain ⟨rfl, rfl⟩ := returns_get_iff.mp hget
    obtain ⟨⟨r', o⟩, _, hof, h₂⟩ := returns_bind_iff.mp h₁
    obtain ⟨hsynth, rfl⟩ := returns_of_iff.mp hof
    obtain ⟨_, _, hmodify, h₃⟩ := returns_bind_iff.mp h₂
    obtain rfl := returns_modify_iff.mp hmodify
    obtain ⟨rfl, rfl⟩ := returns_pure_iff.mp h₃
    exact ⟨o, hsynth, rfl⟩
  · rintro ⟨o, hsynth, rfl⟩
    exact returns_bind_iff.mpr ⟨d, d, returns_get_iff.mpr ⟨rfl, rfl⟩, returns_bind_iff.mpr
      ⟨(r, o), d, returns_of_iff.mpr ⟨hsynth, rfl⟩, returns_bind_iff.mpr
        ⟨⟨⟩, _, returns_modify_iff.mpr rfl, returns_pure_iff.mpr ⟨rfl, rfl⟩⟩⟩⟩

theorem returns_addRow_iff {e : Element} {sentence : String} {u : Unit} :
    (b.addRow k e sentence).Returns d u d' ↔ ∃ row, b.rowOf d.overlay k e sentence = .ok row ∧
      d' = { d with rows := fun k' => if k' = k then d.rows k ++ [row] else d.rows k' } := by
  unfold addRow
  constructor
  · intro h
    obtain ⟨_, _, hget, h₁⟩ := returns_bind_iff.mp h
    obtain ⟨rfl, rfl⟩ := returns_get_iff.mp hget
    obtain ⟨row, _, hof, h₂⟩ := returns_bind_iff.mp h₁
    obtain ⟨hrow, rfl⟩ := returns_of_iff.mp hof
    exact ⟨row, hrow, returns_modify_iff.mp h₂⟩
  · rintro ⟨row, hrow, rfl⟩
    exact returns_bind_iff.mpr ⟨d, d, returns_get_iff.mpr ⟨rfl, rfl⟩, returns_bind_iff.mpr
      ⟨row, d, returns_of_iff.mpr ⟨hrow, rfl⟩, returns_modify_iff.mpr rfl⟩⟩

theorem returns_takeTable_iff {text : String} :
    (takeTable k).Returns d text d' ↔ text = Markdown.table k.headers (d.rows k) ∧
      d' = { d with rows := fun k' => if k' = k then [] else d.rows k' } := by
  unfold takeTable
  constructor
  · intro h
    obtain ⟨_, _, hget, h₁⟩ := returns_bind_iff.mp h
    obtain ⟨rfl, rfl⟩ := returns_get_iff.mp hget
    obtain ⟨_, _, hmodify, h₂⟩ := returns_bind_iff.mp h₁
    obtain rfl := returns_modify_iff.mp hmodify
    exact returns_pure_iff.mp h₂
  · rintro ⟨rfl, rfl⟩
    exact returns_bind_iff.mpr ⟨d, d, returns_get_iff.mpr ⟨rfl, rfl⟩, returns_bind_iff.mpr
      ⟨⟨⟩, _, returns_modify_iff.mpr rfl, returns_pure_iff.mpr ⟨rfl, rfl⟩⟩⟩

/-- A member's record is made over what the draft has written, and its row waits with the rest. -/
theorem returns_memberStep_iff {e : Element} {r : Record} :
    (b.memberStep k e).Returns d r d' ↔ ∃ o row, b.synthesize d.overlay e = .ok (r, o) ∧
      b.rowOf o k e r.firstSentence = .ok row ∧
      d' = { d with
        overlay := o
        notes := d.notes ++ b.recordNotes o e
        rows := fun k' => if k' = k then d.rows k ++ [row] else d.rows k' } := by
  unfold memberStep
  constructor
  · intro h
    obtain ⟨r', d₁, hrecord, h₁⟩ := returns_bind_iff.mp h
    obtain ⟨_, d₂, hrow, h₂⟩ := returns_bind_iff.mp h₁
    obtain ⟨rfl, rfl⟩ := returns_pure_iff.mp h₂
    obtain ⟨o, hsynth, rfl⟩ := returns_recordStep_iff.mp hrecord
    obtain ⟨row, hof, rfl⟩ := returns_addRow_iff.mp hrow
    exact ⟨o, row, hsynth, hof, rfl⟩
  · rintro ⟨o, row, hsynth, hof, rfl⟩
    exact returns_bind_iff.mpr ⟨r, _, returns_recordStep_iff.mpr ⟨o, hsynth, rfl⟩,
      returns_bind_iff.mpr ⟨⟨⟩, _, returns_addRow_iff.mpr ⟨row, hof, rfl⟩,
        returns_pure_iff.mpr ⟨rfl, rfl⟩⟩⟩

/-- Writing the row of a member leaves the page alone. -/
theorem tree_of_memberStep {e : Element} {r : Record} (h : (b.memberStep k e).Returns d r d') :
    d'.tree = d.tree := by
  obtain ⟨o, row, -, -, rfl⟩ := returns_memberStep_iff.mp h
  rfl

theorem tree_of_memberSteps {es : List Element} {records : List Record}
    (h : Each (b.memberStep k) es d records d') : d'.tree = d.tree := by
  induction h with
  | nil => rfl
  | cons head _ ih => rw [ih, tree_of_memberStep head]

/-- The group of own members is there unless it would be empty; its rows no longer wait. -/
theorem returns_ownGroup_iff {shown : List Shown} : (b.ownGroup k).Returns d shown d' ↔
    b.members k = [] ∧ shown = [] ∧ d' = d ∨ b.members k ≠ [] ∧ ∃ records d₁,
      Each (b.memberStep k) (b.members k) d records d₁ ∧
      shown = [(⟨k, b.owner, b.owner, b.members k, records, false⟩,
        Markdown.table k.headers (d₁.rows k))] ∧
      d' = { d₁ with rows := fun k' => if k' = k then [] else d₁.rows k' } := by
  unfold ownGroup
  by_cases hempty : b.members k = []
  · simp only [hempty, List.isEmpty_nil, if_true, returns_pure_iff, true_and, ne_eq,
      not_true_eq_false, false_and, or_false]
  · simp only [List.isEmpty_iff, hempty, if_false, false_and, false_or, ne_eq, not_false_eq_true,
      true_and]
    constructor
    · intro h
      obtain ⟨records, d₁, hrecords, h₁⟩ := returns_bind_iff.mp h
      obtain ⟨text, d₂, htable, h₂⟩ := returns_bind_iff.mp h₁
      obtain ⟨rfl, rfl⟩ := returns_pure_iff.mp h₂
      obtain ⟨rfl, rfl⟩ := returns_takeTable_iff.mp htable
      exact ⟨records, d₁, returns_mapM_iff.mp hrecords, rfl, rfl⟩
    · rintro ⟨records, d₁, hrecords, rfl, rfl⟩
      exact returns_bind_iff.mpr ⟨records, d₁, returns_mapM_iff.mpr hrecords,
        returns_bind_iff.mpr ⟨_, _, returns_takeTable_iff.mpr ⟨rfl, rfl⟩,
          returns_pure_iff.mpr ⟨rfl, rfl⟩⟩⟩

/-- The group of own members leaves the page alone. -/
theorem of_returns_ownGroup {shown : List Shown} (h : (b.ownGroup k).Returns d shown d') :
    d'.tree = d.tree ∧ (b.members k = [] ∧ shown = [] ∨ b.members k ≠ [] ∧
      ∃ records text, shown = [(⟨k, b.owner, b.owner, b.members k, records, false⟩, text)]) := by
  rcases returns_ownGroup_iff.mp h with ⟨hempty, rfl, rfl⟩ | ⟨hne, records, d₁, hrecords, rfl, rfl⟩
  · exact ⟨rfl, .inl ⟨hempty, rfl⟩⟩
  · have htree := tree_of_memberSteps hrecords
    exact ⟨htree, .inr ⟨hne, records, _, rfl⟩⟩

/-! ### What a supertype contributes -/

/-- The members of a kind that a type shows and that the given type declares, in order. -/
def membersFrom (b : Builder) (k : Member.Kind) (a : Element) : List Element :=
  (Element.sorted (b.table.allVisible k)).filter (·.parent == some a.uid)

variable {a : Element}

theorem isShownAncestor_eq_ok {s : Bool} (h : b.isShownAncestor a = .ok s) :
    s = true ↔ b.model.PublicOrLinkable a := by
  unfold isShownAncestor at h
  unfold Model.PublicOrLinkable
  by_cases hpublic : Model.isPublic a = true
  · rw [if_pos hpublic, Except.ok.injEq] at h
    simp [hpublic, ← h]
  · rw [if_neg hpublic] at h
    simp [hpublic, h]

/-- The group of a supertype is there if the supertype is public or linkable and declares anything
that is shown; it then holds exactly that, and is shown as a heading and a line of links. -/
theorem inheritedGroup?_eq_ok {o : Option Shown} (h : b.inheritedGroup? k a = .ok o) :
    (o = none ∧ (b.model.PublicOrLinkable a → b.membersFrom k a = [])) ∨
      ∃ attributed heading links, o = some (⟨k, a, attributed, b.membersFrom k a, [], true⟩,
          block (heading ++ [Text.join " " links])) ∧
        (b.inheritedHeading k a = .ok heading ∧
          b.inheritedLinks k attributed (b.membersFrom k a) = .ok links) ∧
        b.model.PublicOrLinkable a ∧ b.membersFrom k a ≠ [] := by
  obtain ⟨s, hs, h₁⟩ := Refusal.bind_eq_ok.mp h
  have hshown := isShownAncestor_eq_ok hs
  cases s with
  | false =>
      simp only [Bool.not_false, if_true, Refusal.pure_eq_ok] at h₁
      exact .inl ⟨h₁.symm, fun hp => absurd (hshown.mpr hp) (by decide)⟩
  | true =>
      simp only [Bool.not_true, Bool.false_eq_true, if_false] at h₁
      by_cases hempty : b.membersFrom k a = []
      · have hempty' := hempty
        unfold membersFrom at hempty'
        simp only [hempty', List.isEmpty_nil, if_true] at h₁
        rw [Refusal.pure_eq_ok] at h₁
        exact .inl ⟨h₁.symm, fun _ => hempty⟩
      · have hempty' := hempty
        unfold membersFrom at hempty'
        simp only [List.isEmpty_iff, hempty', if_false] at h₁
        obtain ⟨heading, hheading, h₂⟩ := Refusal.bind_eq_ok.mp h₁
        obtain ⟨attributed, -, h₃⟩ := Refusal.bind_eq_ok.mp h₂
        obtain ⟨links, hlinks, h₄⟩ := Refusal.bind_eq_ok.mp h₃
        rw [Refusal.pure_eq_ok] at h₄
        exact .inr
          ⟨attributed, heading, links, h₄.symm, ⟨hheading, hlinks⟩, hshown.mp rfl, hempty⟩

theorem inheritedGroup?_eq_some {s : Shown} (h : b.inheritedGroup? k a = .ok (some s)) :
    b.model.PublicOrLinkable a ∧ b.membersFrom k a ≠ [] ∧
      ∃ attributed heading links, s = (⟨k, a, attributed, b.membersFrom k a, [], true⟩,
          block (heading ++ [Text.join " " links])) ∧ b.inheritedHeading k a = .ok heading ∧
        b.inheritedLinks k attributed (b.membersFrom k a) = .ok links := by
  rcases inheritedGroup?_eq_ok h with
    ⟨hnone, -⟩ | ⟨attributed, heading, links, hsome, hlinks, hp, hne⟩
  · exact absurd hnone (by simp)
  · rw [Option.some.injEq] at hsome
    exact ⟨hp, hne, attributed, heading, links, hsome, hlinks⟩

/-- The groups of inherited members are those of some of the supertypes, in their order. -/
theorem sublist_of_inheritedGroups {shown : List Shown} (h : b.inheritedGroups k = .ok shown) :
    (shown.map (·.1.origin)).Sublist b.table.family.tail := by
  refine Refusal.sublist_of_filterMapM (fun a s hs => ?_) h
  obtain ⟨-, -, attributed, heading, links, heq, -⟩ := inheritedGroup?_eq_some hs
  rw [heq]

theorem mem_inheritedGroups {shown : List Shown} (h : b.inheritedGroups k = .ok shown) {s : Shown}
    (hs : s ∈ shown) : s.1.kind = k ∧ s.1.isInherited = true ∧
      s.1.members = b.membersFrom k s.1.origin ∧ s.1.members ≠ [] ∧
      b.model.PublicOrLinkable s.1.origin := by
  obtain ⟨a, -, ha⟩ := (Refusal.mem_iff_of_filterMapM_eq_ok h).mp hs
  obtain ⟨hp, hne, attributed, heading, links, heq, -⟩ := inheritedGroup?_eq_some ha
  rw [heq]
  exact ⟨rfl, rfl, rfl, hne, hp⟩

/-- A supertype that is public or linkable and declares anything shown has a group. -/
theorem exists_inheritedGroup {shown : List Shown} (h : b.inheritedGroups k = .ok shown)
    (ha : a ∈ b.table.family.tail) (hp : b.model.PublicOrLinkable a)
    (hne : b.membersFrom k a ≠ []) : ∃ s ∈ shown, s.1.origin = a := by
  obtain ⟨o, ho⟩ := (Refusal.filterMapM_eq_ok.mp h).1 a ha
  rcases inheritedGroup?_eq_ok ho with ⟨-, hnone⟩ | ⟨attributed, heading, links, rfl, -⟩
  · exact absurd (hnone hp) hne
  · exact ⟨_, (Refusal.mem_iff_of_filterMapM_eq_ok h).mpr ⟨a, ha, ho⟩, rfl⟩

end Builder

end TypePages
