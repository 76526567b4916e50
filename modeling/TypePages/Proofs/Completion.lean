import TypePages.Proofs.Groups
import TypePages.Proofs.Writing

/-!
When a page gets written to its end.

A step is *total* when no draft makes it refuse.  Steps that are put together from total ones are
total, so a page is written to its end as soon as nothing refuses that does not read the draft: the
headings, the inherited members, and for each own member its comment and the name that it is shown
by.
-/

namespace TypePages

namespace Work

/-- A step that returns from every draft. -/
def Total {α : Type} (w : Work α) : Prop := ∀ d, ∃ a d', w.Returns d a d'

variable {α β : Type} {w : Work α} {f : α → Work β}

theorem total_of {y : Except Fault α} (h : ∃ a, y = .ok a) : Total (Work.of y) := by
  intro d
  obtain ⟨a, rfl⟩ := h
  exact ⟨a, d, returns_of_iff.mpr ⟨rfl, rfl⟩⟩

theorem total_pure (a : α) : Total (pure a) := fun d => ⟨a, d, returns_pure_iff.mpr ⟨rfl, rfl⟩⟩

theorem total_modify (g : Draft → Draft) : Total (modify g) :=
  fun d => ⟨⟨⟩, g d, returns_modify_iff.mpr rfl⟩

theorem Total.bind (hw : Total w) (hf : ∀ a, Total (f a)) : Total (w >>= f) := by
  intro d
  obtain ⟨a, d₁, hhead⟩ := hw d
  obtain ⟨r, d', htail⟩ := hf a d₁
  exact ⟨r, d', returns_bind_iff.mpr ⟨a, d₁, hhead, htail⟩⟩

theorem total_discard (hw : Total w) : Total (discard w) := by
  rw [discard, map_const, Function.comp_apply, map_eq_pure_bind]
  exact hw.bind fun _ => total_pure PUnit.unit

theorem total_mapM {xs : List α} (h : ∀ x ∈ xs, Total (f x)) : Total (xs.mapM f) := by
  induction xs with
  | nil =>
      rw [List.mapM_nil]
      exact total_pure []
  | cons x xs ih =>
      rw [List.mapM_cons]
      exact (h x List.mem_cons_self).bind fun y =>
        (ih fun z hz => h z (List.mem_cons_of_mem _ hz)).bind fun ys => total_pure (y :: ys)

end Work

namespace Builder

open Work

variable {b : Builder} {k : Member.Kind} {e : Element}

theorem rowOf_returns {title : String} (h : b.displayName k e = .ok title) (o : Overlay)
    (sentence : String) : ∃ row, b.rowOf o k e sentence = .ok row := by
  obtain ⟨cell, hcell⟩ : ∃ cell, b.memberLink k e = .ok cell :=
    ⟨_, Refusal.bind_eq_ok.mpr ⟨title, h, rfl⟩⟩
  exact ⟨_, Refusal.bind_eq_ok.mpr ⟨cell, hcell, rfl⟩⟩

theorem total_memberStep (hcomment : ∃ c, b.commentFor e = .ok c)
    (hname : ∃ title, b.displayName k e = .ok title) : Total (b.memberStep k e) := by
  intro d
  obtain ⟨c, hc⟩ := hcomment
  obtain ⟨title, htitle⟩ := hname
  obtain ⟨r, o, hsynth⟩ := exists_synthesize hc d.overlay
  obtain ⟨row, hrow⟩ := rowOf_returns htitle o r.firstSentence
  exact ⟨r, _, returns_memberStep_iff.mpr ⟨o, row, hsynth, hrow, rfl⟩⟩

theorem total_takeTable (k : Member.Kind) : Total (takeTable k) :=
  fun _ => ⟨_, _, returns_takeTable_iff.mpr ⟨rfl, rfl⟩⟩

theorem total_ownGroup (h : ∀ e ∈ b.members k, Total (b.memberStep k e)) :
    Total (b.ownGroup k) := by
  unfold ownGroup
  by_cases hempty : b.members k = []
  · simp only [hempty, List.isEmpty_nil, if_true]
    exact total_pure []
  · simp only [List.isEmpty_iff, hempty, if_false]
    exact (total_mapM h).bind fun records => (total_takeTable k).bind fun text => total_pure _

theorem total_addShown (h : ∃ lines, b.heading k = .ok lines) (shown : List Shown) :
    Total (b.addShown k shown) := by
  unfold addShown
  by_cases hempty : shown = []
  · simp only [hempty, List.isEmpty_nil, if_true]
    exact total_pure []
  · simp only [List.isEmpty_iff, hempty, if_false]
    exact (total_of h).bind fun heading => (total_modify _).bind fun _ => total_pure _

/-- Nothing that the section of a kind needs is refused. -/
structure Writable (b : Builder) (k : Member.Kind) : Prop where
  heading : ∃ lines, b.heading k = .ok lines
  inherited : b.showsInherited k = true → ∃ others, b.inheritedGroups k = .ok others
  comment : ∀ e ∈ b.members k, ∃ c, b.commentFor e = .ok c
  name : ∀ e ∈ b.members k, ∃ title, b.displayName k e = .ok title

theorem total_addSection (h : b.Writable k) : Total (b.addSection k (b.showsInherited k)) := by
  rw [addSection_eq]
  refine (total_ownGroup fun e he => total_memberStep (h.comment e he) (h.name e he)).bind
    fun own => Total.bind ?_ fun others => total_addShown h.heading _
  cases hinherited : b.showsInherited k with
  | false => exact total_pure []
  | true => exact total_of (h.inherited hinherited)

/-- A page whose sections lack nothing is written to its end. -/
theorem total_build (h : ∀ k ∈ b.kinds, b.hasWriter k = true → b.Writable k) : Total b.build :=
  (total_mapM fun _ hk => total_addSection
    (h _ (List.mem_filter.mp hk).1 (List.mem_filter.mp hk).2)).bind
      fun groups => total_pure groups.flatten

end Builder

end TypePages
