import Mathlib.Data.List.Forall2
import TypePages.Summary.Builder

/-!
What follows from a computation that is not refused.

Nearly everything that reads settings is an `Except Fault`, and everything that writes a page is a
`Work`, which carries a draft besides, as a run carries the files.  The lemmas below take a
computation that has returned apart, one bind at a time, so that no later proof has to open any of
these monads.

For a list of steps the draft is threaded from one to the next.  `Work.Each` is that thread, and an
induction over it is how a property of one step becomes a property of the run.
-/

namespace TypePages

/-! ### Results -/

namespace Refusal

variable {ε α β : Type}

theorem bind_eq_ok {x : Except ε α} {f : α → Except ε β} {r : β} :
    x >>= f = .ok r ↔ ∃ a, x = .ok a ∧ f a = .ok r := by
  cases x with
  | error e => simp [bind, Except.bind]
  | ok a => simp [bind, Except.bind]

@[simp] theorem pure_eq_ok {a r : α} : (pure a : Except ε α) = .ok r ↔ a = r := by
  simp [pure, Except.pure]

theorem map_eq_ok {x : Except ε α} {f : α → β} {r : β} :
    x.map f = .ok r ↔ ∃ a, x = .ok a ∧ f a = r := by
  cases x with
  | error e => simp [Except.map]
  | ok a => simp [Except.map]

theorem toOption_eq_some_iff {x : Except ε α} {a : α} : x.toOption = some a ↔ x = .ok a := by
  cases x with
  | error e => simp [Except.toOption]
  | ok a' => simp [Except.toOption]

/-- A list of computations returns when each of them does. -/
theorem mapM_eq_ok {f : α → Except ε β} {xs : List α} {ys : List β} :
    xs.mapM f = .ok ys ↔ List.Forall₂ (fun x y => f x = .ok y) xs ys := by
  induction xs generalizing ys with
  | nil => simp [pure, Except.pure, eq_comm]
  | cons x xs ih =>
      rw [List.mapM_cons, bind_eq_ok, List.forall₂_cons_left_iff]
      constructor
      · rintro ⟨y, hy, h⟩
        obtain ⟨zs, hzs, h⟩ := bind_eq_ok.mp h
        exact ⟨y, zs, hy, ih.mp hzs, (pure_eq_ok.mp h).symm⟩
      · rintro ⟨y, zs, hy, hzs, rfl⟩
        exact ⟨y, hy, bind_eq_ok.mpr ⟨zs, ih.mpr hzs, pure_eq_ok.mpr rfl⟩⟩

/-- What a list of computations returns is what they return. -/
theorem mem_iff_of_mapM_eq_ok {f : α → Except ε β} {xs : List α} {ys : List β}
    (h : xs.mapM f = .ok ys) {y : β} : y ∈ ys ↔ ∃ x ∈ xs, f x = .ok y := by
  rw [mapM_eq_ok] at h
  induction h with
  | nil => simp
  | @cons x y' xs ys hx _ ih => simp [ih, hx, eq_comm]

theorem returns_of_mapM {f : α → Except ε β} {xs : List α} {ys : List β}
    (h : xs.mapM f = .ok ys) : ∀ x ∈ xs, ∃ y, f x = .ok y := by
  rw [mapM_eq_ok] at h
  induction h with
  | nil => simp
  | @cons x y xs ys hx _ ih =>
      intro z hz
      rcases List.mem_cons.mp hz with rfl | hz
      · exact ⟨y, hx⟩
      · exact ih z hz

theorem mapM_returns {f : α → Except ε β} {xs : List α} (h : ∀ x ∈ xs, ∃ y, f x = .ok y) :
    ∃ ys, xs.mapM f = .ok ys := by
  induction xs with
  | nil => exact ⟨[], rfl⟩
  | cons x xs ih =>
      obtain ⟨y, hy⟩ := h x (by simp)
      obtain ⟨ys, hys⟩ := ih fun z hz => h z (List.mem_cons_of_mem _ hz)
      exact ⟨y :: ys, mapM_eq_ok.mpr (.cons hy (mapM_eq_ok.mp hys))⟩

/-- What a step preserves, going through a list preserves. -/
theorem foldlM_preserves {f : β → α → Except ε β} {P : β → Prop}
    (hstep : ∀ b x b', P b → f b x = .ok b' → P b') {xs : List α} {b b' : β} (hb : P b)
    (h : xs.foldlM f b = .ok b') : P b' := by
  induction xs generalizing b with
  | nil =>
      rw [List.foldlM_nil, pure_eq_ok] at h
      exact h ▸ hb
  | cons x xs ih =>
      rw [List.foldlM_cons] at h
      obtain ⟨b₁, hx, hxs⟩ := bind_eq_ok.mp h
      exact ih (hstep b x b₁ hb hx) hxs

/-- A filter returns when the computation on each item does, and keeps what they found. -/
theorem filterMapM_eq_ok {f : α → Except ε (Option β)} {xs : List α} {ys : List β} :
    xs.filterMapM f = .ok ys ↔
      (∀ x ∈ xs, ∃ o, f x = .ok o) ∧ ys = xs.filterMap fun x => (f x).toOption.join := by
  induction xs generalizing ys with
  | nil => simp [pure, Except.pure, eq_comm]
  | cons x xs ih =>
      rw [List.filterMapM_cons, bind_eq_ok]
      cases hx : f x with
      | error e => simp [hx]
      | ok o =>
          cases o with
          | none => simp [hx, Except.toOption, ih]
          | some y =>
              simp only [Except.ok.injEq, exists_eq_left', bind_eq_ok, ih, pure_eq_ok,
                List.mem_cons, forall_eq_or_imp, hx, List.filterMap_cons, Except.toOption,
                Option.join_some]
              constructor
              · rintro ⟨zs, ⟨hall, rfl⟩, rfl⟩
                exact ⟨⟨⟨_, rfl⟩, hall⟩, rfl⟩
              · rintro ⟨⟨-, hall⟩, rfl⟩
                exact ⟨_, ⟨hall, rfl⟩, rfl⟩

theorem mem_iff_of_filterMapM_eq_ok {f : α → Except ε (Option β)} {xs : List α} {ys : List β}
    (h : xs.filterMapM f = .ok ys) {y : β} : y ∈ ys ↔ ∃ x ∈ xs, f x = .ok (some y) := by
  rw [filterMapM_eq_ok] at h
  rw [h.2, List.mem_filterMap]
  refine exists_congr fun x => and_congr_right fun _ => ?_
  cases f x with
  | error e => simp [Except.toOption]
  | ok o => simp [Except.toOption]

theorem filterAuxM_eq_ok {f : α → Except ε Bool} {xs acc ys : List α}
    (h : xs.filterAuxM f acc = .ok ys) : (∀ x ∈ xs, ∃ kept, f x = .ok kept) ∧
      ys = (xs.filter fun x => (f x).toOption == some true).reverse ++ acc := by
  induction xs generalizing acc with
  | nil => exact ⟨fun x hx => absurd hx List.not_mem_nil, (pure_eq_ok.mp h).symm⟩
  | cons x xs ih =>
      obtain ⟨kept, hx, hrest⟩ := bind_eq_ok.mp h
      obtain ⟨hreturns, hys⟩ := ih hrest
      refine ⟨List.forall_mem_cons.mpr ⟨⟨kept, hx⟩, hreturns⟩, ?_⟩
      rw [hys, List.filter_cons, hx]
      cases kept with
      | false => rfl
      | true => simp [Except.toOption]

theorem filterM_eq_ok {f : α → Except ε Bool} {xs ys : List α} (h : xs.filterM f = .ok ys) :
    (∀ x ∈ xs, ∃ kept, f x = .ok kept) ∧
      ys = xs.filter fun x => (f x).toOption == some true := by
  obtain ⟨zs, hzs, hys⟩ := bind_eq_ok.mp h
  obtain ⟨hreturns, heq⟩ := filterAuxM_eq_ok hzs
  refine ⟨hreturns, ?_⟩
  rw [← pure_eq_ok.mp hys, heq, List.append_nil, List.reverse_reverse]

theorem filterAuxM_returns {f : α → Except ε Bool} {xs : List α} (acc : List α)
    (h : ∀ x ∈ xs, ∃ kept, f x = .ok kept) : ∃ ys, xs.filterAuxM f acc = .ok ys := by
  induction xs generalizing acc with
  | nil => exact ⟨acc, rfl⟩
  | cons x xs ih =>
      obtain ⟨kept, hx⟩ := h x List.mem_cons_self
      obtain ⟨ys, hys⟩ := ih (bif kept then x :: acc else acc)
        fun z hz => h z (List.mem_cons_of_mem _ hz)
      exact ⟨ys, bind_eq_ok.mpr ⟨kept, hx, hys⟩⟩

theorem filterM_returns {f : α → Except ε Bool} {xs : List α}
    (h : ∀ x ∈ xs, ∃ kept, f x = .ok kept) : ∃ ys, xs.filterM f = .ok ys := by
  obtain ⟨ys, hys⟩ := filterAuxM_returns [] h
  exact ⟨ys.reverse, bind_eq_ok.mpr ⟨ys, hys, pure_eq_ok.mpr rfl⟩⟩

/-- A filter by a computation keeps the items for which it returns true. -/
theorem mem_iff_of_filterM_eq_ok {f : α → Except ε Bool} {xs ys : List α}
    (h : xs.filterM f = .ok ys) {y : α} : y ∈ ys ↔ y ∈ xs ∧ f y = .ok true := by
  rw [(filterM_eq_ok h).2, List.mem_filter, beq_iff_eq, toOption_eq_some_iff]

/-- Where each value tells from which item it comes, the items that have one keep their order. -/
theorem sublist_of_filterMapM {f : α → Except ε (Option β)} {g : β → α} {xs : List α}
    {ys : List β} (hg : ∀ x y, f x = .ok (some y) → g y = x) (h : xs.filterMapM f = .ok ys) :
    (ys.map g).Sublist xs := by
  rw [filterMapM_eq_ok] at h
  rw [h.2]
  clear h
  induction xs with
  | nil => exact .slnil
  | cons x xs ih =>
      rw [List.filterMap_cons]
      rcases hx : f x with e | _ | y
      · exact ih.cons x
      · exact ih.cons x
      · show (g y :: _).Sublist _
        rw [hg x y hx]
        exact ih.cons_cons x

/-! A step with a state may be refused as well, and changes the state until then. -/

section

variable {σ : Type} {s s' : σ}

theorem run_pure_eq_ok {a r : α} :
    ((pure a : ExceptT ε (StateM σ) α).run.run s).run = (.ok r, s') ↔ r = a ∧ s' = s := by
  show (Except.ok a, s) = (Except.ok r, s') ↔ r = a ∧ s' = s
  rw [Prod.mk.injEq, Except.ok.injEq]
  exact and_congr eq_comm eq_comm

/-- A step returns through the state that its first part leaves behind. -/
theorem run_bind_eq_ok {x : ExceptT ε (StateM σ) α} {f : α → ExceptT ε (StateM σ) β} {r : β} :
    ((x >>= f).run.run s).run = (.ok r, s') ↔
      ∃ a s₁, (x.run.run s).run = (.ok a, s₁) ∧ ((f a).run.run s₁).run = (.ok r, s') := by
  rw [ExceptT.run_bind, StateT.run_bind]
  simp only [Id.run_bind]
  rcases (x.run.run s).run with ⟨o, s₁⟩
  cases o with
  | error e =>
      show (Except.error e, s₁) = (Except.ok r, s') ↔ _
      simp
  | ok a =>
      constructor
      · intro h
        exact ⟨a, s₁, rfl, h⟩
      · rintro ⟨a', s₂, heq, h⟩
        obtain ⟨rfl, rfl⟩ : a = a' ∧ s₁ = s₂ := by simpa using heq
        exact h

theorem run_get_eq_ok {r : σ} :
    ((get : ExceptT ε (StateM σ) σ).run.run s).run = (.ok r, s') ↔ r = s ∧ s' = s := by
  show (Except.ok s, s) = (Except.ok r, s') ↔ r = s ∧ s' = s
  rw [Prod.mk.injEq, Except.ok.injEq]
  exact and_congr eq_comm eq_comm

theorem run_modify_eq_ok {g : σ → σ} {u : PUnit} :
    ((modify g : ExceptT ε (StateM σ) PUnit).run.run s).run = (.ok u, s') ↔ s' = g s := by
  show (Except.ok PUnit.unit, g s) = (Except.ok u, s') ↔ s' = g s
  simp [eq_comm]

end

end Refusal

/-! ### Steps that write -/

namespace Work

variable {α β : Type}

/-- The step returns a value from a draft and leaves another draft behind. -/
def Returns (w : Work α) (d : Draft) (a : α) (d' : Draft) : Prop :=
  (w.run.run d).run = (.ok a, d')

theorem returns_pure_iff {a r : α} {d d' : Draft} :
    (pure a : Work α).Returns d r d' ↔ r = a ∧ d' = d :=
  Refusal.run_pure_eq_ok

theorem returns_bind_iff {w : Work α} {f : α → Work β} {d d' : Draft} {r : β} :
    (w >>= f).Returns d r d' ↔ ∃ a d₁, w.Returns d a d₁ ∧ (f a).Returns d₁ r d' :=
  Refusal.run_bind_eq_ok

theorem returns_of_iff {x : Except Fault α} {r : α} {d d' : Draft} :
    (Work.of x).Returns d r d' ↔ x = .ok r ∧ d' = d := by
  show (x, d) = (Except.ok r, d') ↔ x = .ok r ∧ d' = d
  rw [Prod.mk.injEq]
  exact and_congr Iff.rfl eq_comm

theorem returns_get_iff {r d d' : Draft} :
    (get : Work Draft).Returns d r d' ↔ r = d ∧ d' = d :=
  Refusal.run_get_eq_ok

theorem returns_modify_iff {g : Draft → Draft} {u : PUnit} {d d' : Draft} :
    (modify g : Work PUnit).Returns d u d' ↔ d' = g d :=
  Refusal.run_modify_eq_ok

/-- A step that leaves a value leaves a draft with it. -/
theorem exists_returns {w : Work α} {f : α → β} {d : Draft} {r : β}
    (h : (w.run.run d).run.1.toOption.map f = some r) : ∃ a d', w.Returns d a d' ∧ f a = r := by
  obtain ⟨a, ha, rfl⟩ := Option.map_eq_some_iff.mp h
  unfold Returns
  rcases hrun : (w.run.run d).run with ⟨o, d'⟩
  rw [hrun] at ha
  cases o with
  | error e => cases ha
  | ok a' =>
      cases ha
      exact ⟨a, d', rfl, rfl⟩

/-- Steps on the items of a list, each from the draft that the one before left behind. -/
inductive Each (f : α → Work β) : List α → Draft → List β → Draft → Prop
  | nil (d : Draft) : Each f [] d [] d
  | cons {x : α} {xs : List α} {y : β} {ys : List β} {d d₁ d' : Draft}
      (head : (f x).Returns d y d₁) (tail : Each f xs d₁ ys d') : Each f (x :: xs) d (y :: ys) d'

theorem returns_mapM_iff {f : α → Work β} {xs : List α} {ys : List β} {d d' : Draft} :
    (xs.mapM f).Returns d ys d' ↔ Each f xs d ys d' := by
  induction xs generalizing ys d with
  | nil =>
      rw [List.mapM_nil, returns_pure_iff]
      constructor
      · rintro ⟨rfl, rfl⟩
        exact .nil d'
      · rintro ⟨⟩
        exact ⟨rfl, rfl⟩
  | cons x xs ih =>
      rw [List.mapM_cons, returns_bind_iff]
      constructor
      · rintro ⟨y, d₁, hy, h⟩
        obtain ⟨zs, d₂, hzs, h⟩ := returns_bind_iff.mp h
        obtain ⟨rfl, rfl⟩ := returns_pure_iff.mp h
        exact .cons hy (ih.mp hzs)
      · rintro ⟨⟩
        rename_i y zs d₁ head tail
        exact ⟨y, d₁, head, returns_bind_iff.mpr
          ⟨zs, d', ih.mpr tail, returns_pure_iff.mpr ⟨rfl, rfl⟩⟩⟩

end Work

end TypePages
