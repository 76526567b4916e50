import TypePages.Proofs.Chains
import TypePages.Proofs.Hiding
import TypePages.Proofs.Lending

/-!
The order in which a method is searched for a donor.

The overridden methods of a method are visited depth first: each one that has not been visited yet,
then whatever it overrides itself, and only then the next one.  `preorder` says this by recursion.  The
search has no recursion of its own but a list of pending methods, to which the methods that the
current one overrides are added in front.  That list is what the recursion has yet to come back to, so
between two of its entries the search has gone through exactly what the recursion lists for the first
one; `donor_through_append` is this, and the rest follows without looking at the search again.

Nothing that is reached is missed, for what has been listed leaves no overridden method unvisited.
-/

namespace TypePages.Model

variable {m : Model} {o : Overlay} {unvisited : List String} {pending later : List Element}
  {e x y z : Element}

/-- The methods that are visited from pending ones, in the order of a recursive visit. -/
def preorder (m : Model) (unvisited : List String) (pending : List Element) : List Element :=
  match pending with
  | [] => []
  | e :: rest =>
    if _h : e.uid ∈ unvisited then
      let visited := e :: preorder m (unvisited.erase e.uid) (m.overridden e)
      visited ++ preorder m (leftOver unvisited visited) rest
    else preorder m unvisited rest
termination_by (unvisited.length, pending.length)
decreasing_by
  · exact Prod.Lex.left _ _ (length_erase_lt _h)
  · exact Prod.Lex.left _ _ (length_leftOver_lt _h)
  · exact Prod.Lex.right _ (Nat.lt_succ_self _)

/-- The methods that a method overrides, directly or not, in the order of a recursive visit. -/
def overrideOrder (m : Model) (e : Element) : List Element :=
  m.preorder (m.uids.erase e.uid) (m.overridden e)

/-- A method directly overrides another one, which is in the model. -/
def Overrides (m : Model) (x y : Element) : Prop := y ∈ m.overridden x

/-! ### What a visit lists -/

theorem uid_mem_of_mem_preorder (h : x ∈ m.preorder unvisited pending) : x.uid ∈ unvisited := by
  fun_induction preorder m unvisited pending with
  | case1 => exact absurd h List.not_mem_nil
  | case2 unvisited e rest hmem visited ih₁ ih₂ =>
      rcases List.mem_append.mp h with h | h
      · rcases List.mem_cons.mp h with rfl | h
        · exact hmem
        · exact List.mem_of_mem_erase (ih₁ h)
      · exact mem_of_mem_leftOver (ih₂ h)
  | case3 unvisited e rest hmem ih => exact ih h

/-- A visit lists no uid twice. -/
theorem nodup_preorder (hu : unvisited.Nodup) :
    ((m.preorder unvisited pending).map (·.uid)).Nodup := by
  fun_induction preorder m unvisited pending with
  | case1 => exact .nil
  | case2 unvisited e rest hmem visited ih₁ ih₂ =>
      have hbelow : (visited.map (·.uid)).Nodup := by
        refine List.nodup_cons.mpr ⟨fun hin => ?_, ih₁ (hu.erase e.uid)⟩
        obtain ⟨x, hx, huid⟩ := List.mem_map.mp hin
        exact hu.not_mem_erase (huid ▸ uid_mem_of_mem_preorder hx)
      rw [List.map_append]
      refine List.nodup_append.mpr ⟨hbelow, ih₂ (nodup_leftOver hu), ?_⟩
      rintro uid hin _ hafter rfl
      obtain ⟨x, hx, rfl⟩ := List.mem_map.mp hafter
      exact ((mem_leftOver_iff hu).mp (uid_mem_of_mem_preorder hx)).2 hin
  | case3 unvisited e rest hmem ih => exact ih hu

theorem reached_of_mem_preorder (h : x ∈ m.preorder unvisited pending) :
    ∃ y ∈ pending, Relation.ReflTransGen m.Overrides y x := by
  fun_induction preorder m unvisited pending with
  | case1 => exact absurd h List.not_mem_nil
  | case2 unvisited e rest hmem visited ih₁ ih₂ =>
      rcases List.mem_append.mp h with h | h
      · rcases List.mem_cons.mp h with rfl | h
        · exact ⟨x, List.mem_cons_self, .refl⟩
        · obtain ⟨y, hy, hreached⟩ := ih₁ h
          exact ⟨e, List.mem_cons_self, .head hy hreached⟩
      · obtain ⟨y, hy, hreached⟩ := ih₂ h
        exact ⟨y, List.mem_cons_of_mem e hy, hreached⟩
  | case3 unvisited e rest hmem ih =>
      obtain ⟨y, hy, hreached⟩ := ih h
      exact ⟨y, List.mem_cons_of_mem e hy, hreached⟩

/-- A visit leaves nothing unvisited of what was pending, or of what a listed method overrides. -/
theorem uid_notMem_leftOver (hu : unvisited.Nodup)
    (h : y ∈ pending ∨ ∃ x ∈ m.preorder unvisited pending, m.Overrides x y) :
    y.uid ∉ leftOver unvisited (m.preorder unvisited pending) := by
  fun_induction preorder m unvisited pending with
  | case1 => simp at h
  | case2 unvisited e rest hmem visited ih₁ ih₂ =>
      rw [leftOver_append]
      -- What is not left over by the first visit is not left over by the second.
      have hbelow : (y ∈ m.overridden e ∨
            ∃ x ∈ m.preorder (unvisited.erase e.uid) (m.overridden e), m.Overrides x y) →
          y.uid ∉ leftOver unvisited visited := by
        intro h hin
        rw [leftOver_cons] at hin
        exact ih₁ (hu.erase e.uid) h hin
      rcases h with h | ⟨x, hx, hxy⟩
      · rcases List.mem_cons.mp h with rfl | h
        · intro hin
          exact ((mem_leftOver_iff hu).mp (mem_of_mem_leftOver hin)).2 List.mem_cons_self
        · exact ih₂ (nodup_leftOver hu) (.inl h)
      · rcases List.mem_append.mp hx with hx | hx
        · refine mt mem_of_mem_leftOver (hbelow ?_)
          rcases List.mem_cons.mp hx with rfl | hx
          · exact .inl hxy
          · exact .inr ⟨x, hx, hxy⟩
        · exact ih₂ (nodup_leftOver hu) (.inr ⟨x, hx, hxy⟩)
  | case3 unvisited e rest hmem ih =>
      rcases h with h | h
      · rcases List.mem_cons.mp h with rfl | h
        · exact fun hin => hmem (mem_of_mem_leftOver hin)
        · exact ih hu (.inl h)
      · exact ih hu (.inr h)

/-! ### What the order of a method lists -/

theorem mem_elements_of_transGen (h : Relation.TransGen m.Overrides e x) : x ∈ m.elements := by
  cases h with
  | single hlast => exact DonorSearch.mem_elements_of_overridden hlast
  | tail _ hlast => exact DonorSearch.mem_elements_of_overridden hlast

theorem transGen_of_mem_overrideOrder (h : x ∈ m.overrideOrder e) :
    Relation.TransGen m.Overrides e x := by
  obtain ⟨y, hy, hreached⟩ := reached_of_mem_preorder h
  exact .head' hy hreached

/-- What a method or a listed one overrides is listed as well, or it is the method itself. -/
theorem mem_overrideOrder_of_overrides (he : e ∈ m.elements)
    (hy : y = e ∨ y ∈ m.overrideOrder e) (hyz : m.Overrides y z) :
    z = e ∨ z ∈ m.overrideOrder e := by
  have hu := m.nodup_uids.erase e.uid
  have hz : z ∈ m.elements := DonorSearch.mem_elements_of_overridden hyz
  have hvisited : z.uid ∉ leftOver (m.uids.erase e.uid) (m.overrideOrder e) := by
    refine uid_notMem_leftOver hu ?_
    rcases hy with rfl | hy
    · exact .inl hyz
    · exact .inr ⟨y, hy, hyz⟩
  by_cases huid : z.uid = e.uid
  · exact .inl (Catalog.eq_of_uid_eq hz he huid)
  · have hin : z.uid ∈ m.uids.erase e.uid :=
      (List.mem_erase_of_ne huid).mpr (List.mem_map_of_mem hz)
    have hknown : ∀ w ∈ m.overrideOrder e, w ∈ m.elements :=
      fun w hw => mem_elements_of_transGen (transGen_of_mem_overrideOrder hw)
    rw [mem_leftOver_iff hu, not_and, not_not, uid_mem_map_iff hknown hz] at hvisited
    exact .inr (hvisited hin)

/-- The order lists exactly the other methods that are reached. -/
theorem mem_overrideOrder_iff (he : e ∈ m.elements) :
    x ∈ m.overrideOrder e ↔ Relation.TransGen m.Overrides e x ∧ x ≠ e := by
  constructor
  · intro hx
    refine ⟨transGen_of_mem_overrideOrder hx, ?_⟩
    rintro rfl
    exact m.nodup_uids.not_mem_erase (uid_mem_of_mem_preorder hx)
  · rintro ⟨hreached, hne⟩
    have hall : x = e ∨ x ∈ m.overrideOrder e := by
      clear hne
      induction hreached with
      | single hlast => exact mem_overrideOrder_of_overrides he (.inl rfl) hlast
      | tail _ hlast ih => exact mem_overrideOrder_of_overrides he ih hlast
    exact hall.resolve_left hne

/-! ### What the search finds -/

/-- The search goes through what a visit lists for the first pending methods before it comes to the
others. -/
theorem donor_through_append (m : Model) (o : Overlay) (unvisited : List String)
    (pending later : List Element) :
    (DonorSearch.through m o unvisited (pending ++ later)).donor =
      ((m.preorder unvisited pending).find? (o.firstSentence · ≠ "")).or
        (DonorSearch.through m o (leftOver unvisited (m.preorder unvisited pending)) later).donor := by
  fun_induction preorder m unvisited pending generalizing later with
  | case1 => rfl
  | case2 unvisited e rest hmem visited ih₁ ih₂ =>
      rw [List.cons_append, DonorSearch.through, dif_pos hmem]
      by_cases hempty : o.firstSentence e = ""
      · -- The search goes on below the method before it comes to the rest, as the visit does.
        have hvisited : visited.find? (o.firstSentence · ≠ "") =
            (m.preorder (unvisited.erase e.uid) (m.overridden e)).find?
              (o.firstSentence · ≠ "") := by
          rw [List.find?_cons_of_neg (by simpa using hempty)]
        rw [if_neg (not_not_intro hempty), DonorSearch.after, ih₁, ← leftOver_cons, ih₂,
          List.find?_append, Option.or_assoc, hvisited, leftOver_append]
      · rw [if_pos hempty, List.find?_append, List.find?_cons_of_pos (by simpa using hempty)]
        rfl
  | case3 unvisited e rest hmem ih =>
      rw [List.cons_append, DonorSearch.through, dif_neg hmem]
      exact ih later

/-- The donor is the first method of the order that has a first sentence. -/
theorem donor?_eq (m : Model) (o : Overlay) (e : Element) :
    m.donor? o e = (m.overrideOrder e).find? (o.firstSentence · ≠ "") := by
  have happend := donor_through_append m o (m.uids.erase e.uid) (m.overridden e) []
  rw [List.append_nil, DonorSearch.through] at happend
  rw [donor?, DonorSearch.ofMethod, happend, Option.or_none]
  rfl

/-- **A method borrows from the first commented method of a recursive depth-first visit.**  The visit
lists each other method once that is reached along overridden ones, on whatever circles and shared
ways these lie, and it lists no more.  So there is no donor exactly if no method that is reached has a
first sentence. -/
theorem donor_of_overrideOrder (he : e ∈ m.elements) (o : Overlay) :
    ((m.overrideOrder e).map (·.uid)).Nodup ∧
      (∀ x, x ∈ m.overrideOrder e ↔ Relation.TransGen m.Overrides e x ∧ x ≠ e) ∧
      m.donor? o e = (m.overrideOrder e).find? (fun x => o.firstSentence x ≠ "") ∧
      (m.donor? o e = none ↔
        ∀ x, Relation.TransGen m.Overrides e x → x ≠ e → o.firstSentence x = "") := by
  have hmem : ∀ x, x ∈ m.overrideOrder e ↔ Relation.TransGen m.Overrides e x ∧ x ≠ e :=
    fun x => mem_overrideOrder_iff he
  refine ⟨nodup_preorder (m.nodup_uids.erase e.uid), hmem, donor?_eq m o e, ?_⟩
  rw [donor?_eq, List.find?_eq_none]
  constructor
  · intro hnone x hreached hne
    simpa using hnone x ((hmem x).mpr ⟨hreached, hne⟩)
  · intro hall x hx
    obtain ⟨hreached, hne⟩ := (hmem x).mp hx
    simpa using hall x hreached hne

/-! A puppet moves as a toy, as a doll and as a robot, of which nothing is known.  A toy moves as a
puppet, and like a doll it moves as a thing.  What is written over the doll comes too late. -/

/-- A method `move` that overrides others. -/
def moveOf (owner : String) (overrides : List String) (comment : Option Comment) : Element :=
  { Table.sampleMethod owner "move" "public" [] with overrides, comment }

/-- How a puppet moves. -/
def puppetMove : Element := moveOf "Puppet" ["Toy.move", "Robot.move", "Doll.move"] none

/-- How a toy moves. -/
def toyMove : Element := moveOf "Toy" ["Puppet.move", "Thing.move"] none

/-- How a doll moves. -/
def dollMove : Element := moveOf "Doll" ["Thing.move"] none

/-- How a thing moves. -/
def thingMove : Element := moveOf "Thing" [] (some ⟨"Moves the thing.  It may fall.", []⟩)

/-- The movements. -/
def movements : Model where
  elements := [thingMove, dollMove, puppetMove, toyMove]
  distinct_uids := by decide +kernel
  minAccess := .text "public"
  external := []

/-- A comment over the movement of dolls. -/
def overDoll : Overlay := Overlay.empty.install dollMove ⟨"Moves the doll.", []⟩

theorem donor_of_overrideOrder_puppet :
    puppetMove ∈ movements.elements ∧
      movements.overrideOrder puppetMove = [toyMove, thingMove, dollMove] ∧
      Relation.TransGen movements.Overrides puppetMove dollMove ∧
      overDoll.firstSentence dollMove = "Moves the doll." ∧
      movements.donor? overDoll puppetMove = some thingMove := by
  have hmem : puppetMove ∈ movements.elements := by decide +kernel
  have horder : movements.overrideOrder puppetMove = [toyMove, thingMove, dollMove] := by cbv
  obtain ⟨-, hreached, hdonor, -⟩ := donor_of_overrideOrder hmem overDoll
  have hdoll : dollMove ∈ movements.overrideOrder puppetMove := by
    rw [horder]
    decide +kernel
  refine ⟨hmem, horder, ((hreached dollMove).mp hdoll).1, by decide +kernel, ?_⟩
  rw [hdonor, horder]
  decide +kernel

end TypePages.Model
