import TypePages.Proofs.Chains
import TypePages.Proofs.Hiding

/-!
The supertypes of a type, layer by layer.

The walk along interfaces takes uids from the front of its queue and puts new ones at the end.  What
is in the queue at one moment is therefore gone through before anything that is found on the way, and
`spread_append` cuts the walk there: first the layer of what was pending, then a walk that starts from
the interfaces of this layer.  `Frontier` is what holds between two layers.  All that is pending lies
the same number of interface edges from the class line, nothing nearer is left to visit, and nothing
at this distance is missing.

So the walk lists what is reached, in the order of the distances.  It may have passed a missing uid or
one that is a superclass too: neither is unvisited, and a shorter way never leads through it.
-/

namespace TypePages.Model

variable {m : Model} {line : List Element} {unvisited pending : List String} {e x y : Element}
  {k n : Nat}

/-! ### Interface edges -/

/-- An element names another one, which is in the model, as an interface. -/
def Implements (m : Model) (x y : Element) : Prop := ∃ uid ∈ x.interfaces, m.find? uid = some y

/-- An element is reached from a line by so many interface edges. -/
inductive Away (m : Model) (line : List Element) : Nat → Element → Prop
  | start {x : Element} (mem : x ∈ line) : Away m line 0 x
  | step {n : Nat} {x y : Element} (away : Away m line n x) (edge : m.Implements x y) :
      Away m line (n + 1) y

theorem mem_elements_of_implements (h : m.Implements x y) : y ∈ m.elements := by
  obtain ⟨uid, -, hfind⟩ := h
  exact mem_elements_of_find? hfind

theorem mem_elements_of_away (hline : ∀ x ∈ line, x ∈ m.elements) (h : m.Away line n x) :
    x ∈ m.elements := by
  cases h with
  | start mem => exact hline x mem
  | step _ edge => exact mem_elements_of_implements edge

/-! ### Layers of the walk -/

/-- The elements of pending uids as far as they are unvisited, each once. -/
def layer (m : Model) (unvisited : List String) : List String → List Element
  | [] => []
  | uid :: rest =>
    if uid ∈ unvisited then
      match m.find? uid with
      | some e => e :: layer m (unvisited.erase uid) rest
      | none => layer m unvisited rest
    else layer m unvisited rest

/-- What is pending is gone through before what is pending later, and adds its interfaces behind. -/
theorem spread_append (unvisited pending later : List String) :
    m.spread unvisited (pending ++ later) = m.layer unvisited pending ++
      m.spread (leftOver unvisited (m.layer unvisited pending))
        (later ++ (m.layer unvisited pending).flatMap (·.interfaces)) := by
  fun_induction layer m unvisited pending generalizing later with
  | case1 unvisited => rw [List.flatMap_nil, List.append_nil]; rfl
  | case2 unvisited uid rest hmem e hfind ih =>
      have huid : e.uid = uid := (find?_eq_some_iff.mp hfind).2
      rw [List.cons_append, spread, dif_pos hmem]
      simp only [hfind]
      rw [List.append_assoc, ih, leftOver_cons, huid, List.flatMap_cons, List.cons_append,
        List.append_assoc]
  | case3 unvisited uid rest hmem hfind ih =>
      rw [List.cons_append, spread, dif_pos hmem]
      simp only [hfind]
      exact ih later
  | case4 unvisited uid rest hmem ih =>
      rw [List.cons_append, spread, dif_neg hmem]
      exact ih later

theorem spread_eq (unvisited pending : List String) :
    m.spread unvisited pending = m.layer unvisited pending ++
      m.spread (leftOver unvisited (m.layer unvisited pending))
        ((m.layer unvisited pending).flatMap (·.interfaces)) := by
  have happend := m.spread_append unvisited pending []
  rwa [List.append_nil, List.nil_append] at happend

theorem mem_layer_iff :
    x ∈ m.layer unvisited pending ↔ x ∈ m.elements ∧ x.uid ∈ unvisited ∧ x.uid ∈ pending := by
  fun_induction layer m unvisited pending with
  | case1 => simp
  | case2 unvisited uid rest hmem e hfind ih =>
      obtain ⟨he, rfl⟩ := find?_eq_some_iff.mp hfind
      rw [List.mem_cons, ih, List.mem_cons]
      by_cases huid : x.uid = e.uid
      · constructor
        · rintro (rfl | ⟨hx, -, -⟩)
          · exact ⟨he, hmem, .inl rfl⟩
          · exact ⟨hx, huid ▸ hmem, .inl huid⟩
        · rintro ⟨hx, -, -⟩
          exact .inl (Catalog.eq_of_uid_eq hx he huid)
      · have hne : x ≠ e := fun heq => huid (congrArg (·.uid) heq)
        simp [huid, hne, List.mem_erase_of_ne huid]
  | case3 unvisited uid rest hmem hfind ih =>
      have hne : x ∈ m.elements → x.uid ≠ uid := by
        rintro hx rfl
        rw [find?_eq_some_iff.mpr ⟨hx, rfl⟩] at hfind
        cases hfind
      rw [ih, List.mem_cons]
      exact and_congr_right fun hx => and_congr_right fun _ => by simp [hne hx]
  | case4 unvisited uid rest hmem ih =>
      rw [ih, List.mem_cons]
      refine and_congr_right fun _ => and_congr_right fun hx => ?_
      have hne : x.uid ≠ uid := fun heq => hmem (heq ▸ hx)
      simp [hne]

theorem uid_mem_leftOver_layer_iff (hu : unvisited.Nodup) (hx : x ∈ m.elements) :
    x.uid ∈ leftOver unvisited (m.layer unvisited pending) ↔
      x.uid ∈ unvisited ∧ x ∉ m.layer unvisited pending := by
  rw [mem_leftOver_iff hu, uid_mem_map_iff (fun y hy => (mem_layer_iff.mp hy).1) hx]

/-! ### Between two layers -/

/-- All that is pending is so many edges away, and what is unvisited is no nearer. -/
structure Frontier (m : Model) (line : List Element) (n : Nat) (unvisited pending : List String) :
    Prop where
  /-- What is pending is at that distance. -/
  sound : ∀ uid ∈ pending, ∀ y, m.find? uid = some y → m.Away line n y
  /-- What is unvisited is nowhere nearer. -/
  far : ∀ y k, m.Away line k y → y.uid ∈ unvisited → n ≤ k
  /-- What is unvisited at that distance is pending. -/
  complete : ∀ y, m.Away line n y → y.uid ∈ unvisited → y.uid ∈ pending
  /-- What is reached and has been visited is nearer. -/
  visited : ∀ y k, m.Away line k y → y.uid ∉ unvisited → ∃ j < n, m.Away line j y

namespace Frontier

variable (h : m.Frontier line n unvisited pending)

include h

theorem away_of_mem_layer (hx : x ∈ m.layer unvisited pending) : m.Away line n x := by
  obtain ⟨hx, -, hpending⟩ := mem_layer_iff.mp hx
  exact h.sound x.uid hpending x (find?_eq_some_iff.mpr ⟨hx, rfl⟩)

/-- Behind one layer stands the frontier of the next. -/
theorem next (hline : ∀ x ∈ line, x ∈ m.elements) (hu : unvisited.Nodup) :
    m.Frontier line (n + 1) (leftOver unvisited (m.layer unvisited pending))
      ((m.layer unvisited pending).flatMap (·.interfaces)) := by
  have hfar : ∀ y k, m.Away line k y → y.uid ∈ leftOver unvisited (m.layer unvisited pending) →
      n + 1 ≤ k := by
    intro y k hy hmem
    have helem := mem_elements_of_away hline hy
    obtain ⟨hunvisited, hnot⟩ := (uid_mem_leftOver_layer_iff hu helem).mp hmem
    refine Nat.lt_of_le_of_ne (h.far y k hy hunvisited) ?_
    rintro rfl
    exact hnot (mem_layer_iff.mpr ⟨helem, hunvisited, h.complete y hy hunvisited⟩)
  refine ⟨?_, hfar, ?_, ?_⟩
  · intro uid huid y hfind
    obtain ⟨x, hx, hmem⟩ := List.mem_flatMap.mp huid
    exact .step (h.away_of_mem_layer hx) ⟨uid, hmem, hfind⟩
  · intro y hy hmem
    cases hy with
    | @step _ x _ hx edge =>
        obtain ⟨uid, huid, hfind⟩ := edge
        refine List.mem_flatMap.mpr ⟨x, ?_, (find?_eq_some_iff.mp hfind).2 ▸ huid⟩
        by_cases hunvisited : x.uid ∈ unvisited
        · exact mem_layer_iff.mpr ⟨mem_elements_of_away hline hx, hunvisited,
            h.complete x hx hunvisited⟩
        · -- A nearer `x` would have brought `y` nearer than it is.
          obtain ⟨j, hj, hxj⟩ := h.visited x n hx hunvisited
          have hle := hfar y (j + 1) (.step hxj ⟨uid, huid, hfind⟩) hmem
          exact absurd hle (by omega)
  · intro y k hy hnot
    have helem := mem_elements_of_away hline hy
    by_cases hunvisited : y.uid ∈ unvisited
    · have hlayer : y ∈ m.layer unvisited pending := by
        by_contra hout
        exact hnot ((uid_mem_leftOver_layer_iff hu helem).mpr ⟨hunvisited, hout⟩)
      exact ⟨n, Nat.lt_succ_self n, h.away_of_mem_layer hlayer⟩
    · obtain ⟨j, hj, hyj⟩ := h.visited y k hy hunvisited
      exact ⟨j, Nat.lt_succ_of_lt hj, hyj⟩

end Frontier

/-- With nothing pending everything that is reached has been visited. -/
theorem Frontier.uid_notMem (h : m.Frontier line n unvisited []) (hy : m.Away line k y) :
    y.uid ∉ unvisited := by
  induction hy with
  | start mem =>
      intro hmem
      obtain rfl := Nat.le_zero.mp (h.far _ 0 (.start mem) hmem)
      exact absurd (h.complete _ (.start mem) hmem) List.not_mem_nil
  | @step k x y hx edge ih =>
      intro hmem
      obtain ⟨j, hj, hxj⟩ := h.visited x k hx ih
      have hle := h.far y (j + 1) (.step hxj edge) hmem
      obtain rfl : n = j + 1 := by omega
      exact absurd (h.complete y (.step hxj edge) hmem) List.not_mem_nil

/-- An element is no farther away than another. -/
def NoFarther (m : Model) (line : List Element) (x y : Element) : Prop :=
  ∀ k, m.Away line k y → ∃ j ≤ k, m.Away line j x

/-- What a layer holds is no farther away than all that is unvisited. -/
theorem Frontier.noFarther (h : m.Frontier line n unvisited pending)
    (hx : x ∈ m.layer unvisited pending) (hy : y.uid ∈ unvisited) : m.NoFarther line x y :=
  fun k hk => ⟨n, h.far y k hk hy, h.away_of_mem_layer hx⟩

/-- From a frontier the walk lists what is reached and unvisited, nearest first. -/
theorem Frontier.spread (hline : ∀ x ∈ line, x ∈ m.elements) (hu : unvisited.Nodup)
    (h : m.Frontier line n unvisited pending) :
    (∀ x, x ∈ m.spread unvisited pending ↔ x.uid ∈ unvisited ∧ ∃ k, m.Away line k x) ∧
      (m.spread unvisited pending).Pairwise (m.NoFarther line) := by
  induction hlength : unvisited.length using Nat.strong_induction_on
    generalizing n unvisited pending with
  | _ length ih =>
      have hnext := h.next hline hu
      rw [spread_eq]
      by_cases hempty : m.layer unvisited pending = []
      · rw [hempty] at hnext
        rw [hempty, List.flatMap_nil, Model.spread, List.append_nil]
        refine ⟨fun x => ?_, .nil⟩
        simp only [List.not_mem_nil, false_iff, not_and, not_exists]
        exact fun hx k hk => hnext.uid_notMem hk hx
      · obtain ⟨z, zs, hlayer⟩ := List.exists_cons_of_ne_nil hempty
        have hz : z ∈ m.layer unvisited pending := hlayer ▸ List.mem_cons_self
        have hless : (leftOver unvisited (m.layer unvisited pending)).length < length := by
          rw [hlayer, ← hlength]
          exact length_leftOver_lt (mem_layer_iff.mp hz).2.1
        obtain ⟨hmem, hpairwise⟩ := ih _ hless (nodup_leftOver hu) hnext rfl
        refine ⟨fun x => ?_, List.pairwise_append.mpr ⟨?_, hpairwise, ?_⟩⟩
        · rw [List.mem_append, hmem]
          constructor
          · rintro (hx | ⟨hx, hk⟩)
            · exact ⟨(mem_layer_iff.mp hx).2.1, n, h.away_of_mem_layer hx⟩
            · exact ⟨mem_of_mem_leftOver hx, hk⟩
          · rintro ⟨hx, k, hk⟩
            rw [uid_mem_leftOver_layer_iff hu (mem_elements_of_away hline hk)]
            by_cases hin : x ∈ m.layer unvisited pending
            · exact .inl hin
            · exact .inr ⟨⟨hx, hin⟩, k, hk⟩
        · exact List.pairwise_of_forall_mem_list fun x hx y hy =>
            h.noFarther hx (mem_layer_iff.mp hy).2.1
        · exact fun x hx y hy => h.noFarther hx (mem_of_mem_leftOver ((hmem y).mp hy).1)

/-! ### The whole family -/

theorem mem_elements_of_superclass? (h : m.superclass? x = some y) : y ∈ m.elements := by
  obtain ⟨uid, -, hfind⟩ := Option.bind_eq_some_iff.mp h
  exact mem_elements_of_find? hfind

theorem mem_elements_of_classLine (he : e ∈ m.elements) : ∀ x ∈ m.classLine e, x ∈ m.elements :=
  fun _ hx => mem_elements_of_reached he mem_elements_of_superclass?
    ((mem_line_iff he mem_elements_of_superclass?).mp hx)

/-- The uids that the walk along superclasses has left. -/
theorem uid_mem_left_iff (he : e ∈ m.elements) (hx : x ∈ m.elements) :
    x.uid ∈ m.uids.filter (!((m.classLine e).map (·.uid)).contains ·) ↔ x ∉ m.classLine e := by
  have hin : x.uid ∈ m.uids := List.mem_map_of_mem hx
  rw [List.mem_filter, Bool.not_eq_true', ← Bool.not_eq_true, List.contains_iff_mem,
    uid_mem_map_iff (mem_elements_of_classLine he) hx]
  exact and_iff_right hin

/-- The walk along interfaces starts one edge away from the class line. -/
theorem frontier_classLine (he : e ∈ m.elements) :
    m.Frontier (m.classLine e) 1 (m.uids.filter (!((m.classLine e).map (·.uid)).contains ·))
      ((m.classLine e).flatMap (·.interfaces)) := by
  have hline := mem_elements_of_classLine he
  refine ⟨?_, ?_, ?_, ?_⟩
  · intro uid huid y hfind
    obtain ⟨x, hx, hmem⟩ := List.mem_flatMap.mp huid
    exact .step (.start hx) ⟨uid, hmem, hfind⟩
  · intro y k hy hmem
    cases hy with
    | start mem => exact absurd mem ((uid_mem_left_iff he (hline y mem)).mp hmem)
    | step _ _ => exact Nat.succ_pos _
  · intro y hy _
    cases hy with
    | step away edge =>
        cases away with
        | start mem =>
            obtain ⟨uid, huid, hfind⟩ := edge
            exact List.mem_flatMap.mpr ⟨_, mem, (find?_eq_some_iff.mp hfind).2 ▸ huid⟩
  · intro y k hy hnot
    rw [uid_mem_left_iff he (mem_elements_of_away hline hy), not_not] at hnot
    exact ⟨0, Nat.one_pos, .start hnot⟩

/-- The superclasses of an element as far as they go: each is the one before's superclass, until that
is not in the model or comes back. -/
structure IsClassLine (m : Model) (e : Element) (line : List Element) : Prop where
  head : line.head? = some e
  links : line.IsChain (Leads m.superclass?)
  ends : ∀ x ∈ line.getLast?, ∀ y, m.superclass? x = some y → y ∈ line

/-- What is reached from a line by interface edges and is not on it, nearest first. -/
structure Surrounds (m : Model) (line interfaces : List Element) : Prop where
  reached : ∀ x, x ∈ interfaces ↔ x ∉ line ∧ ∃ n, m.Away line (n + 1) x
  nearest : ∃ distance : Element → Nat,
    (∀ x ∈ interfaces, IsLeast {n | m.Away line n x} (distance x)) ∧
      interfaces.Pairwise fun x y => distance x ≤ distance y

theorem isClassLine_classLine (he : e ∈ m.elements) : m.IsClassLine e (m.classLine e) where
  head := rfl
  links := isChain_line
  ends _ hx _ hnext :=
    mem_line_of_leads he mem_elements_of_superclass? (List.mem_of_getLast? hx) hnext

theorem surrounds_allInterfaces (he : e ∈ m.elements) :
    m.Surrounds (m.classLine e) (m.allInterfaces e) := by
  have hline := mem_elements_of_classLine he
  obtain ⟨hmem, hpairwise⟩ := (frontier_classLine he).spread hline (m.nodup_uids.filter _)
  refine ⟨fun x => ?_, fun x => sInf {n | m.Away (m.classLine e) n x}, fun x hx => ?_, ?_⟩
  · constructor
    · intro hx
      obtain ⟨hleft, k, hk⟩ := (hmem x).mp hx
      have hnot := (uid_mem_left_iff he (mem_elements_of_away hline hk)).mp hleft
      cases hk with
      | start mem => exact absurd mem hnot
      | @step k _ _ away edge => exact ⟨hnot, k, .step away edge⟩
    · rintro ⟨hnot, k, hk⟩
      exact (hmem x).mpr
        ⟨(uid_mem_left_iff he (mem_elements_of_away hline hk)).mpr hnot, k + 1, hk⟩
  · obtain ⟨-, k, hk⟩ := (hmem x).mp hx
    exact ⟨Nat.sInf_mem ⟨k, hk⟩, fun n hn => Nat.sInf_le hn⟩
  · refine hpairwise.imp_of_mem fun {x y} _ hy hfarther => ?_
    obtain ⟨-, k, hk⟩ := (hmem y).mp hy
    have hleast : m.Away (m.classLine e) (sInf {n | m.Away (m.classLine e) n y}) y :=
      Nat.sInf_mem (⟨k, hk⟩ : {n | m.Away (m.classLine e) n y}.Nonempty)
    obtain ⟨j, hle, hj⟩ := hfarther _ hleast
    exact (Nat.sInf_le hj).trans hle

/-- All of a family is reached from its class line, and all that is reached is in it. -/
theorem mem_family_iff (he : e ∈ m.elements) :
    x ∈ m.family e ↔ ∃ n, m.Away (m.classLine e) n x := by
  have heq : m.family e = m.classLine e ++ m.allInterfaces e := rfl
  rw [heq, List.mem_append, (surrounds_allInterfaces he).reached]
  constructor
  · rintro (hx | ⟨-, n, hn⟩)
    · exact ⟨0, .start hx⟩
    · exact ⟨n + 1, hn⟩
  · rintro ⟨n, hn⟩
    by_cases hline : x ∈ m.classLine e
    · exact .inl hline
    · cases hn with
      | start mem => exact absurd mem hline
      | @step n _ _ away edge => exact .inr ⟨hline, n, .step away edge⟩

/-- **A type and its supertypes stand in the order of their distance.**  No uid occurs twice.  First
come the type and its superclasses as far as they go, and then what else is reached from these by
interface edges, in the order of how many edges it takes.  So with an element all its interfaces are
listed that are in the model. -/
theorem family_by_distance (he : e ∈ m.elements) :
    ((m.family e).map (·.uid)).Nodup ∧
      (∃ line interfaces, m.family e = line ++ interfaces ∧ m.IsClassLine e line ∧
        m.Surrounds line interfaces) ∧
      ∀ x ∈ m.family e, ∀ y, m.Implements x y → y ∈ m.family e := by
  refine ⟨m.nodup_family e, ⟨m.classLine e, m.allInterfaces e, rfl, isClassLine_classLine he,
    surrounds_allInterfaces he⟩, fun x hx y hxy => ?_⟩
  obtain ⟨n, hn⟩ := (mem_family_iff he).mp hx
  exact (mem_family_iff he).mpr ⟨n + 1, .step hn hxy⟩

/-! A knife is a tool, and a tool a knife.  What is sharp is also handled, and so is a tool; all that
is handled is held, and sharp.  Knives are forged too, of which nothing is known. -/

/-- The class of knives. -/
def knife : Element := Table.sampleType .classType "Knife" (some "Tool") ["Forged", "Sharp"]

/-- The interface of what is sharp. -/
def sharp : Element := Table.sampleType .interfaceType "Sharp" none ["Held", "Handled"]

/-- The interface of what has a handle. -/
def handled : Element := Table.sampleType .interfaceType "Handled" none ["Held", "Sharp"]

/-- Knives and tools. -/
def tools : Model where
  elements := [knife, Table.sampleType .classType "Tool" (some "Knife") ["Handled"], sharp, handled,
    Table.sampleType .interfaceType "Held" none []]
  distinct_uids := by decide +kernel
  minAccess := .text "public"
  external := []

theorem family_by_distance_knife :
    knife ∈ tools.elements ∧
      (tools.family knife).map (·.uid) = ["Knife", "Tool", "Sharp", "Handled", "Held"] ∧
      ((tools.family knife).map (·.uid)).Nodup ∧
      (∃ line interfaces, tools.family knife = line ++ interfaces ∧ tools.IsClassLine knife line ∧
        tools.Surrounds line interfaces) ∧
      sharp ∈ tools.family knife ∧ tools.Implements sharp handled ∧
        handled ∈ tools.family knife := by
  have hmem : knife ∈ tools.elements := by decide +kernel
  have huids : (tools.family knife).map (·.uid) = ["Knife", "Tool", "Sharp", "Handled", "Held"] := by
    cbv
  have hsharp : sharp ∈ tools.family knife := by
    have hfamily : tools.family knife = [knife, Table.sampleType .classType "Tool" (some "Knife")
        ["Handled"], sharp, handled, Table.sampleType .interfaceType "Held" none []] := by cbv
    rw [hfamily]
    decide +kernel
  have hedge : tools.Implements sharp handled := ⟨"Handled", by decide +kernel, by decide +kernel⟩
  obtain ⟨hnodup, hfamily, hclosed⟩ := family_by_distance hmem
  exact ⟨hmem, huids, hnodup, hfamily, hsharp, hedge, hclosed sharp hsharp handled hedge⟩

end TypePages.Model
