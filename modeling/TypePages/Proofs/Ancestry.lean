import TypePages.Model.Ancestry
import TypePages.Proofs.Catalog

/-!
No type is its own supertype, and none occurs twice among the supertypes of another.

The hierarchy of a model may be cyclic, shared and incomplete.  What keeps the walks from going
round is the list of uids that they have not visited: a walk takes a uid off that list when it lists
the element, and lists only elements that are still on it.  So the elements that a walk lists are
distinct, and they are among those it was allowed to visit.  The walk along interfaces starts from
what the walk along superclasses has left, which is why the two together are distinct as well.
-/

namespace TypePages.Model

variable {m : Model} {e x : Element} {unvisited : List String}

/-! ### Along a link -/

section Chain

variable {next : Element → Option Element}

theorem uid_mem_of_mem_chain (h : x ∈ chain next unvisited e) : x.uid ∈ unvisited := by
  fun_induction chain next unvisited e with
  | case1 => simp at h
  | case2 unvisited e e' hnext hmem ih =>
      rcases List.mem_cons.mp h with rfl | hx
      · exact hmem
      · exact List.mem_of_mem_erase (ih hx)
  | case3 => simp at h

theorem nodup_chain (hu : unvisited.Nodup) : ((chain next unvisited e).map (·.uid)).Nodup := by
  fun_induction chain next unvisited e with
  | case1 => simp
  | case2 unvisited e e' hnext hmem ih =>
      rw [List.map_cons, List.nodup_cons]
      refine ⟨?_, ih (hu.erase _)⟩
      intro hc
      obtain ⟨y, hy, huid⟩ := List.mem_map.mp hc
      have := uid_mem_of_mem_chain hy
      rw [huid] at this
      exact hu.not_mem_erase this
  | case3 => simp

end Chain

/-! ### Along interfaces -/

section Spread

variable {pending : List String}

theorem uid_mem_of_mem_spread (h : x ∈ m.spread unvisited pending) : x.uid ∈ unvisited := by
  fun_induction spread m unvisited pending with
  | case1 => simp at h
  | case2 unvisited uid rest hmem e hfind ih =>
      rcases List.mem_cons.mp h with rfl | hx
      · rwa [(find?_eq_some_iff.mp hfind).2]
      · exact List.mem_of_mem_erase (ih hx)
  | case3 unvisited uid rest hmem hfind ih => exact ih h
  | case4 unvisited uid rest hmem ih => exact ih h

theorem nodup_spread (hu : unvisited.Nodup) : ((m.spread unvisited pending).map (·.uid)).Nodup := by
  fun_induction spread m unvisited pending with
  | case1 => simp
  | case2 unvisited uid rest hmem e hfind ih =>
      rw [List.map_cons, List.nodup_cons]
      refine ⟨?_, ih (hu.erase _)⟩
      intro hc
      obtain ⟨y, hy, huid⟩ := List.mem_map.mp hc
      have := uid_mem_of_mem_spread hy
      rw [huid, (find?_eq_some_iff.mp hfind).2] at this
      exact hu.not_mem_erase this
  | case3 unvisited uid rest hmem hfind ih => exact ih hu
  | case4 unvisited uid rest hmem ih => exact ih hu

end Spread

/-! ### The whole family -/

theorem nodup_classLine (m : Model) (e : Element) : ((m.classLine e).map (·.uid)).Nodup := by
  rw [classLine, List.map_cons, List.nodup_cons]
  refine ⟨?_, nodup_chain (m.nodup_uids.erase _)⟩
  intro hc
  obtain ⟨y, hy, huid⟩ := List.mem_map.mp hc
  have := uid_mem_of_mem_chain hy
  rw [huid] at this
  exact m.nodup_uids.not_mem_erase this

/-- **A type and its supertypes have distinct uids.** -/
theorem nodup_family (m : Model) (e : Element) : ((m.family e).map (·.uid)).Nodup := by
  have heq : m.family e = m.classLine e ++ m.allInterfaces e := rfl
  rw [heq, List.map_append]
  refine List.nodup_append.mpr
    ⟨m.nodup_classLine e, nodup_spread (m.nodup_uids.filter _), ?_⟩
  intro u hu v hv huv
  obtain ⟨y, hy, rfl⟩ := List.mem_map.mp hv
  have hleft := (List.mem_filter.mp (uid_mem_of_mem_spread hy)).2
  rw [← huv, List.contains_iff_mem.mpr hu] at hleft
  exact absurd hleft (by decide)

end TypePages.Model
