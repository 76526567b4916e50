import TypePages.Naming
import TypePages.Proofs.Refusal

/-!
A naming convention of texts is never refused.

The prefixes and the suffix are settings and may be anything, and each is looked at only when a name
is compared with it.  `IsText` says that all of them are texts, which is what makes every question
about a name have an answer.  The converse direction matters as well: whoever has found the
accessors of a property has gone through all prefixes, so they are texts, and the same name can then
be asked for its role.
-/

namespace TypePages.Naming

/-- Every value of a list is a text. -/
def AllTexts (vs : List Value) : Prop := ∀ v ∈ vs, ∃ s, v = .text s

/-- The prefixes and the suffix of a convention are texts. -/
structure IsText (n : Naming) : Prop where
  getters : AllTexts n.getterPrefixes
  setters : AllTexts n.setterPrefixes
  suffix : ∃ s, n.propertySuffix = .text s

theorem allTexts_map (ss : List String) : AllTexts (ss.map .text) := by
  intro v hv
  obtain ⟨s, -, rfl⟩ := List.mem_map.mp hv
  exact ⟨s, rfl⟩

theorem isText_ofTexts (getters setters : List String) (suffix : String) :
    (ofTexts getters setters suffix).IsText :=
  ⟨allTexts_map getters, allTexts_map setters, suffix, rfl⟩

/-! ### Names of accessors -/

theorem prefixed_of_allTexts {vs : List Value} (h : AllTexts vs) (base : String) :
    ∃ names, prefixed vs base = .ok names := by
  refine Refusal.mapM_returns fun v hv => ?_
  obtain ⟨s, rfl⟩ := h v hv
  exact ⟨_, rfl⟩

theorem allTexts_of_prefixed {vs : List Value} {base : String} {names : List String}
    (h : prefixed vs base = .ok names) : AllTexts vs := by
  intro v hv
  obtain ⟨name, hname⟩ := Refusal.returns_of_mapM h v hv
  cases v with
  | scalar s =>
      cases s with
      | text s => exact ⟨s, rfl⟩
      | null => cases hname
      | bool b => cases hname
      | int n => cases hname
      | real x => cases hname
  | list items => cases hname
  | mapping entries => cases hname

/-! ### Prefixes of a name -/

theorem stripFirst?_of_allTexts (name : String) {vs : List Value} (h : AllTexts vs) :
    ∃ o, stripFirst? name vs = .ok o := by
  induction vs with
  | nil => exact ⟨none, rfl⟩
  | cons v vs ih =>
      obtain ⟨s, rfl⟩ := h v (by simp)
      rw [stripFirst?]
      split
      · exact ⟨_, rfl⟩
      · exact ih fun w hw => h w (List.mem_cons_of_mem _ hw)

/-- Every prefix stands where it stood, beside its length. -/
theorem of_measured {vs : List Value} {ps : List (Nat × Value)} (h : measured vs = .ok ps) :
    ps.map (·.2) = vs ∧ ∀ pair ∈ ps, pair.2.length = .ok pair.1 := by
  have hsteps := Refusal.mapM_eq_ok.mp h
  clear h
  induction hsteps with
  | nil => exact ⟨rfl, nofun⟩
  | cons hstep _ ih =>
      obtain ⟨length, hlength, hpair⟩ := Refusal.bind_eq_ok.mp hstep
      obtain rfl := Refusal.pure_eq_ok.mp hpair
      exact ⟨by rw [List.map_cons, ih.1], List.forall_mem_cons.mpr ⟨hlength, ih.2⟩⟩

/-- Prefixes are sorted, and none is lost or added. -/
theorem longestFirst_perm {vs ws : List Value} (h : longestFirst vs = .ok ws) : ws.Perm vs := by
  obtain ⟨ps, hps, hws⟩ := Refusal.bind_eq_ok.mp h
  rw [← Refusal.pure_eq_ok.mp hws, ← (of_measured hps).1]
  exact (List.mergeSort_perm ps _).map (·.2)

theorem longestFirst_of_allTexts {vs : List Value} (h : AllTexts vs) :
    ∃ ws, longestFirst vs = .ok ws ∧ ws.Perm vs := by
  obtain ⟨ps, hps⟩ : ∃ ps, measured vs = .ok ps := by
    refine Refusal.mapM_returns fun v hv => ?_
    obtain ⟨s, rfl⟩ := h v hv
    exact ⟨(s.length, .text s), rfl⟩
  have hws : longestFirst vs = .ok ((ps.mergeSort fun a b => b.1 ≤ a.1).map (·.2)) :=
    Refusal.bind_eq_ok.mpr ⟨ps, hps, rfl⟩
  exact ⟨_, hws, longestFirst_perm hws⟩

theorem stripPrefix?_of_allTexts (name : String) {vs : List Value} (h : AllTexts vs) :
    ∃ o, stripPrefix? name vs = .ok o := by
  obtain ⟨ws, hws, hperm⟩ := longestFirst_of_allTexts h
  obtain ⟨o, ho⟩ := stripFirst?_of_allTexts name fun w hw => h w (hperm.mem_iff.mp hw)
  exact ⟨o, Refusal.bind_eq_ok.mpr ⟨ws, hws, ho⟩⟩

theorem role_of_allTexts {n : Naming} (hs : AllTexts n.setterPrefixes)
    (hg : AllTexts n.getterPrefixes) (e : Element) : ∃ r, n.role e = .ok r := by
  obtain ⟨setter, hsetter⟩ := stripPrefix?_of_allTexts e.name hs
  obtain ⟨getter, hgetter⟩ := stripPrefix?_of_allTexts e.name hg
  unfold role
  rw [hsetter, hgetter]
  cases setter <;> cases getter <;> exact ⟨_, rfl⟩

theorem propertyName_of_allTexts {n : Naming} (hs : AllTexts n.setterPrefixes)
    (hg : AllTexts n.getterPrefixes) (e : Element) : ∃ name, n.propertyName e = .ok name := by
  obtain ⟨setter, hsetter⟩ := stripPrefix?_of_allTexts e.name hs
  obtain ⟨getter, hgetter⟩ := stripPrefix?_of_allTexts e.name hg
  unfold propertyName
  rw [hsetter, hgetter]
  cases setter <;> exact ⟨_, rfl⟩

/-! ### Property methods -/

theorem isPropertyMethod_of_isText {n : Naming} (h : n.IsText) (e : Element) :
    ∃ b, n.isPropertyMethod e = .ok b := by
  obtain ⟨s, hs⟩ := h.suffix
  unfold isPropertyMethod endsInSuffix
  rw [hs]
  split
  · exact ⟨false, rfl⟩
  · show ∃ b, (if e.name.length ≤ s.length then _ else _) = Except.ok b
    split
    · exact ⟨false, rfl⟩
    · exact ⟨_, rfl⟩

theorem baseName_of_isText {n : Naming} (h : n.IsText) (e : Element) :
    ∃ base, n.baseName e = .ok base := by
  obtain ⟨s, hs⟩ := h.suffix
  rw [baseName, hs]
  exact ⟨_, rfl⟩

end TypePages.Naming
