import TypePages.Config.Basic
import TypePages.Proofs.AccessorNames
import TypePages.Proofs.Cutting

/-!
Names of properties.

A property method is told by what its name ends in, and the property is called by what stands in
front of that.  `isPropertyMethod_iff` says when a method is told so: its name is a suffix behind a
base that is not empty.  With a suffix of at least one character the base is what the property is
shown by and what its field and accessors are looked for under.  The empty suffix stands behind every
name, so that every method without parameters is a property method, and cutting nothing off its end
leaves nothing of it.
-/

namespace TypePages.Naming

variable {n : Naming} {e : Element} {base suffix : String}

/-- A name is longer than its end just in case something stands in front of the end. -/
theorem length_lt_append_iff : suffix.length < (base ++ suffix).length ↔ base ≠ "" := by
  rw [String.length_append, Nat.lt_add_left_iff_pos, Nat.pos_iff_ne_zero, ne_eq,
    String.length_eq_zero_iff]

theorem endsInSuffix_iff {name : String} : n.endsInSuffix name = .ok true ↔
    ∃ base suffix, n.propertySuffix = .text suffix ∧ name = base ++ suffix := by
  unfold endsInSuffix
  split
  next suffix hsuffix =>
    rw [Except.ok.injEq, Option.isSome_iff_exists]
    constructor
    · rintro ⟨base, hbase⟩
      exact ⟨base, suffix, hsuffix, Text.beforeEnd?_eq_some_iff.mp hbase⟩
    · rintro ⟨base, suffix', hsuffix', hname⟩
      cases hsuffix.symm.trans hsuffix'
      exact ⟨base, Text.beforeEnd?_eq_some_iff.mpr hname⟩
  next hother =>
    refine iff_of_false (fun h => by cases h) ?_
    rintro ⟨base, suffix, hsuffix, -⟩
    exact hother suffix hsuffix

/-- A property method is a method without parameters whose name is the suffix behind a base. -/
theorem isPropertyMethod_iff : n.isPropertyMethod e = .ok true ↔
    e.kind = .method ∧ e.parameters = [] ∧
      ∃ base suffix, n.propertySuffix = .text suffix ∧ base ≠ "" ∧ e.name = base ++ suffix := by
  unfold isPropertyMethod
  split
  next hother =>
    refine iff_of_false (fun h => by cases Refusal.pure_eq_ok.mp h) ?_
    rintro ⟨hkind, hparameters, -⟩
    exact hother.elim (absurd hkind) (absurd hparameters)
  next hmethod =>
    rw [not_or, not_not, not_not] at hmethod
    rw [Refusal.bind_eq_ok]
    constructor
    · rintro ⟨length, hlength, h⟩
      split at h
      next => cases Refusal.pure_eq_ok.mp h
      next hlonger =>
        obtain ⟨base, suffix, hsuffix, hname⟩ := endsInSuffix_iff.mp h
        rw [hsuffix] at hlength
        cases hlength
        rw [Nat.not_le, hname, length_lt_append_iff] at hlonger
        exact ⟨hmethod.1, hmethod.2, base, suffix, hsuffix, hlonger, hname⟩
    · rintro ⟨-, -, base, suffix, hsuffix, hbase, hname⟩
      have hlonger : ¬e.name.length ≤ suffix.length := by
        rw [Nat.not_le, hname, length_lt_append_iff]
        exact hbase
      refine ⟨suffix.length, by rw [hsuffix]; rfl, ?_⟩
      rw [if_neg hlonger, endsInSuffix_iff]
      exact ⟨base, suffix, hsuffix, hname⟩

/-- The suffix is cut off if there is one. -/
theorem baseName_of_append (hsuffix : n.propertySuffix = .text suffix)
    (hname : e.name = base ++ suffix) :
    n.baseName e = .ok (if suffix = "" then "" else base) := by
  rw [baseName, hsuffix]
  dsimp only
  rw [Text.beforeEnd?_eq_some_iff.mpr hname, Option.getD_some]

/-- **A property is called by what stands in front of the suffix, if there is a suffix.**  It is shown
by this name, and whatever is found for it is named after it.  The name is not empty, and is made
whole by the suffix, just in case the suffix is not empty. -/
theorem baseName_whole_iff (h : n.isPropertyMethod e = .ok true) :
    ∃ suffix base, n.propertySuffix = .text suffix ∧ n.baseName e = .ok base ∧
      (base ≠ "" ↔ suffix ≠ "") ∧ (base ++ suffix = e.name ↔ suffix ≠ "") ∧
      (∀ b : Builder, b.naming = n → b.displayName .properties e = .ok base) ∧
      ∀ members found, Table.findAccessors n members e = .ok found →
        Table.NamedAfter n base found := by
  obtain ⟨-, -, front, suffix, hsuffix, hfront, hname⟩ := isPropertyMethod_iff.mp h
  have hbase := baseName_of_append hsuffix hname
  refine ⟨suffix, _, hsuffix, hbase, ?_, ?_, fun b hb => ?_, fun members found hfound => ?_⟩
  · by_cases hempty : suffix = ""
    · simp [hempty]
    · simp [hempty, hfront]
  · by_cases hempty : suffix = ""
    · simp [hempty, hname, hfront.symm]
    · simp [hempty, hname]
  · rw [Builder.displayName, if_pos rfl, hb, hbase]
  · obtain ⟨base, hbase', hnamed⟩ := Table.namedAfter_of_findAccessors hfound
    cases hbase.symm.trans hbase'
    exact hnamed

/-- The property method of a level is called by the level. -/
theorem baseName_whole_level :
    standard.isPropertyMethod Builder.tankLevel = .ok true ∧
      standard.baseName Builder.tankLevel = .ok "level" ∧
      "level" ++ "Property" = Builder.tankLevel.name := by
  have htold : standard.isPropertyMethod Builder.tankLevel = .ok true := by decide
  obtain ⟨suffix, base, hsuffix, hbase, -, hwhole, -⟩ := baseName_whole_iff htold
  have hlevel : standard.baseName Builder.tankLevel = .ok "level" := by decide
  cases hlevel.symm.trans hbase
  cases hsuffix
  exact ⟨htold, hlevel, hwhole.mpr (by decide)⟩

/-- A convention without a suffix, as a configuration may ask for it. -/
def unsuffixed : Naming := ofTexts ["get", "is"] ["set"] ""

/-- A method that returns a width. -/
def width : Element := Table.sampleMethod "Box" "width" "public" []

/-- Without a suffix a method is a property method, and nothing is left of its name. -/
theorem name_lost_width :
    ofConfig (Config.named [("naming", Config.named [("property_suffix", .text "")])]) =
        .ok unsuffixed ∧
      unsuffixed.isPropertyMethod width = .ok true ∧ unsuffixed.baseName width = .ok "" ∧
      "" ++ "" ≠ width.name := by
  refine ⟨by rfl, by decide, by decide, by decide⟩

end TypePages.Naming
