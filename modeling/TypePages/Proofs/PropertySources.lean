import TypePages.Proofs.Properties

/-!
What the sources of a table say.

An accessor may belong to several properties, when their names differ in the case of the first
letter or a property method is named like an accessor of another one, and then it is written several
times.  Each time it is written with the source of the property at hand and under the same condition
on its own comment (`Table.mem_entries_iff`), so it does not matter which of the times is the last.
-/

namespace TypePages.Table

variable {rules : Rules} {m : Model} {owner : Element} {t : Table}

/-- Every property has a source. -/
theorem exists_sourceOf (t : Table) (p : Element) : ∃ x, t.SourceOf p x := by
  by_cases hnone : ∀ f, t.field? p = some f → f.comment = none
  · exact ⟨p, .itself hnone⟩
  · push Not at hnone
    obtain ⟨f, hf, hcomment⟩ := hnone
    exact ⟨f, .field hf hcomment⟩

/-- The sources of a table account for its properties. -/
structure Accounts (m : Model) (owner : Element) (t : Table) (s : Sources) : Prop where
  /-- Something is found for the keys and for nothing else. -/
  keys : ∀ uid, (s.find? uid).isSome = true ↔ uid ∈ s.keys
  /-- What is found is the source of a property that a method of the type belongs to. -/
  source : ∀ uid x, s.find? uid = some x →
    ∃ p, ∃ e ∈ m.membersOf owner, (e.kind = .method ∧ e.uid = uid) ∧ t.BelongsTo p e ∧
      t.SourceOf p x
  /-- An element with a comment is documented from no other element. -/
  own : ∀ e ∈ m.elements, ∀ x, s.find? e.uid = some x → e.comment = none ∨ x = e
  /-- What belongs to a property and has no comment is documented. -/
  complete : ∀ p e, t.BelongsTo p e → e.comment = none → (s.find? e.uid).isSome = true

/-- **The sources of a table account for its properties**, whichever of them share accessors. -/
theorem sources_account (ht : read rules m owner = .ok t) :
    Accounts m owner t (Sources.ofTable t) := by
  refine ⟨fun _ => find?_isSome_iff, fun uid x hfind => ?_, fun e he x hfind => ?_,
    fun p e hbelongs hcomment => ?_⟩
  · obtain ⟨p, e, hbelongs, hsource, -, huid⟩ :=
      (mem_entries_iff ht).mp (mem_entries_of_find? hfind)
    obtain ⟨hmem, hkind⟩ := hbelongs.mem_membersOf ht
    exact ⟨p, e, hmem, ⟨hkind, huid⟩, hbelongs, hsource⟩
  · obtain ⟨p, e', hbelongs, -, hor, huid⟩ :=
      (mem_entries_iff ht).mp (mem_entries_of_find? hfind)
    have he' := (Model.mem_membersOf_iff.mp (hbelongs.mem_membersOf ht).1).1
    obtain rfl := Catalog.eq_of_uid_eq he' he huid
    exact hor.imp_right Eq.symm
  · obtain ⟨x, hsource⟩ := exists_sourceOf t p
    exact find?_isSome_iff.mpr (mem_keys_iff.mpr
      ⟨x, (mem_entries_iff ht).mpr ⟨p, e, hbelongs, hsource, .inl hcomment, rfl⟩⟩)

/-! ### Pumps

Two properties have names that differ in case, so both have the same accessors.
-/

/-- The class of pumps. -/
def pump : Element := sampleType .classType "Pump" none []

/-- The field behind the first of the properties. -/
def flow : Element :=
  { sampleMethod "Pump" "flow" "private" [] with
    kind := .field
    comment := some { body := "The flow." } }

/-- The property methods. -/
def flowProperty (name : String) : Element := sampleMethod "Pump" name "public" []

/-- The getter, which has a comment. -/
def getFlow : Element :=
  { sampleMethod "Pump" "getFlow" "public" [] with comment := some { body := "Measures the flow." } }

/-- The setter, which has none. -/
def setFlow : Element :=
  { sampleMethod "Pump" "setFlow" "public" [] with parameters := [⟨"flow", "int", false⟩] }

/-- Pumps. -/
def pumps : Model where
  elements := [pump, flow, flowProperty "flowProperty", flowProperty "FlowProperty", getFlow, setFlow]
  distinct_uids := by decide +kernel
  minAccess := .text "public"
  external := []

/-- The table of pumps. -/
def pumpTable : Table :=
  ⟨pumps, .standard, pump, .everywhere,
    [(.fields, flow), (.properties, flowProperty "flowProperty"),
      (.properties, flowProperty "FlowProperty"), (.methods, getFlow), (.methods, setFlow)], [],
    [(flowProperty "flowProperty", ⟨some flow, some getFlow, some setFlow⟩),
      (flowProperty "FlowProperty", ⟨none, some getFlow, some setFlow⟩)]⟩

theorem read_pump : read ⟨.standard, true⟩ pumps pump = .ok pumpTable := by cbv

theorem sources_account_pump :
    read ⟨.standard, true⟩ pumps pump = .ok pumpTable ∧
      (∀ x, (Sources.ofTable pumpTable).find? "Pump.getFlow" = some x → x = getFlow) ∧
      ((Sources.ofTable pumpTable).find? "Pump.setFlow").isSome = true ∧
      (Sources.ofTable pumpTable).keys =
        ["Pump.flowProperty", "Pump.setFlow", "Pump.FlowProperty"] := by
  have haccounts := sources_account read_pump
  have hget : getFlow ∈ pumps.elements := by decide +kernel
  have hbelongs : pumpTable.BelongsTo (flowProperty "flowProperty") setFlow :=
    ⟨by decide +kernel, .inr (.inr (by decide +kernel))⟩
  refine ⟨read_pump, fun x hx => ?_, haccounts.complete _ _ hbelongs rfl, by decide +kernel⟩
  exact (haccounts.own getFlow hget x hx).resolve_left (Option.some_ne_none _)

end TypePages.Table
