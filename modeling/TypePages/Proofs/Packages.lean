import TypePages.Proofs.Nearest
import TypePages.Proofs.Precedence

/-!
Members that are known in their package only.

Two places read the word for a member's access.  Documentation compares levels, and there every word
that names no other level stands for package access.  Handing down compares the word itself with
`package`.  The two agree on a member only where package access goes by that word, so a member with
another one is handed down into other packages as well.  The type then inherits it unless something
nearer hides it, and `mem_inherited_iff` says what that takes.
-/

namespace TypePages.Table

section

variable {rules : Rules} {m : Model} {owner a e : Element} {k : Member.Kind} {t : Table}
  {keys : List (List String)} {es : List Element}

/-- The walk keeps what is the first of its key, and no more. -/
theorem mem_unhidden_iff : e ∈ unhidden keys es ↔
    e.hidingKey ∉ keys ∧ es.find? (·.hidingKey = e.hidingKey) = some e := by
  constructor
  · intro he
    have hnot := hidingKey_notMem_of_mem_unhidden he
    have hsome : ((unhidden keys es).find? (·.hidingKey = e.hidingKey)).isSome :=
      List.find?_isSome.mpr ⟨e, he, by simp⟩
    obtain ⟨x, hx⟩ := Option.isSome_iff_exists.mp hsome
    have hkey : x.hidingKey = e.hidingKey := by simpa using List.find?_some hx
    obtain rfl : x = e :=
      List.inj_on_of_nodup_map nodup_hidingKey_unhidden (List.mem_of_find?_eq_some hx) he hkey
    exact ⟨hnot, find?_unhidden hnot ▸ hx⟩
  · rintro ⟨hnot, hfirst⟩
    rw [← find?_unhidden hnot] at hfirst
    exact List.mem_of_find?_eq_some hfirst

/-- A type inherits the first member of each key that it does not declare itself. -/
theorem Reads.mem_inherited_iff (hr : Reads rules m owner t) (hk : k.isHandedDown = true) :
    e ∈ t.inherited k ↔ (∀ own ∈ declared rules m k owner, own.hidingKey ≠ e.hidingKey) ∧
      (offered rules m owner k (m.ancestors owner)).find? (·.hidingKey = e.hidingKey) = some e := by
  rw [hr.inherited_eq hk, hr.tail_family_eq, mem_unhidden_iff, List.mem_map]
  exact and_congr_left fun _ => ⟨fun hnot own hown hkey => hnot ⟨own, hown, hkey⟩,
    fun hne ⟨own, hown, hkey⟩ => hne own hown hkey⟩

/-! ### The word for package access -/

/-- A member that is known in its package only is handed down to another package where its access
goes by another word. -/
theorem handsDown_iff_of_level (hlevel : e.level = .package) : HandsDown a owner e ↔
    (e.access = "package" → a.package = owner.package) ∧
      ¬(a.kind = .interfaceType ∧ e.kind = .method ∧ e.isStatic = true) := by
  have hprivate : e.access ≠ "private" := by
    intro hword
    have hlevel' : Access.ofWord "private" = .package := hword ▸ hlevel
    exact absurd hlevel' (by decide)
  exact ⟨fun h => ⟨h.samePackage, h.notStatic⟩, fun h => ⟨hprivate, h.1, h.2⟩⟩

/-- A member of a supertype in another package is known in that package only, but the word for its
access is not `package`, and nothing else keeps it from being inherited. -/
structure SlipsIn (rules : Rules) (m : Model) (owner : Element) (k : Member.Kind)
    (a e : Element) : Prop where
  handedDown : k.isHandedDown = true
  supertype : a ∈ m.ancestors owner
  declared : e ∈ declared rules m k a
  otherPackage : a.package ≠ owner.package
  level : e.level = .package
  otherWord : e.access ≠ "package"
  notStatic : ¬(a.kind = .interfaceType ∧ e.kind = .method ∧ e.isStatic = true)
  documented : m.Documents e
  undeclared : ∀ own ∈ Table.declared rules m k owner, own.hidingKey ≠ e.hidingKey
  /-- No nearer supertype offers the key, nor does an earlier member of this one have it. -/
  first : (offered rules m owner k (m.ancestors owner)).find? (·.hidingKey = e.hidingKey) = some e

/-- Where package access goes by the word `package` throughout, no member slips in. -/
theorem not_slipsIn_of_words
    (hwords : ∀ e ∈ m.elements, e.level = .package → e.access = "package") :
    ¬SlipsIn rules m owner k a e := fun h =>
  h.otherWord (hwords e (Model.mem_membersOf_iff.mp (mem_declared_iff.mp h.declared).1).1 h.level)

/-- **Members that are known in their package only stay in it, but for those whose access goes by
another word.**  A type shows such a member of a supertype in another package just in case one slips
in. -/
theorem package_of_inherited_iff (ht : read rules m owner = .ok t) (k : Member.Kind) :
    (∀ a ∈ t.family.tail, ∀ e ∈ t.allVisible k, e ∈ declared rules m k a → e.level = .package →
      a.package = owner.package) ↔ ∀ a e, ¬SlipsIn rules m owner k a e := by
  have hr := reads_of_read ht
  have htail := hr.tail_family_eq
  constructor
  · intro hstays a e h
    have he : e ∈ t.inherited k := (hr.mem_inherited_iff h.handedDown).mpr ⟨h.undeclared, h.first⟩
    exact h.otherPackage (hstays a (htail ▸ h.supertype) e (List.mem_append_right _ he) h.declared
      h.level)
  · intro hnone a ha e he hdeclared hlevel
    by_contra hother
    have hinherited := hr.mem_inherited_of_declared he ha hdeclared
    have hk := isHandedDown_of_mem_inherited hinherited
    obtain ⟨-, hdown, hdocuments⟩ :=
      hr.declared_of_parent hinherited ha (parent_of_mem_declared hdeclared)
    obtain ⟨hsame, hstatic⟩ := (handsDown_iff_of_level hlevel).mp hdown
    obtain ⟨hundeclared, hfirst⟩ := (hr.mem_inherited_iff hk).mp hinherited
    exact hnone a e ⟨hk, htail ▸ ha, hdeclared, hother, hlevel, fun hword => hother (hsame hword),
      hstatic, hdocuments, hundeclared, hfirst⟩

end

/-! ### Rooms

A room is built in another package than the house that it extends, and the heating of houses is
known in their package only.
-/

/-- A class that extends one of another package. -/
def room : Element := sampleType .classType "Room" (some "House") []

/-- A class of another package. -/
def house : Element := { sampleType .classType "House" none [] with package := "inner" }

/-- The heating of houses, with a word for its access. -/
def heating (word : String) : Element := sampleMethod "House" "heat" word []

/-- Rooms and houses. -/
def rooms (word : String) : Model where
  elements := [room, house, heating word]
  distinct_uids := by
    show ["Room", "House", "House.heat"].Nodup
    decide
  minAccess := .text "package"
  external := []

theorem ancestors_room (word : String) : (rooms word).ancestors room = [house] := by
  cbv

theorem house_mem_tail {word : String} {t : Table}
    (ht : read ⟨.standard, true⟩ (rooms word) room = .ok t) : house ∈ t.family.tail := by
  rw [(reads_of_read ht).tail_family_eq, ancestors_room]
  exact List.mem_singleton_self house

theorem package_of_inherited_room : ∃ t, read ⟨.standard, true⟩ (rooms "package") room = .ok t ∧
    house ∈ t.family.tail ∧ heating "package" ∉ t.allVisible .methods := by
  obtain ⟨t, ht⟩ : ∃ t, read ⟨.standard, true⟩ (rooms "package") room = .ok t :=
    read_returns rfl (Naming.isText_ofTexts _ _ _) room
  have hhouse := house_mem_tail ht
  have hwords : ∀ e ∈ (rooms "package").elements, e.level = .package → e.access = "package" := by
    decide +kernel
  have hstays := (package_of_inherited_iff ht .methods).mpr fun a e => not_slipsIn_of_words hwords
  refine ⟨t, ht, hhouse, fun hshown => ?_⟩
  exact absurd (hstays house hhouse _ hshown (by decide +kernel) (by decide +kernel)) (by decide)

/-- By another word the heating is inherited into the package of rooms. -/
theorem package_left_room : ∃ t, read ⟨.standard, true⟩ (rooms "package-private") room = .ok t ∧
    house ∈ t.family.tail ∧ heating "package-private" ∈ t.allVisible .methods ∧
    heating "package-private" ∈
      declared ⟨.standard, true⟩ (rooms "package-private") .methods house ∧
    (heating "package-private").level = .package ∧ house.package ≠ room.package := by
  obtain ⟨t, ht⟩ : ∃ t, read ⟨.standard, true⟩ (rooms "package-private") room = .ok t :=
    read_returns rfl (Naming.isText_ofTexts _ _ _) room
  have hr := reads_of_read ht
  have hinherited : heating "package-private" ∈ t.inherited .methods := by
    rw [hr.mem_inherited_iff rfl, ancestors_room]
    decide +kernel
  exact ⟨t, ht, house_mem_tail ht, List.mem_append_right _ hinherited, by decide +kernel,
    by decide +kernel, by decide⟩

end TypePages.Table
