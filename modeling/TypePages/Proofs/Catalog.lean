import Mathlib.Data.List.Nodup
import TypePages.Model.Basic

/-!
A uid stands for one element.

`Catalog` carries the proof that its uids are distinct, so within a model an element can be traded
for its uid and back.  Look-up, membership of a type and distinctness of the members all follow.
-/

namespace TypePages

namespace Catalog

variable {c : Catalog} {uid : String} {a b e : Element}

theorem eq_of_uid_eq (ha : a ∈ c.elements) (hb : b ∈ c.elements) (h : a.uid = b.uid) : a = b :=
  List.inj_on_of_nodup_map c.distinct_uids ha hb h

theorem find?_eq_some_iff : c.find? uid = some e ↔ e ∈ c.elements ∧ e.uid = uid := by
  constructor
  · intro h
    exact ⟨List.mem_of_find?_eq_some h, by simpa using List.find?_some h⟩
  · rintro ⟨he, rfl⟩
    cases hf : c.find? e.uid with
    | none => exact absurd (List.find?_eq_none.mp hf e he) (by simp)
    | some e' =>
        have huid : e'.uid = e.uid := by simpa using List.find?_some hf
        rw [eq_of_uid_eq (List.mem_of_find?_eq_some hf) he huid]

end Catalog

namespace Model

variable {m : Model} {uid : String} {a e : Element}

theorem find?_eq_some_iff : m.find? uid = some e ↔ e ∈ m.elements ∧ e.uid = uid :=
  Catalog.find?_eq_some_iff

theorem nodup_uids (m : Model) : m.uids.Nodup := m.distinct_uids

/-! ### Members of a type -/

theorem mem_membersOf_iff : e ∈ m.membersOf a ↔ e ∈ m.elements ∧ e.parent = some a.uid := by
  simp [membersOf]

theorem nodup_membersOf (m : Model) (a : Element) : ((m.membersOf a).map (·.uid)).Nodup :=
  m.distinct_uids.sublist (List.filter_sublist.map _)

end Model

end TypePages
