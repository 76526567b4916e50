import Mathlib
import TypePages.Value.Basic

/-!
Equality of values is transitive.

Scalars are equal when they mean the same: a number or truth value means a quantity, and whether two
quantities are the same does not depend on how they are written (`Scalar.same_iff`).  So keys that
are equal find the same entry, and from there transitivity goes up through lists and mappings
(`Value.same_trans`).  It is what makes it enough to look for a value among the ones that were kept.
-/

namespace TypePages

/-! ### Quantities -/

/-- What a number stands for. -/
inductive Quantity
  | rational (q : ℚ)
  | infinite (negative : Bool)
  | undefined

namespace Binary64

/-- The quantity of a floating-point number. -/
def quantity : Binary64 → Quantity
  | .finite s m e => .rational (signed s m * 2 ^ e)
  | .infinite s => .infinite s
  | .undefined => .undefined

/-- A power of two over a smaller one. -/
theorem zpow_two_eq {e least : Int} (h : least ≤ e) :
    (2 : ℚ) ^ e = ((Nat.pow 2 (e - least).toNat : Int) : ℚ) * 2 ^ least := by
  have hsum : e = ((e - least).toNat : Int) + least := by omega
  have hpow : ((Nat.pow 2 (e - least).toNat : Int) : ℚ) = 2 ^ (e - least).toNat := by
    rw [Nat.pow_eq]
    push_cast
    rfl
  rw [hpow, ← zpow_natCast, ← zpow_add₀ (by norm_num), ← hsum]

theorem mul_zpow_two_inj {a b least : Int} :
    (a : ℚ) * 2 ^ least = (b : ℚ) * 2 ^ least ↔ a = b := by
  rw [mul_left_inj' (zpow_ne_zero least (by norm_num)), Int.cast_inj]

theorem equal_iff {x y : Binary64} : x.equal y = true ↔ x.quantity = y.quantity := by
  cases x with
  | undefined => cases y <;> simp [equal, quantity]
  | infinite s => cases y <;> simp [equal, quantity]
  | finite s m e =>
      cases y with
      | undefined => simp [equal, quantity]
      | infinite s' => simp [equal, quantity]
      | finite s' m' e' =>
          -- Both are multiples of the smaller power of two.
          have hx := zpow_two_eq (min_le_left e e')
          have hy := zpow_two_eq (min_le_right e e')
          rw [equal, beq_iff_eq, quantity, quantity, Quantity.rational.injEq, hx, hy, ← mul_assoc,
            ← mul_assoc, ← Int.cast_mul, ← Int.cast_mul, mul_zpow_two_inj]

theorem equalInt_iff {x : Binary64} {n : Int} :
    x.equalInt n = true ↔ x.quantity = .rational n := by
  cases x with
  | undefined => simp [equalInt, quantity]
  | infinite s => simp [equalInt, quantity]
  | finite s m e =>
      rw [equalInt, quantity, Quantity.rational.injEq]
      split
      next he =>
        have hx := zpow_two_eq he
        rw [sub_zero, zpow_zero, mul_one] at hx
        rw [beq_iff_eq, hx, ← Int.cast_mul, Int.cast_inj, eq_comm]
      next he =>
        have hn := zpow_two_eq (Int.le_of_lt (not_le.mp he))
        rw [zpow_zero, zero_sub] at hn
        rw [beq_iff_eq, eq_comm (b := (n : ℚ)), ← mul_one (n : ℚ), hn, ← mul_assoc,
          ← Int.cast_mul, mul_zpow_two_inj]

end Binary64

/-! ### Scalars -/

namespace Scalar

/-- What a scalar is compared by. -/
inductive Meaning
  | null
  | text (s : String)
  | number (q : Quantity)

/-- The meaning of a scalar; a truth value means zero or one. -/
def meaning : Scalar → Meaning
  | .null => .null
  | .bool b => .number (.rational (ofBool b))
  | .int n => .number (.rational n)
  | .real x => .number x.quantity
  | .text s => .text s

theorem ofBool_inj {a b : Bool} : ofBool a = ofBool b ↔ a = b := by
  cases a <;> cases b <;> decide

/-- Scalars are equal when they mean the same. -/
theorem same_iff {a b : Scalar} : a.same b = true ↔ a.meaning = b.meaning := by
  cases a <;> cases b <;>
    simp [same, meaning, Binary64.equal_iff, Binary64.equalInt_iff, ofBool_inj]
  case bool.real => exact eq_comm
  case int.real => exact eq_comm

theorem same_text_iff {a : Scalar} {s : String} : a.same (.text s) = true ↔ a = .text s := by
  rw [same_iff]
  cases a <;> simp [meaning]

end Scalar

/-! ### Lists and mappings -/

variable {a b k key : Scalar} {v w : Value} {es fs gs : List (Scalar × Value)}

/-- Equal keys find the same entry. -/
theorem entryAt?_congr (h : a.same b = true) (es : List (Scalar × Value)) :
    entryAt? a es = entryAt? b es := by
  induction es with
  | nil => rfl
  | cons e es ih =>
      obtain ⟨k, v⟩ := e
      have hkey : k.same a = k.same b := by
        rw [Bool.eq_iff_iff, Scalar.same_iff, Scalar.same_iff, Scalar.same_iff.mp h]
      rw [entryAt?, entryAt?, hkey, ih]

theorem exists_of_entryAt? (h : entryAt? key es = some v) :
    ∃ k, (k, v) ∈ es ∧ k.same key = true := by
  induction es with
  | nil => cases h
  | cons e es ih =>
      obtain ⟨k, w⟩ := e
      rw [entryAt?] at h
      split at h
      next hk => exact ⟨k, by rw [Option.some.inj h]; exact List.mem_cons_self, hk⟩
      · obtain ⟨k', hmem, hk'⟩ := ih h
        exact ⟨k', List.mem_cons_of_mem _ hmem, hk'⟩

theorem sameEntries_cons_iff : sameEntries ((k, v) :: es) fs = true ↔
    (∃ w, entryAt? k fs = some w ∧ v.same w = true) ∧ sameEntries es fs = true := by
  rw [sameEntries, Bool.and_eq_true]
  cases entryAt? k fs <;> simp

/-- An entry of the first mapping has an equal one in the second. -/
theorem exists_entryAt? (h : sameEntries es fs = true) (hmem : (k, v) ∈ es) :
    ∃ w, entryAt? k fs = some w ∧ v.same w = true := by
  induction es with
  | nil => cases hmem
  | cons e es ih =>
      obtain ⟨hfirst, hrest⟩ := sameEntries_cons_iff.mp h
      rcases List.mem_cons.mp hmem with rfl | hmem
      · exact hfirst
      · exact ih hrest hmem

mutual

/-- Equality of values is transitive. -/
theorem Value.same_trans {u v w : Value} (huv : u.same v = true) (hvw : v.same w = true) :
    u.same w = true := by
  match u, v, w with
  | .scalar a, .scalar b, .scalar c =>
      rw [Value.same, Scalar.same_iff] at huv hvw ⊢
      exact huv.trans hvw
  | .list xs, .list ys, .list zs =>
      rw [Value.same] at huv hvw ⊢
      exact sameItems_trans huv hvw
  | .mapping es, .mapping fs, .mapping gs =>
      rw [Value.same, Bool.and_eq_true, beq_iff_eq] at huv hvw ⊢
      exact ⟨huv.1.trans hvw.1, sameEntries_trans huv.2 hvw.2⟩

theorem sameItems_trans {xs ys zs : List Value} (hxy : sameItems xs ys = true)
    (hyz : sameItems ys zs = true) : sameItems xs zs = true := by
  match xs, ys, zs with
  | [], [], [] => rfl
  | x :: xs, y :: ys, z :: zs =>
      rw [sameItems, Bool.and_eq_true] at hxy hyz ⊢
      exact ⟨Value.same_trans hxy.1 hyz.1, sameItems_trans hxy.2 hyz.2⟩

theorem sameEntries_trans {es fs gs : List (Scalar × Value)} (hef : sameEntries es fs = true)
    (hfg : sameEntries fs gs = true) : sameEntries es gs = true := by
  match es with
  | [] => rfl
  | (k, v) :: es =>
      obtain ⟨⟨w, hw, hvw⟩, hrest⟩ := sameEntries_cons_iff.mp hef
      -- The entry found in the middle has a key of its own, equal to the one looked for.
      obtain ⟨k', hmem, hk'⟩ := exists_of_entryAt? hw
      obtain ⟨u, hu, hwu⟩ := exists_entryAt? hfg hmem
      rw [entryAt?_congr hk'] at hu
      exact sameEntries_cons_iff.mpr
        ⟨⟨u, hu, Value.same_trans hvw hwu⟩, sameEntries_trans hrest hfg⟩

end

end TypePages
