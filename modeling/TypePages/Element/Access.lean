import TypePages.Text.Basic

/-!
Access levels.

The four levels are ordered from private to public.  A level is written as a word in any case, and a
word that names none counts as package access.
-/

namespace TypePages

/-- How far an element can be reached. -/
inductive Access
  | privateOnly
  | package
  | protectedOnly
  | everywhere
  deriving DecidableEq, Inhabited

namespace Access

/-- The rank of a level, private lowest. -/
def rank : Access → Nat
  | .privateOnly => 0
  | .package => 1
  | .protectedOnly => 2
  | .everywhere => 3

/-- The level of a rank; public for every rank from three on. -/
def ofRank : Nat → Access
  | 0 => .privateOnly
  | 1 => .package
  | 2 => .protectedOnly
  | _ => .everywhere

/-- The word for a level. -/
def word : Access → String
  | .privateOnly => "private"
  | .package => "package"
  | .protectedOnly => "protected"
  | .everywhere => "public"

/-- The level that a word in lowercase names. -/
def ofLowercase (s : String) : Access :=
  if s = "private" then .privateOnly
  else if s = "protected" then .protectedOnly
  else if s = "public" then .everywhere
  else .package

/-- The level that a word names. -/
def ofWord (s : String) : Access := ofLowercase (Text.lower s)

instance : LE Access := ⟨fun a b => a.rank ≤ b.rank⟩

instance (a b : Access) : Decidable (a ≤ b) := inferInstanceAs (Decidable (a.rank ≤ b.rank))

/-- The more restrictive of two levels. -/
def meet (a b : Access) : Access := if a ≤ b then a else b

theorem ofRank_rank (a : Access) : ofRank a.rank = a := by cases a <;> rfl

theorem ofLowercase_word (a : Access) : ofLowercase a.word = a := by cases a <;> rfl

theorem rank_meet (a b : Access) : (meet a b).rank = min a.rank b.rank := by
  unfold meet
  split
  next h => exact (Nat.min_eq_left h).symm
  next h => exact (Nat.min_eq_right (Nat.le_of_not_le h)).symm

end Access

end TypePages
