/-!
Sets of characters given by ranges of code points.

A property of the character database is a set of code points that falls into a few hundred
intervals.  A `Ranges` value lists the intervals in ascending order, so a look-up may stop at the
first interval that starts beyond the code point.  The ASCII part of each property is decided before
the table is consulted, by the property itself.
-/

namespace TypePages.Text

/-- Intervals of code points, first and last included, in ascending order. -/
abbrev Ranges := List (Nat × Nat)

/-- Whether a code point lies in one of the intervals. -/
def Ranges.holds : Ranges → Nat → Bool
  | [], _ => false
  | (first, last) :: rest, n =>
    if n < first then false else if n ≤ last then true else Ranges.holds rest n

end TypePages.Text
