/-!
# Sets of characters

A property of characters is given by the ranges of code points that have it, in increasing order.

## Main definitions

* `SqlRouting.Text.CharSet` — a set of characters, as increasing ranges of code points.
* `SqlRouting.Text.CharSet.contains` — whether a character is in the set.
-/

set_option autoImplicit false

namespace SqlRouting.Text

/-- A set of characters, as inclusive ranges of code points in increasing order. -/
structure CharSet where
  /-- The first and last code point of each range. -/
  ranges : List (Nat × Nat)

namespace CharSet

/-- Looks `point` up in increasing `ranges`; the search ends at the first range above it. -/
def covers : List (Nat × Nat) → Nat → Bool
  | [], _ => false
  | (first, last) :: ranges, point =>
    if point < first then false
    else if point ≤ last then true
    else covers ranges point

/-- Whether `c` is in the set. -/
def contains (set : CharSet) (c : Char) : Bool :=
  covers set.ranges c.toNat

end CharSet

end SqlRouting.Text
