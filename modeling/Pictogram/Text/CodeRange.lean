/-!
# Ranges of code points

A property of characters is stored as a table of closed ranges of code points,
in increasing order and pairwise disjoint.  Membership is decided by halving
the table.
-/

namespace Pictogram
namespace Text

/-- Closed ranges `(first, last)` of code points, increasing and disjoint. -/
abbrev CodeRanges := Array (Nat × Nat)

namespace CodeRanges

/--
Halving search for `code` among the ranges with index at least `low` and below
`high`.  The first argument bounds the number of halvings.
-/
def search (ranges : CodeRanges) (code : Nat) : Nat → Nat → Nat → Bool
  | 0, _, _ => false
  | steps + 1, low, high =>
    if low < high then
      let middle := (low + high) / 2
      match ranges[middle]? with
      | none => false
      | some (first, last) =>
        if code < first then search ranges code steps low middle
        else if last < code then search ranges code steps (middle + 1) high
        else true
    else false

/-- Whether one of the ranges holds `code`. -/
def contains (ranges : CodeRanges) (code : Nat) : Bool :=
  ranges.search code (ranges.size + 1) 0 ranges.size

end CodeRanges

end Text
end Pictogram
