/-!
# Text — tables of characters

A table is a list of closed ranges of numbers in ascending order, no two of which meet.

* `inRanges`: whether a number lies in a range of a table.
-/

namespace Rulebook.Text

/-- Whether `n` lies in one of the ranges from `low` up to `low + span`, found by halving. -/
def inRangesFrom (ranges : Array (Nat × Nat)) (n : Nat) : (depth low span : Nat) → Bool
  | 0, _, _ => false
  | depth + 1, low, span =>
    let middle := low + span / 2
    match ranges[middle]? with
    | none => false
    | some (first, last) =>
      if n < first then inRangesFrom ranges n depth low (span / 2)
      else if last < n then inRangesFrom ranges n depth (middle + 1) (span - span / 2 - 1)
      else true

/-- Whether `n` lies in one of the ranges. -/
def inRanges (ranges : Array (Nat × Nat)) (n : Nat) : Bool :=
  inRangesFrom ranges n (ranges.size.log2 + 1) 0 ranges.size

end Rulebook.Text
