/-! Tables of code point ranges, sorted and disjoint, searched by halving. -/

namespace Calculator.Text

/-- Inclusive ranges of code points, in increasing order and pairwise apart. -/
structure RangeTable where
  ranges : Array (Nat × Nat)

namespace RangeTable

/-- The start of the range holding n, among the ranges with index from lo up to hi. -/
def findBetween (t : RangeTable) (n lo hi : Nat) : Option Nat :=
  if within : lo < hi then
    let mid := (lo + hi) / 2
    if present : mid < t.ranges.size then
      let range := t.ranges[mid]
      if n < range.1 then t.findBetween n lo mid
      else if range.2 < n then t.findBetween n (mid + 1) hi
      else some range.1
    else none
  else none
termination_by hi - lo

/-- The start of the range that holds n, if one does. -/
def find? (t : RangeTable) (n : Nat) : Option Nat := t.findBetween n 0 t.ranges.size

/-- Whether some range of the table holds n. -/
def contains (t : RangeTable) (n : Nat) : Bool := (t.find? n).isSome

end RangeTable

end Calculator.Text
