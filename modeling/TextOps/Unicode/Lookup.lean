import TextOps.SortedTable

/-!
# `TextOps/Unicode/Lookup.lean` — properties of code points as sorted tables

A property is stored as a sorted array of the places where it begins: the zeros of runs of ten
digits, or ranges by their first and last code point. Whether a code point has the property is
decided by the last entry that does not begin beyond it.
-/

set_option autoImplicit false

namespace TextOps.Unicode

/-- Whether one of the runs of ten code points that start at the given zeros holds `code`. -/
def inDecade (zeros : Array Nat) (code : Nat) : Bool :=
  (SortedTable.lastWhere? (· ≤ code) zeros).any (code - · < 10)

/-- Whether one of the given inclusive ranges holds `code`. -/
def inRanges (ranges : Array (Nat × Nat)) (code : Nat) : Bool :=
  (SortedTable.lastWhere? (·.1 ≤ code) ranges).any (code ≤ ·.2)

end TextOps.Unicode
