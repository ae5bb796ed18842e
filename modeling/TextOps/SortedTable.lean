/-!
# `TextOps/SortedTable.lean` — searching sorted tables

A question about a sorted array is often a question about one entry only: the last one that does
not lie beyond a given point. `partitionPoint` finds the end of the entries up to there by halving
an interval, and `lastWhere?` is the entry just before that point.

The halving runs on a fuel argument, so that the search evaluates in the kernel; the size of the
array is always fuel enough, because every step shrinks the interval by at least one.
-/

set_option autoImplicit false

namespace TextOps.SortedTable

variable {α : Type}

/-- Halves the interval from `lo` to `hi`: an entry in the middle that passes the test is followed
by the point that is looked for, and one that does not pass lies at it or after it. -/
def partitionPointIn (p : α → Bool) (table : Array α) : Nat → Nat → Nat → Nat
  | 0, lo, _ => lo
  | fuel + 1, lo, hi =>
    if lo < hi then
      let mid := lo + (hi - lo) / 2
      if table[mid]?.any p then partitionPointIn p table fuel (mid + 1) hi
      else partitionPointIn p table fuel lo mid
    else lo

/-- Where the entries that pass a test end, in a table that has all of them first. -/
def partitionPoint (p : α → Bool) (table : Array α) : Nat :=
  partitionPointIn p table table.size 0 table.size

/-- The last entry that passes a test, in a table that has all of those first. -/
def lastWhere? (p : α → Bool) (table : Array α) : Option α :=
  match partitionPoint p table with
  | 0 => none
  | n + 1 => table[n]?

end TextOps.SortedTable
