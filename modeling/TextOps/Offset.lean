/-!
# `TextOps/Offset.lean` — the items of a list with the offsets at which they start

Texts are cut and copied by octet offsets, while their items are characters of one to four octets
each. `locate` pairs every item with its offset; the *boundaries* of a list are the offsets of its
items and its end. Nothing here knows what an item is: a width per item is all that is needed.
-/

set_option autoImplicit false

namespace TextOps.Offset

variable {α : Type}

/-- Every item with its offset, the first one at `base`. -/
def locate (width : α → Nat) (base : Nat) : List α → List (Nat × α)
  | [] => []
  | a :: as => (base, a) :: locate width (base + width a) as

/-- The extent of a list: the sum of the widths of its items. -/
def extent (width : α → Nat) : List α → Nat
  | [] => 0
  | a :: as => width a + extent width as

/-- Whether an item starts at the offset, or the list ends there. -/
def isBoundary (width : α → Nat) (as : List α) (offset : Nat) : Bool :=
  offset == extent width as || (locate width 0 as).any (·.1 == offset)

/-- The offset of the first item that passes a test. -/
def first? (width : α → Nat) (p : α → Bool) (as : List α) : Option Nat :=
  ((locate width 0 as).find? (p ·.2)).map (·.1)

/-- Cuts located items into the items of each span, which are those that start at or after its
first offset and before its second. The spans come in order and do not overlap, so each one is
looked for where the one before it ended. -/
def cut (items : List (Nat × α)) : List (Nat × Nat) → List (List α)
  | [] => []
  | (start, stop) :: spans =>
    let rest := items.dropWhile (·.1 < start)
    (rest.takeWhile (·.1 < stop)).map (·.2) :: cut (rest.dropWhile (·.1 < stop)) spans

end TextOps.Offset
