import TextOps.Escape.Unit

/-!
# `TextOps/Escape/Table.lean` — replacements in a dense table

A table has a slot for every code up to the greatest one that is mapped. It is made from pairs in
order, and a later pair takes the slot of an earlier one.
-/

set_option autoImplicit false

namespace TextOps

/-- A table of replacements, indexed by the codes of units. -/
structure Table (U : Type) where
  /-- The slots; an empty one is `none`. -/
  slots : Array (Option (List U))

namespace Table

variable {U : Type} [EscapeUnit U]

/-- How many slots a table for the given pairs needs: one more than the greatest code. -/
def needed (pairs : List (U × List U)) : Nat :=
  pairs.foldl (fun n p => max n (EscapeUnit.code p.1 + 1)) 0

def put (slots : Array (Option (List U))) (p : U × List U) : Array (Option (List U)) :=
  slots.setIfInBounds (EscapeUnit.code p.1) (some p.2)

def ofPairs (pairs : List (U × List U)) : Table U :=
  ⟨pairs.foldl put (Array.replicate (needed pairs) none)⟩

/-- The replacement of a unit, if the table has one. -/
def get? (t : Table U) (u : U) : Option (List U) := t.slots[EscapeUnit.code u]?.join

def size (t : Table U) : Nat := t.slots.size

def isEmpty (t : Table U) : Bool := t.slots.isEmpty

end Table

end TextOps
