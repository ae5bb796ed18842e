/-!
# `TextOps/Text.lean` — texts, octets, and results that know whether they are new

A text is a list of characters and a string of octets is a list of bytes: every operation of the
library is a function on these two types, so that every proof is an induction on a list.

The operations that edit a text give it back untouched whenever there is nothing to do, and a
caller can tell: `Edited` records *which of the two happened*. It is not a statement about
equality — replacing every `a` by `a` builds a new text that happens to equal the old one.
-/

set_option autoImplicit false

namespace TextOps

/-- A text, as the list of its Unicode scalar values. -/
abbrev Text := List Char

abbrev Bytes := List UInt8

/-- The result of editing a value: the value itself, or one that was built anew. -/
inductive Edited (α : Type) where
  /-- Nothing had to be edited; the input is handed back. -/
  | kept (same : α)
  /-- Something was edited, whether or not the outcome differs from the input. -/
  | built (fresh : α)
deriving DecidableEq, Repr

namespace Edited

variable {α β : Type}

/-- The value, whichever way it came about. -/
def value : Edited α → α
  | kept a => a
  | built a => a

/-- Whether the input was handed back as it was. -/
def isKept : Edited α → Bool
  | kept _ => true
  | built _ => false

/-- Reads an edit of one representation as an edit of another, of which `input` is the value that
went in: what was handed back is `input` itself and is not converted a second time. -/
def onto (input : β) (f : α → β) : Edited α → Edited β
  | kept _ => kept input
  | built a => built (f a)

end Edited

end TextOps
