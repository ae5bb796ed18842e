import TextOps.Text

/-!
# `TextOps/Escape/Splice.lean` — cutting replacements into a string of octets

An `Edit` puts octets in the place of a stretch of the input. `splice` applies edits that do not
overlap and come in order: it copies the run of input before each edit as it stands, then the
replacement, and after the last edit the rest of the input.

How long a run is comes from a subtraction of offsets, which gives nothing sensible for edits out of
order. The edits that escapers make are in order (`inOrder_editsFrom`), so asking for each run by its
bounds gives the same octets (`splice?_editsFrom`).
-/

set_option autoImplicit false

namespace TextOps

/-- Octets to stand in the place of a stretch of the input. -/
structure Edit where
  start : Nat
  stop : Nat
  replacement : Bytes
deriving DecidableEq

/-- Applies edits to the rest of an input, of which the octets before the offset `done` have been
dealt with. -/
def splice (done : Nat) (rest : Bytes) : List Edit → Bytes
  | [] => rest
  | e :: es =>
    rest.take (e.start - done) ++ e.replacement
      ++ splice e.stop (rest.drop (e.stop - done)) es

end TextOps
