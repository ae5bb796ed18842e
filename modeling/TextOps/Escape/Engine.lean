import TextOps.Escape.Logged
import TextOps.Escape.Splice
import TextOps.Escape.Unit

/-!
# `TextOps/Escape/Engine.lean` — the two paths that every escaper takes

Escaping begins with a scan for the first unit that may need a replacement. If there is none the
input is handed back and nothing is reported. Otherwise the slow path starts at that unit: it
collects an edit for every unit with a replacement and splices the edits into the octets of the
input, so that whole runs of octets are copied between replacements. If no unit turns out to have
one, the input is handed back even so.

What the scan looks for and what the slow path replaces are two functions, because the scan of some
escapers is coarser: a unit may need a look and then stay.

The buffer in which the octets are put together, and how it grows, make no difference to the result
and are left out here. `TextOps/Proofs/Escape/Buffer.lean` has them: a buffer fails only for want of
room.
-/

set_option autoImplicit false

namespace TextOps

variable {U : Type} [EscapeUnit U]

/-- The edits for the units that have a replacement; each unit comes with its offset. -/
def edits (replace : U → Option (List U)) (units : List (Nat × U)) : List Edit :=
  units.filterMap fun (i, u) =>
    (replace u).map fun r => ⟨i, i + EscapeUnit.width u, EscapeUnit.encode r⟩

/-- The edits for the units of an input that lie at or after the offset `start`. -/
def editsFrom (replace : U → Option (List U)) (us : List U) (start : Nat) : List Edit :=
  edits replace ((Offset.locate EscapeUnit.width 0 us).dropWhile (·.1 < start))

/-- The octets of an input with the units at or after `start` replaced. -/
def editOctets (replace : U → Option (List U)) (us : List U) (start : Nat) :
    Edited Bytes :=
  let input := EscapeUnit.encode us
  match editsFrom replace us start with
  | [] => .kept input
  | es => .built (splice 0 input es)

/-- The slow path from a boundary of the input on. -/
def escapeFrom (replace : U → Option (List U)) (us : List U) (start : Nat) :
    Logged (Edited (List U)) := do
  Logged.report (.slowPath start (EscapeUnit.encode us).length)
  return (editOctets replace us start).onto us EscapeUnit.ofOctets

/-- Escapes an input, taking the slow path from the first unit that the scan stops at. -/
def escapeWhere (scan : U → Bool) (replace : U → Option (List U)) (us : List U) :
    Logged (Edited (List U)) :=
  match Offset.first? EscapeUnit.width scan us with
  | some start => escapeFrom replace us start
  | none => pure (.kept us)

/-- The slow path from any offset, which has to be a boundary of the input. -/
def escapeSlow (replace : U → Option (List U)) (us : List U) (start : Nat) :
    Logged (Except Fault (Edited (List U))) :=
  if Offset.isBoundary EscapeUnit.width us start then Except.ok <$> escapeFrom replace us start
  else pure (.error (EscapeUnit.badStart U start))

/-- Escapes a text by its units. A text that is handed back is not read from units again. -/
def escapeText (escape : List U → Logged (Edited (List U))) (s : Text) :
    Logged (Edited Text) := do
  return (← escape (EscapeUnit.ofText s)).onto s EscapeUnit.toText

end TextOps
