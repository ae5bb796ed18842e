import TextOps.Escape.Engine
import TextOps.Escape.Table

/-!
# `TextOps/Escape/Escaper.lean` — escapers by function, by table and range, and by table alone

All three replace units by a function of one unit. They differ in where the function comes from,
and in what the scan for the first unit looks at.
-/

set_option autoImplicit false

namespace TextOps

variable {U : Type} [EscapeUnit U]

/-! ## By function -/

/-- An escaper that is given by its function. -/
structure FunctionEscaper (U : Type) where
  /-- The replacement of a unit; `none` leaves the unit alone. -/
  replace : U → Option (List U)

namespace FunctionEscaper

/-- Escapes units; the scan stops at the first unit that has a replacement. -/
def escapeUnits (e : FunctionEscaper U) (us : List U) : Logged (Edited (List U)) :=
  escapeWhere (fun u => (e.replace u).isSome) e.replace us

def escape (e : FunctionEscaper U) (s : Text) : Logged (Edited Text) :=
  escapeText e.escapeUnits s

/-- Escapes units from an offset on, for a caller that knows that nothing before it needs it. -/
def escapeSlow (e : FunctionEscaper U) (us : List U) (start : Nat) :
    Logged (Except Fault (Edited (List U))) :=
  TextOps.escapeSlow e.replace us start

end FunctionEscaper

/-! ## By table and safe range -/

/-- An escaper that looks a unit up in a table first; a unit that is not listed stays if it lies in
the safe range, and is up to the fallback otherwise. -/
structure RangeEscaper (U : Type) where
  table : Table U
  low : U
  high : U
  /-- The replacement of units that are neither listed nor safe. -/
  fallback : U → Option (List U)

namespace RangeEscaper

/-- The escaper with the safe range from `low` to `high`. A reversed range is empty, and is stored
as the range from the greatest unit to the least. -/
def make (table : Table U) (low high : U) (fallback : U → Option (List U)) : RangeEscaper U :=
  if EscapeUnit.code high < EscapeUnit.code low then
    ⟨table, EscapeUnit.greatest, EscapeUnit.least, fallback⟩
  else ⟨table, low, high, fallback⟩

def isSafe (e : RangeEscaper U) (u : U) : Bool :=
  EscapeUnit.code e.low ≤ EscapeUnit.code u && EscapeUnit.code u ≤ EscapeUnit.code e.high

def replace (e : RangeEscaper U) (u : U) : Option (List U) :=
  match e.table.get? u with
  | some r => some r
  | none => if e.isSafe u then none else e.fallback u

/-- Whether the scan stops at a unit: it is listed or not safe, whatever the fallback will say. -/
def needsLook (e : RangeEscaper U) (u : U) : Bool := (e.table.get? u).isSome || !e.isSafe u

def escapeUnits (e : RangeEscaper U) (us : List U) : Logged (Edited (List U)) :=
  escapeWhere e.needsLook e.replace us

def escape (e : RangeEscaper U) (s : Text) : Logged (Edited Text) :=
  escapeText e.escapeUnits s

end RangeEscaper

/-! ## By table alone -/

/-- An escaper that replaces what its table lists. -/
structure TableEscaper (U : Type) where
  table : Table U

namespace TableEscaper

def replace (e : TableEscaper U) (u : U) : Option (List U) := e.table.get? u

def escapeUnits (e : TableEscaper U) (us : List U) : Logged (Edited (List U)) :=
  escapeWhere (fun u => (e.table.get? u).isSome) e.replace us

def escape (e : TableEscaper U) (s : Text) : Logged (Edited Text) :=
  escapeText e.escapeUnits s

end TableEscaper

end TextOps
