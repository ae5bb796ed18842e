import TextOps.Escape.Escaper

/-!
# `TextOps/Escape/Builder.lean` — configurations that escapers are built from

`Mappings` are the replacements listed so far, one for each unit. A `Builder` adds a safe range and
a replacement for units that are neither listed nor safe. Both are values: an escaper that has been
built is not touched by what is done to the configuration afterwards.
-/

set_option autoImplicit false

namespace TextOps

/-- The replacements listed so far, one for each listed unit. -/
structure Mappings (U : Type) where
  /-- The pairs of units and replacements; no unit occurs twice. -/
  pairs : List (U × List U) := []

namespace Mappings

variable {U : Type} [DecidableEq U]

def empty : Mappings U := ⟨[]⟩

/-- Lists a replacement for a unit, in the place of an earlier one. -/
def add (m : Mappings U) (u : U) (r : List U) : Mappings U :=
  ⟨m.pairs.filter (·.1 ≠ u) ++ [(u, r)]⟩

def addAll (m : Mappings U) (us : List U) (r : List U) : Mappings U :=
  us.foldl (fun m u => m.add u r) m

def count (m : Mappings U) : Nat := m.pairs.length

def toTable [EscapeUnit U] (m : Mappings U) : Table U := Table.ofPairs m.pairs

end Mappings

/-- A configuration for escapers with a safe range. -/
structure Builder (U : Type) where
  mappings : Mappings U
  low : U
  high : U
  /-- What replaces units that are neither listed nor safe; `none` leaves them alone. -/
  otherwise : Option (List U)

namespace Builder

variable {U : Type} [EscapeUnit U] [DecidableEq U]

/-- The configuration that lists nothing and takes every unit for safe. -/
def new : Builder U := ⟨.empty, EscapeUnit.least, EscapeUnit.greatest, none⟩

def add (b : Builder U) (u : U) (r : List U) : Builder U :=
  { b with mappings := b.mappings.add u r }

def addAll (b : Builder U) (us : List U) (r : List U) : Builder U :=
  { b with mappings := b.mappings.addAll us r }

def safeRange (b : Builder U) (low high : U) : Builder U := { b with low := low, high := high }

/-- Sets the replacement of units that are neither listed nor safe. -/
def replaceOthers (b : Builder U) (r : Option (List U)) : Builder U := { b with otherwise := r }

/-- Builds an escaper that leaves units that are neither listed nor safe to a function. -/
def buildWith (b : Builder U) (fallback : U → Option (List U)) : Logged (RangeEscaper U) := do
  Logged.report (EscapeUnit.building b.mappings.count b.low b.high)
  return .make b.mappings.toTable b.low b.high fallback

def build (b : Builder U) : Logged (RangeEscaper U) := b.buildWith fun _ => b.otherwise

end Builder

/-- Builds an escaper by table alone. -/
def Mappings.toEscaper (m : Mappings UInt8) : Logged (TableEscaper UInt8) := do
  Logged.report (.buildingByteTable m.count)
  return ⟨m.toTable⟩

end TextOps
