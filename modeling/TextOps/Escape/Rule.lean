import TextOps.Escape.Unit
import TextOps.Numeral

/-!
# `TextOps/Escape/Rule.lean` — replacement functions as data

Some replacement functions that can be written down: a finite list of cases, and a few notations
for a unit by its code or between brackets. Who asks for an escaper from outside cannot hand over a
function, but can write one of these.
-/

set_option autoImplicit false

namespace TextOps

/-- A replacement function in writing. -/
inductive Rule (U : Type) where
  /-- Listed units are replaced, or left alone, as their first case says; the others as `others`. -/
  | cases (listed : List (U × Option (List U))) (others : Option (List U))
  /-- The decimal code in square brackets, for every unit that is no ASCII letter or digit. -/
  | decimal
  /-- The hexadecimal code in square brackets. -/
  | hex
  /-- The unit itself in braces. -/
  | braces
  /-- A percent sign and two hexadecimal digits. -/
  | percent

namespace Rule

variable {U : Type} [EscapeUnit U] [DecidableEq U]

/-- Whether a unit has the code of an ASCII letter or digit. -/
def isAlphanumeric (u : U) : Bool := (Char.ofNat (EscapeUnit.code u)).isAlphanum

/-- The function that a rule writes down. -/
def apply : Rule U → U → Option (List U)
  | cases listed others, u => ((listed.find? (·.1 = u)).map (·.2)).getD others
  | decimal, u =>
    if isAlphanumeric u then none
    else some (EscapeUnit.ofText (['['] ++ Numeral.decimal (EscapeUnit.code u) ++ [']']))
  | hex, u =>
    some (EscapeUnit.ofText (['['] ++ Numeral.upperHex (EscapeUnit.code u) ++ [']']))
  | braces, u => some (EscapeUnit.ofText ['\x7b'] ++ [u] ++ EscapeUnit.ofText ['\x7d'])
  | percent, u => some (EscapeUnit.ofText ('%' :: Numeral.hexOctet (EscapeUnit.code u)))

end Rule

end TextOps
