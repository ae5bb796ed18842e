import TextOps.Quoted

/-!
# `TextOps/Escape/Fault.lean` — why an escaper cannot be built, and why a call can fail
-/

set_option autoImplicit false

namespace TextOps

/-- Why a percent escaper is refused. -/
inductive ConfigError where
  /-- A letter or digit was listed as safe, which it is anyway. -/
  | alphanumericSafe (c : Char)
  /-- Space was listed as safe, and was to be written as a plus sign as well. -/
  | plusForSafeSpace
deriving DecidableEq

/-- The wording of a refusal. -/
def ConfigError.message : ConfigError → Text
  | alphanumericSafe c =>
    "alphanumeric characters are always safe and must not be listed: ".toList ++ quoted c
  | plusForSafeSpace => "plus_for_space cannot be set when space is a safe character".toList

/-- Why a call fails for good. -/
inductive Fault where
  /-- An escaper was insisted on that is refused. -/
  | refused (e : ConfigError)
  /-- Escaping was to start behind the end of the octets. -/
  | startOutOfRange (start : Nat)
  /-- Escaping was to start inside a character, or behind the end of the text. -/
  | startOffBoundary
deriving DecidableEq

/-- The wording of a fault, for those that have one of their own. -/
def Fault.message? : Fault → Option Text
  | refused e => some e.message
  | startOutOfRange start =>
    some ("escape start out of range: ".toList ++ Numeral.decimal start)
  | startOffBoundary => none

end TextOps
