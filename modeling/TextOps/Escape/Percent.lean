import TextOps.Escape.Engine
import TextOps.Numeral

/-!
# `TextOps/Escape/Percent.lean` — percent-encoding

A percent escaper leaves safe characters alone and writes every other one as its octets, each as a
percent sign and two upper-case hexadecimal digits; it may write a space as a plus sign instead.
ASCII letters and digits are always safe. A configuration that lists one of them is refused, and so
is one in which a space would be safe and a plus sign at once.
-/

set_option autoImplicit false

namespace TextOps

/-- An escaper that percent-encodes what is not safe. -/
structure PercentEscaper where
  /-- By code point, whether a character is safe; what lies beyond the table is not. -/
  safeTable : Array Bool
  plusForSpace : Bool

namespace PercentEscaper

/-- The characters that are safe in every configuration. -/
def alphanumerics : Text :=
  "0123456789ABCDEFGHIJKLMNOPQRSTUVWXYZabcdefghijklmnopqrstuvwxyz".toList

/-- A table that is long enough for the given characters and true at each of them. -/
def marks (cs : Text) : Array Bool :=
  cs.foldl (fun table c => table.setIfInBounds c.toNat true)
    (Array.replicate (cs.foldl (fun n c => max n (c.toNat + 1)) 0) false)

/-- The escaper for which the listed characters are safe besides letters and digits. -/
def ofSafe (safe : Text) (plusForSpace : Bool) : PercentEscaper :=
  ⟨marks (safe ++ alphanumerics), plusForSpace⟩

/-- The escaper for a configuration, unless the configuration contradicts itself. -/
def make (safe : Text) (plusForSpace : Bool) : Logged (Except ConfigError PercentEscaper) :=
  match safe.find? Char.isAlphanum with
  | some c => do
    Logged.report (.alphanumericListed c safe)
    return .error (.alphanumericSafe c)
  | none =>
    if plusForSpace && safe.contains ' ' then do
      Logged.report (.spaceListed safe)
      return .error .plusForSafeSpace
    else do
      Logged.report (.buildingPercent safe plusForSpace)
      return .ok (ofSafe safe plusForSpace)

/-- The escaper for a configuration that is insisted on: a refusal is a fault. -/
def insist (safe : Text) (plusForSpace : Bool) : Logged (Except Fault PercentEscaper) := do
  return (← make safe plusForSpace).mapError .refused

def isSafe (e : PercentEscaper) (c : Char) : Bool := e.safeTable[c.toNat]?.getD false

/-- A character as its octets, each with a percent sign and two hexadecimal digits. -/
def encoded (c : Char) : Text :=
  (String.utf8EncodeChar c).flatMap fun b => '%' :: Numeral.hexOctet b.toNat

def replace (e : PercentEscaper) (c : Char) : Option Text :=
  if e.isSafe c then none
  else if c = ' ' && e.plusForSpace then some ['+']
  else some (encoded c)

def escape (e : PercentEscaper) (s : Text) : Logged (Edited Text) :=
  escapeWhere (fun c => !e.isSafe c) e.replace s

end PercentEscaper

end TextOps
