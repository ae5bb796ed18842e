import TextOps.Utf8
import TextOps.Offset
import TextOps.Escape.Event
import TextOps.Escape.Fault

/-!
# `TextOps/Escape/Unit.lean` — what an escaper works on: characters or octets

An escaper replaces *units*, one at a time and each on its own. A unit is a character or an octet,
and everything else about escaping is the same for both, so it is written once over the class
`EscapeUnit`. An input is a list of units and so is a replacement. Every unit has octets, a code
under which tables list it, and a place in the order of codes; and a text can be read as units and
units as a text.

Octets that spell no text are read as one all the same, with U+FFFD for what is broken
(`Utf8.decode`).
-/

set_option autoImplicit false

namespace TextOps

/-- The units that escapers work on. -/
class EscapeUnit (U : Type) where
  octets : U → Bytes
  /-- The units that octets spell. -/
  ofOctets : Bytes → List U
  ofText : Text → List U
  /-- The text that units spell. -/
  toText : List U → Text
  /-- The number of a unit, which is its place in tables and in the order of units. -/
  code : U → Nat
  least : U
  greatest : U
  /-- What is wrong with a start that is no boundary of the input. -/
  badStart : Nat → Fault
  /-- The report that an escaper with a safe range is being built. -/
  building : Nat → U → U → Event

instance : EscapeUnit Char where
  octets := String.utf8EncodeChar
  ofOctets := Utf8.decode
  ofText s := s
  toText s := s
  code := Char.toNat
  least := Char.ofNat 0
  greatest := Char.ofNat 0x10FFFF
  badStart _ := .startOffBoundary
  building := .buildingChars

instance : EscapeUnit UInt8 where
  octets b := [b]
  ofOctets bs := bs
  ofText := Utf8.encode
  toText := Utf8.decode
  code := UInt8.toNat
  least := 0
  greatest := 0xFF
  badStart := .startOutOfRange
  building := .buildingBytes

namespace EscapeUnit

variable {U : Type} [EscapeUnit U]

/-- How many octets a unit takes. -/
def width (u : U) : Nat := (octets u).length

def encode (us : List U) : Bytes := us.flatMap octets

end EscapeUnit

end TextOps
