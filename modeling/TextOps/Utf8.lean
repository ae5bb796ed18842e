import TextOps.Text

/-!
# `TextOps/Utf8.lean` — texts as octets, and octets as texts

Encoding is one character after the other. Decoding has to say what becomes of octets that are no
encoding at all: it cuts the octets into *pieces*, each a character or one maximal broken
sequence, and every broken piece reads as U+FFFD. A sequence breaks at the first octet that no
well-formed sequence could have there, and that octet starts a piece of its own — so an ASCII
octet is never swallowed by a sequence that was cut short before it.

The decoder is an automaton over octets. Between characters its state is `none`; inside one it
remembers how many octets are owed and the range the next one must lie in. The ranges are those of
the well-formed sequences: they exclude overlong forms (after `E0` and `F0`), surrogates (after
`ED`) and everything above U+10FFFF (after `F4`).
-/

set_option autoImplicit false

namespace TextOps.Utf8

/-- The octets of a text. -/
def encode (s : Text) : Bytes := s.flatMap String.utf8EncodeChar

/-- The character that stands for every broken sequence. -/
def replacement : Char := '\uFFFD'

/-- A sequence that has begun and is not complete. -/
structure Partial where
  /-- How many octets are owed after the next one. -/
  more : Nat
  /-- The least octet that can come next. -/
  low : UInt8
  /-- The greatest octet that can come next. -/
  high : UInt8
  /-- The code point bits read so far. -/
  bits : Nat
deriving DecidableEq, Repr

def Partial.admits (p : Partial) (b : UInt8) : Bool := p.low ≤ b && b ≤ p.high

/-- A stretch of the input: a character, or `none` for one maximal broken sequence. -/
abbrev Piece := Option Char

/-- The sequence that an octet of at least `80` opens, if it can open one. -/
def opening (b : UInt8) : Option Partial :=
  if 0xC2 ≤ b && b ≤ 0xDF then some ⟨0, 0x80, 0xBF, b.toNat % 32⟩
  else if b = 0xE0 then some ⟨1, 0xA0, 0xBF, b.toNat % 16⟩
  else if b = 0xED then some ⟨1, 0x80, 0x9F, b.toNat % 16⟩
  else if 0xE1 ≤ b && b ≤ 0xEF then some ⟨1, 0x80, 0xBF, b.toNat % 16⟩
  else if b = 0xF0 then some ⟨2, 0x90, 0xBF, b.toNat % 8⟩
  else if 0xF1 ≤ b && b ≤ 0xF3 then some ⟨2, 0x80, 0xBF, b.toNat % 8⟩
  else if b = 0xF4 then some ⟨2, 0x80, 0x8F, b.toNat % 8⟩
  else none

/-- Reads an octet that is not inside a sequence: the pieces it completes and the state after it. -/
def begin (b : UInt8) : List Piece × Option Partial :=
  if b < 0x80 then ([some (Char.ofNat b.toNat)], none)
  else match opening b with
    | some p => ([], some p)
    | none => ([none], none)

/-- Reads an octet in any state. An octet that does not continue the open sequence breaks it, and
is then read as if it stood alone. -/
def feed : Option Partial → UInt8 → List Piece × Option Partial
  | none, b => begin b
  | some p, b =>
    if p.admits b then
      let bits := p.bits * 64 + b.toNat % 64
      match p.more with
      | 0 => ([some (Char.ofNat bits)], none)
      | n + 1 => ([], some ⟨n, 0x80, 0xBF, bits⟩)
    else (none :: (begin b).1, (begin b).2)

/-- What is left at the end of the input: a sequence still open there is broken. -/
def finish : Option Partial → List Piece
  | none => []
  | some _ => [none]

/-- The pieces of the octets that are read from a given state on. -/
def pieces : Option Partial → Bytes → List Piece
  | st, [] => finish st
  | st, b :: bs => (feed st b).1 ++ pieces (feed st b).2 bs

/-- The text that octets spell, with U+FFFD for each maximal broken sequence. -/
def decode (bs : Bytes) : Text := (pieces none bs).map (·.getD replacement)

end TextOps.Utf8
