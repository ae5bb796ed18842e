import TextOps.Text
import TextOps.Numeral
import TextOps.Unicode.Printable

/-!
# `TextOps/Quoted.lean` — a single character in quotation marks

Messages and log fields show a character between apostrophes. The apostrophe itself, the
backslash and four control characters have short escapes; any other character that cannot stand
alone is named by its code point.
-/

set_option autoImplicit false

namespace TextOps

/-- The short escape of a character, if it has one. -/
def shortEscape? (c : Char) : Option Char :=
  if c = '\x00' then some '0'
  else if c = '\t' then some 't'
  else if c = '\r' then some 'r'
  else if c = '\n' then some 'n'
  else if c = '\x5c' || c = '\x27' then some c
  else none

/-- What stands for a character between the quotation marks. -/
def quotedBody (c : Char) : Text :=
  match shortEscape? c with
  | some e => ['\x5c', e]
  | none =>
    if Unicode.isPrintable c then [c]
    else ['\x5c', 'u', '\x7b'] ++ Numeral.lowerHex c.toNat ++ ['\x7d']

/-- A character in quotation marks. -/
def quoted (c : Char) : Text := ['\x27'] ++ quotedBody c ++ ['\x27']

end TextOps
