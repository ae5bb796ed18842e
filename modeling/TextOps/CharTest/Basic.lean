import TextOps.Text

/-!
# `TextOps/CharTest/Basic.lean` — tests on characters, and searching a text with one

A `CharTest` is any Boolean function on characters. Every operation on texts in this folder is a
function of a test and a text, so it is available for a bare function as well as for a named
class. An index counts characters from the start of the text.
-/

set_option autoImplicit false

namespace TextOps

abbrev CharTest := Char → Bool

namespace CharTest

/-- The index of the first passing character at or after `start`. -/
def indexIn (p : CharTest) (s : Text) (start : Nat) : Option Nat :=
  ((s.zipIdx.drop start).find? (p ·.1)).map (·.2)

/-- The same search on the remaining characters alone, with the indices shifted back. A start
beyond the end of the text finds nothing. -/
def indexInTail (p : CharTest) (s : Text) (start : Nat) : Option Nat :=
  if start ≤ s.length then ((s.drop start).findIdx? p).map (· + start) else none

/-- The index of the last passing character. -/
def lastIndexIn (p : CharTest) (s : Text) : Option Nat :=
  (s.reverse.findIdx? p).map (s.length - 1 - ·)

def noneIn (p : CharTest) (s : Text) : Bool := (p.indexIn s 0).isNone

def anyIn (p : CharTest) (s : Text) : Bool := !p.noneIn s

def allIn (p : CharTest) (s : Text) : Bool := s.all p

def countIn (p : CharTest) (s : Text) : Nat := s.countP p

end CharTest

end TextOps
