import TextOps.CharClass.Basic

/-!
# `TextOps/CharClass/Algebra.lean` — complement, intersection and union of classes

The operations decide what can be decided from the form of the first operand. An intersection
with a single character is that character or nothing; a union with all characters but one is that
class again or everything; and a double complement is the class itself. Everything else keeps both
operands.

`anyOf` reads a list of characters as a set: neither order nor repetition shows in the form.
-/

set_option autoImplicit false

namespace TextOps

/-- Puts a character into a sorted list of distinct characters. -/
def insertSorted (c : Char) : Text → Text
  | [] => [c]
  | d :: ds => if c < d then c :: d :: ds else if c = d then d :: ds else d :: insertSorted c ds

/-- The distinct characters of a text, in ascending order. -/
def sortedSet (s : Text) : Text := s.foldr insertSorted []

namespace CharClass

variable {P : Type}

/-- The class of the characters that a class lacks. -/
def negate : CharClass P → CharClass P
  | anything => nothing
  | nothing => anything
  | single c => allBut c
  | allBut c => single c
  | complement m => m
  | m => complement m

/-- The class of the characters that two classes share. -/
def and [CharPredicate P] : CharClass P → CharClass P → CharClass P
  | anything, b => b
  | nothing, _ => nothing
  | single c, b => if b.accepts c then single c else nothing
  | allBut c, b => if b.accepts c then both (allBut c) b else b
  | a, b => both a b

/-- The class of the characters in either of two classes. -/
def or [CharPredicate P] : CharClass P → CharClass P → CharClass P
  | anything, _ => anything
  | nothing, b => b
  | single c, b => if b.accepts c then b else either (single c) b
  | allBut c, b => if b.accepts c then anything else allBut c
  | a, b => either a b

/-- The class of a sorted list of distinct characters, in the form that its length calls for. -/
def ofSorted : Text → CharClass P
  | [] => nothing
  | [c] => single c
  | [a, b] => pair a b
  | cs => oneOf cs.toArray

/-- The class of the characters that occur in a text. -/
def anyOf (s : Text) : CharClass P := ofSorted (sortedSet s)

/-- The class of the characters that do not occur in a text. -/
def noneOf (s : Text) : CharClass P := (anyOf s).negate

end CharClass

end TextOps
