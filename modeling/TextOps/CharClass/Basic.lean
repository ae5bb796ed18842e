import TextOps.CharTest.Basic
import TextOps.CharClass.Predicate
import TextOps.SortedTable
import TextOps.Unicode.Property

/-!
# `TextOps/CharClass/Basic.lean` — classes of characters

A `CharClass` is a class of characters *with a form*: besides the question which characters
belong to it there are the questions whether two classes have the same form, and how the form is
written. The constructors are the forms; they are put together by the operations of
`CharClass.Algebra`, which keep forms simple.

The parameter `P` is the type of the predicates that a class can rest on (`CharClass.Predicate`);
`CharClass Empty` rests on none.
-/

set_option autoImplicit false

namespace TextOps

/-- The form of a class of characters. -/
inductive CharClass (P : Type) where
  | anything
  | nothing
  | single (c : Char)
  | allBut (c : Char)
  /-- Two characters, the lesser first. -/
  | pair (a b : Char)
  /-- The characters of a table that is sorted, without repetition, and has three at least. -/
  | oneOf (cs : Array Char)
  /-- The characters from `lo` to `hi`, both included. -/
  | range (lo hi : Char)
  | whitespace
  /-- White space at which a line may be broken. -/
  | breakingWhitespace
  | ascii
  /-- Decimal digits of any script. -/
  | digit
  /-- Characters that render as nothing. -/
  | invisible
  /-- Characters of a single octet. -/
  | singleWidth
  | predicate (p : P)
  | complement (m : CharClass P)
  | both (a b : CharClass P)
  | either (a b : CharClass P)

namespace CharClass

variable {P : Type}

/-- Whether a character belongs to a class. -/
def accepts [CharPredicate P] : CharClass P → Char → Bool
  | anything, _ => true
  | nothing, _ => false
  | single m, c => c == m
  | allBut m, c => c != m
  | pair a b, c => c == a || c == b
  | oneOf cs, c => SortedTable.lastWhere? (· ≤ c) cs == some c
  | range lo hi, c => lo ≤ c && c ≤ hi
  | whitespace, c => Unicode.isWhiteSpace c
  | breakingWhitespace, c => Unicode.isBreakingWhiteSpace c
  | ascii, c => Unicode.isAscii c
  | digit, c => Unicode.isDigit c
  | invisible, c => Unicode.isInvisible c
  | singleWidth, c => Unicode.isSingleWidth c
  | predicate p, c => CharPredicate.holds p c
  | complement m, c => !m.accepts c
  | both a b, c => a.accepts c && b.accepts c
  | either a b, c => a.accepts c || b.accepts c

/-- A class as a test on characters, which forgets its form. -/
def test [CharPredicate P] (m : CharClass P) : CharTest := m.accepts

/-- Whether two classes have the same form. Predicates count as the same if they are identical,
whatever they say. -/
def same [BEq P] : CharClass P → CharClass P → Bool
  | anything, anything => true
  | nothing, nothing => true
  | single a, single b => a == b
  | allBut a, allBut b => a == b
  | pair a b, pair a' b' => a == a' && b == b'
  | oneOf cs, oneOf ds => cs == ds
  | range lo hi, range lo' hi' => lo == lo' && hi == hi'
  | whitespace, whitespace => true
  | breakingWhitespace, breakingWhitespace => true
  | ascii, ascii => true
  | digit, digit => true
  | invisible, invisible => true
  | singleWidth, singleWidth => true
  | predicate p, predicate q => p == q
  | complement a, complement b => same a b
  | both a b, both a' b' => same a a' && same b b'
  | either a b, either a' b' => same a a' && same b b'
  | _, _ => false

instance [BEq P] : BEq (CharClass P) where
  beq := same

end CharClass

end TextOps
