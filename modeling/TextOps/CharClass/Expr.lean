import TextOps.CharClass.Algebra

/-!
# `TextOps/CharClass/Expr.lean` — classes as expressions, and what the expressions say

An `Atom` is one of the ways to start a class, and a `CharExpr` combines atoms by complement,
intersection and union. An expression has two readings: `build` makes the class, with all the
simplifications on the way, and `eval` is the plain Boolean value at one character. The point of
the second is to say, without any of the forms, what the first has to mean.
-/

set_option autoImplicit false

namespace TextOps

/-- A class that is not made from others. -/
inductive Atom (P : Type) where
  | anything
  | nothing
  | single (c : Char)
  | allBut (c : Char)
  | anyOf (s : Text)
  | noneOf (s : Text)
  | range (lo hi : Char)
  | predicate (p : P)
  | whitespace
  | breakingWhitespace
  | ascii
  | digit
  | invisible
  | singleWidth

namespace Atom

variable {P Q : Type}

/-- The class that an atom names. -/
def build : Atom P → CharClass P
  | anything => .anything
  | nothing => .nothing
  | single c => .single c
  | allBut c => .allBut c
  | anyOf s => .anyOf s
  | noneOf s => .noneOf s
  | range lo hi => .range lo hi
  | predicate p => .predicate p
  | whitespace => .whitespace
  | breakingWhitespace => .breakingWhitespace
  | ascii => .ascii
  | digit => .digit
  | invisible => .invisible
  | singleWidth => .singleWidth

/-- What an atom says about a character. -/
def eval [CharPredicate P] : Atom P → Char → Bool
  | anything, _ => true
  | nothing, _ => false
  | single m, c => c == m
  | allBut m, c => c != m
  | anyOf s, c => s.contains c
  | noneOf s, c => !s.contains c
  | range lo hi, c => lo ≤ c && c ≤ hi
  | predicate p, c => CharPredicate.holds p c
  | whitespace, c => Unicode.isWhiteSpace c
  | breakingWhitespace, c => Unicode.isBreakingWhiteSpace c
  | ascii, c => Unicode.isAscii c
  | digit, c => Unicode.isDigit c
  | invisible, c => Unicode.isInvisible c
  | singleWidth, c => Unicode.isSingleWidth c

/-- The same atom over another type of predicates. -/
def map (f : P → Q) : Atom P → Atom Q
  | anything => anything
  | nothing => nothing
  | single c => single c
  | allBut c => allBut c
  | anyOf s => anyOf s
  | noneOf s => noneOf s
  | range lo hi => range lo hi
  | predicate p => predicate (f p)
  | whitespace => whitespace
  | breakingWhitespace => breakingWhitespace
  | ascii => ascii
  | digit => digit
  | invisible => invisible
  | singleWidth => singleWidth

end Atom

/-- An expression over atoms. -/
inductive CharExpr (P : Type) where
  | atom (a : Atom P)
  | negate (e : CharExpr P)
  | and (a b : CharExpr P)
  | or (a b : CharExpr P)

namespace CharExpr

variable {P : Type} [CharPredicate P]

/-- The class that an expression builds. -/
def build : CharExpr P → CharClass P
  | atom a => a.build
  | negate e => e.build.negate
  | and a b => a.build.and b.build
  | or a b => a.build.or b.build

/-- The Boolean value of an expression at a character. -/
def eval : CharExpr P → Char → Bool
  | atom a, c => a.eval c
  | negate e, c => !e.eval c
  | and a b, c => a.eval c && b.eval c
  | or a b, c => a.eval c || b.eval c

end CharExpr

end TextOps
