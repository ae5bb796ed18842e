import TextOps.Text

/-!
# `TextOps/CharClass/Predicate.lean` — predicates that a class of characters can refer to

A class may rest on a predicate that is not one of the named ones. What such a predicate *says*
about a character cannot be compared, so two classes that rest on predicates are the same only if
they rest on the very same predicate. That takes two things from the type of predicates: what they
say (`CharPredicate`), and an equality that is identity (`DecidableEq`, wherever it is needed).

`Shared` turns any type of rules into such a type: a rule together with the number of the occasion
on which it was put to use. Two uses of one rule are different predicates.
-/

set_option autoImplicit false

namespace TextOps

/-- A type whose values say yes or no to a character. -/
class CharPredicate (P : Type) where
  holds : P → Char → Bool

/-- There is no predicate to ask. -/
instance : CharPredicate Empty where
  holds p := nomatch p

/-- A function on characters is a predicate. -/
instance : CharPredicate (Char → Bool) where
  holds p := p

/-- A rule, and the occasion on which it became a predicate. -/
structure Shared (Q : Type) where
  /-- The number of the occasion. -/
  occasion : Nat
  rule : Q
deriving DecidableEq

instance {Q : Type} [CharPredicate Q] : CharPredicate (Shared Q) where
  holds p := CharPredicate.holds p.rule

/-- Simple rules about characters, as data. -/
inductive CharRule where
  /-- The character occurs in the given text. -/
  | occursIn (s : Text)
  /-- The code point leaves the given residue. -/
  | congruent (modulus residue : Nat)
deriving DecidableEq

instance : CharPredicate CharRule where
  holds
    | .occursIn s, c => s.contains c
    | .congruent m r, c => c.toNat % m == r

end TextOps
