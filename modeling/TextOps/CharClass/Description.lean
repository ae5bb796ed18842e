import TextOps.CharClass.Basic
import TextOps.Numeral

/-!
# `TextOps/CharClass/Description.lean` — the form of a class in writing

A description is the expression that builds the class. Characters are written by code point, in
four hexadecimal digits at least, so a description is readable whatever the characters are; a
predicate is only said to be one.
-/

set_option autoImplicit false

namespace TextOps.CharClass

variable {P : Type}

/-- A character by its code point, in at least four upper-case hexadecimal digits. -/
def writtenChar (c : Char) : Text :=
  ['\x5c', 'u', '\x7b'] ++ (Numeral.upperHex c.toNat).leftpad 4 '0' ++ ['\x7d']

/-- A character by its code point, between apostrophes. -/
def writtenQuoted (c : Char) : Text := ['\x27'] ++ writtenChar c ++ ['\x27']

/-- The expression for a class that is given by its members. -/
def writtenMembers (cs : Text) : Text :=
  "Matcher::any_of(\"".toList ++ cs.flatMap writtenChar ++ "\")".toList

/-- The description of a class. -/
def description : CharClass P → Text
  | anything => "Matcher::any()".toList
  | nothing => "Matcher::none()".toList
  | single c => "Matcher::is(".toList ++ writtenQuoted c ++ ")".toList
  | allBut c => "Matcher::is_not(".toList ++ writtenQuoted c ++ ")".toList
  | pair a b => writtenMembers [a, b]
  | oneOf cs => writtenMembers cs.toList
  | range lo hi =>
    "Matcher::in_range(".toList ++ writtenQuoted lo ++ ", ".toList ++ writtenQuoted hi
      ++ ")".toList
  | whitespace => "Matcher::whitespace()".toList
  | breakingWhitespace => "Matcher::breaking_whitespace()".toList
  | ascii => "Matcher::ascii()".toList
  | digit => "Matcher::digit()".toList
  | invisible => "Matcher::invisible()".toList
  | singleWidth => "Matcher::single_width()".toList
  | predicate _ => "Matcher::for_predicate(..)".toList
  | complement m => m.description ++ ".negate()".toList
  | both a b => a.description ++ ".and(".toList ++ b.description ++ ")".toList
  | either a b => a.description ++ ".or(".toList ++ b.description ++ ")".toList

end TextOps.CharClass
