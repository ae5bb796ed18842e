import TextOps.CharTest.Query
import TextOps.CharClass.Basic

/-!
# `TextOps/CharClass/Query.lean` — text operations that look at the form of a class

Any operation on a class is the operation on its test. A few can be answered from the form alone:
everything and nothing need no look at the text, and a single character is replaced literally.
None of these short cuts may change an answer, nor whether a text is handed back.
-/

set_option autoImplicit false

namespace TextOps.CharClass

variable {P : Type} [CharPredicate P]

def allIn (m : CharClass P) (s : Text) : Bool :=
  match m with
  | anything => true
  | nothing => s.isEmpty
  | m => m.test.allIn s

def countIn (m : CharClass P) (s : Text) : Nat :=
  match m with
  | anything => s.length
  | nothing => 0
  | m => m.test.countIn s

/-- Replaces every character of the class by `r`. -/
def replaceFrom (m : CharClass P) (s r : Text) : Edited Text :=
  match m with
  | nothing => .kept s
  | single c =>
    if s.contains c then .built (s.flatMap fun d => if d == c then r else [d]) else .kept s
  | m => m.test.replaceFrom s r

def replaceFromChar (m : CharClass P) (s : Text) (r : Char) : Edited Text :=
  m.replaceFrom s [r]

/-- A text without the characters of the class at either end. -/
def trimFrom (m : CharClass P) (s : Text) : Text :=
  match m with
  | nothing => s
  | anything => []
  | m => m.test.trimFrom s

/-- Strips the runs at the ends and replaces each other run by a single `r`. -/
def trimAndCollapseFrom (m : CharClass P) (s : Text) (r : Char) : Edited Text :=
  m.test.collapseFrom (m.trimFrom s) r

/-- The answer of a class to a query. -/
def answer (m : CharClass P) : Query → Answer
  | .allIn s => .flag (m.allIn s)
  | .countIn s => .count (m.countIn s)
  | .replaceFromChar s r => .edited (m.replaceFromChar s r)
  | .replaceFrom s r => .edited (m.replaceFrom s r)
  | .trimAndCollapseFrom s r => .edited (m.trimAndCollapseFrom s r)
  | .trimFrom s => .text (m.trimFrom s)
  | q => m.test.answer q

end TextOps.CharClass
