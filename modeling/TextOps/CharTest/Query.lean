import TextOps.CharTest.Replace
import TextOps.CharTest.Collapse

/-!
# `TextOps/CharTest/Query.lean` — the text operations as data

A `Query` names one text operation with its arguments, and an `Answer` is what an operation gives.
With the operations as data, "every operation agrees" is a statement about one function.
-/

set_option autoImplicit false

namespace TextOps

/-- A question that a test, or a class of characters, answers about a character or a text. -/
inductive Query where
  | accepts (c : Char)
  | indexIn (s : Text) (start : Nat)
  | indexInTail (s : Text) (start : Nat)
  | lastIndexIn (s : Text)
  | anyIn (s : Text)
  | allIn (s : Text)
  | noneIn (s : Text)
  | countIn (s : Text)
  | removeFrom (s : Text)
  | retainFrom (s : Text)
  | replaceFromChar (s : Text) (r : Char)
  | replaceFrom (s r : Text)
  | collapseFrom (s : Text) (r : Char)
  | trimAndCollapseFrom (s : Text) (r : Char)
  | trimFrom (s : Text)
  | trimLeadingFrom (s : Text)
  | trimTrailingFrom (s : Text)

/-- The answer to a query. -/
inductive Answer where
  | flag (b : Bool)
  | index (i : Option Nat)
  | count (n : Nat)
  | edited (r : Edited Text)
  | text (s : Text)
deriving DecidableEq

/-- The answer of a test to a query. -/
def CharTest.answer (p : CharTest) : Query → Answer
  | .accepts c => .flag (p c)
  | .indexIn s start => .index (p.indexIn s start)
  | .indexInTail s start => .index (p.indexInTail s start)
  | .lastIndexIn s => .index (p.lastIndexIn s)
  | .anyIn s => .flag (p.anyIn s)
  | .allIn s => .flag (p.allIn s)
  | .noneIn s => .flag (p.noneIn s)
  | .countIn s => .count (p.countIn s)
  | .removeFrom s => .edited (p.removeFrom s)
  | .retainFrom s => .edited (p.retainFrom s)
  | .replaceFromChar s r => .edited (p.replaceFromChar s r)
  | .replaceFrom s r => .edited (p.replaceFrom s r)
  | .collapseFrom s r => .edited (p.collapseFrom s r)
  | .trimAndCollapseFrom s r => .edited (p.trimAndCollapseFrom s r)
  | .trimFrom s => .text (p.trimFrom s)
  | .trimLeadingFrom s => .text (p.trimLeadingFrom s)
  | .trimTrailingFrom s => .text (p.trimTrailingFrom s)

end TextOps
