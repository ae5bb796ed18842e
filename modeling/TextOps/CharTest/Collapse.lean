import TextOps.CharTest.Trim

/-!
# `TextOps/CharTest/Collapse.lean` — one character for each run

A *run* is a maximal stretch of passing characters. Collapsing writes one replacement character
for each run, and leaves the rest alone. A run that is the replacement character, once, is already
collapsed; the text is rebuilt only from the first run on that is not.
-/

set_option autoImplicit false

namespace TextOps.CharTest

/-- Whether a text starts with a passing character. -/
def startsIn (p : CharTest) : Text → Bool
  | [] => false
  | c :: _ => p c

/-- The text before the first run that is not collapsed yet, and the text after the first character
of that run. -/
def splitAtRun? (p : CharTest) (r : Char) : Text → Option (Text × Text)
  | [] => none
  | c :: s =>
    if p c && !(c == r && !p.startsIn s) then some ([], s)
    else (splitAtRun? p r s).map fun (before, rest) => (c :: before, rest)

/-- Writes the rest of a text with its runs collapsed. `inRun` says that the character before it
passed and that its run has been written already. -/
def collapseRest (p : CharTest) (r : Char) : (inRun : Bool) → Text → Text
  | _, [] => []
  | inRun, c :: s =>
    if p c then
      if inRun then collapseRest p r true s else r :: collapseRest p r true s
    else c :: collapseRest p r false s

/-- Replaces each run by a single `r`. -/
def collapseFrom (p : CharTest) (s : Text) (r : Char) : Edited Text :=
  match p.splitAtRun? r s with
  | none => .kept s
  | some (before, rest) => .built (before ++ r :: p.collapseRest r true rest)

/-- Strips the runs at the ends and replaces each other run by a single `r`. -/
def trimAndCollapseFrom (p : CharTest) (s : Text) (r : Char) : Edited Text :=
  p.collapseFrom (p.trimFrom s) r

end TextOps.CharTest
