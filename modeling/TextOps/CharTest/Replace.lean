import TextOps.CharTest.Basic

/-!
# `TextOps/CharTest/Replace.lean` — keeping, dropping and replacing characters

Each operation first looks for a character that it has to touch, and hands the text back when
there is none. Otherwise the part before that character is copied and only the rest is edited.
-/

set_option autoImplicit false

namespace TextOps.CharTest

/-- The passing characters of a text, in order. -/
def retainFrom (p : CharTest) (s : Text) : Edited Text :=
  match s.dropWhile p with
  | [] => .kept s
  | _ :: rest => .built (s.takeWhile p ++ rest.filter p)

/-- The characters of a text that do not pass, in order. -/
def removeFrom (p : CharTest) (s : Text) : Edited Text := retainFrom (fun c => !p c) s

/-- A text with `r` for each passing character; `r` itself is not looked at again. -/
def substitute (p : CharTest) (r : Text) (s : Text) : Text :=
  s.flatMap fun c => if p c then r else [c]

/-- Replaces every passing character by `r`. An empty replacement removes the character. -/
def replaceFrom (p : CharTest) (s r : Text) : Edited Text :=
  if r.isEmpty then removeFrom p s
  else match s.dropWhile (fun c => !p c) with
    | [] => .kept s
    | c :: rest => .built (s.takeWhile (fun c => !p c) ++ substitute p r (c :: rest))

def replaceFromChar (p : CharTest) (s : Text) (r : Char) : Edited Text := p.replaceFrom s [r]

end TextOps.CharTest
