import TextOps.CharTest.Basic

/-!
# `TextOps/CharTest/Trim.lean` — stripping passing characters from the ends of a text
-/

set_option autoImplicit false

namespace TextOps.CharTest

def trimLeadingFrom (p : CharTest) (s : Text) : Text := s.dropWhile p

def trimTrailingFrom (p : CharTest) (s : Text) : Text := (s.reverse.dropWhile p).reverse

/-- A text without the passing characters at either end. -/
def trimFrom (p : CharTest) (s : Text) : Text := p.trimTrailingFrom (p.trimLeadingFrom s)

end TextOps.CharTest
