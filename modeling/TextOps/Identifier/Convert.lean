import TextOps.CharClass.Query
import TextOps.Identifier.Words

/-!
# `TextOps/Identifier/Convert.lean` — from one format to another

The general conversion takes an identifier apart and spells its words in the other format. Between
formats that agree on where words begin there is less to do, and `convert` does only that: exchange
the separator, change the case of all letters, or change the first character. A text that needs
none of it is handed back, except where both the separator and the case would change.
-/

set_option autoImplicit false

namespace TextOps.CaseFormat

/-- The general conversion: the words of the text, spelled in the other format. -/
def respell (source target : CaseFormat) (s : Text) : Text := target.spell (source.words s)

/-- Upper case throughout; a text without lower-case letters is handed back. -/
def raiseCase (s : Text) : Edited Text :=
  if s.any Char.isLower then .built (upperText s) else .kept s

/-- Lower case throughout; a text without upper-case letters is handed back. -/
def lowerCase (s : Text) : Edited Text :=
  if s.any Char.isUpper then .built (lowerText s) else .kept s

/-- Changes the first character; a text whose first character stays is handed back. -/
def changeFirst (change : Char → Char) : Text → Edited Text
  | [] => .kept []
  | c :: s => if change c = c then .kept (c :: s) else .built (change c :: s)

/-- Converts a text from one format to another. -/
def convert (source target : CaseFormat) (s : Text) : Edited Text :=
  if source = target || s.isEmpty then .kept s
  else match source, target with
    | lowerHyphen, lowerUnderscore => lowerHyphen.boundary.replaceFromChar s '_'
    | lowerHyphen, upperUnderscore =>
      .built (upperText (lowerHyphen.boundary.replaceFromChar s '_').value)
    | lowerUnderscore, lowerHyphen => lowerUnderscore.boundary.replaceFromChar s '-'
    | lowerUnderscore, upperUnderscore => raiseCase s
    | lowerCamel, upperCamel => changeFirst Char.toUpper s
    | upperCamel, lowerCamel => changeFirst Char.toLower s
    | upperUnderscore, lowerHyphen =>
      .built (lowerText (upperUnderscore.boundary.replaceFromChar s '-').value)
    | upperUnderscore, lowerUnderscore => lowerCase s
    | _, _ => .built (source.respell target s)

end TextOps.CaseFormat
