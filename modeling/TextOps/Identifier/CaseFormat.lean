import TextOps.CharClass.Basic

/-!
# `TextOps/Identifier/CaseFormat.lean` — conventions for spelling identifiers of several words

A format says where the words of an identifier begin and how a word is spelled in it. The
*delimited* formats put a separator between words; the *camel* formats mark the start of a word by
an upper-case letter. Only ASCII letters have a case here: every other character is left alone.
-/

set_option autoImplicit false

namespace TextOps

/-- A convention for spelling identifiers. -/
inductive CaseFormat where
  | lowerHyphen
  | lowerUnderscore
  | lowerCamel
  | upperCamel
  | upperUnderscore
deriving DecidableEq, Repr

namespace CaseFormat

def all : List CaseFormat :=
  [lowerHyphen, lowerUnderscore, lowerCamel, upperCamel, upperUnderscore]

def name : CaseFormat → String
  | lowerHyphen => "LowerHyphen"
  | lowerUnderscore => "LowerUnderscore"
  | lowerCamel => "LowerCamel"
  | upperCamel => "UpperCamel"
  | upperUnderscore => "UpperUnderscore"

/-- The characters at which one word ends and the next begins. A delimited format skips them; in a
camel format they belong to the word that begins. -/
def boundary : CaseFormat → CharClass Empty
  | lowerHyphen => .single '-'
  | lowerUnderscore | upperUnderscore => .single '_'
  | lowerCamel | upperCamel => .range 'A' 'Z'

/-- What stands between two words. -/
def separator : CaseFormat → Text
  | lowerHyphen => ['-']
  | lowerUnderscore | upperUnderscore => ['_']
  | lowerCamel | upperCamel => []

def lowerText (s : Text) : Text := s.map Char.toLower

def upperText (s : Text) : Text := s.map Char.toUpper

/-- A text with its first character in upper case and the rest in lower case. -/
def titleText : Text → Text
  | [] => []
  | c :: s => c.toUpper :: lowerText s

/-- How a word is spelled that is not the first. -/
def spellWord : CaseFormat → Text → Text
  | lowerHyphen, w | lowerUnderscore, w => lowerText w
  | lowerCamel, w | upperCamel, w => titleText w
  | upperUnderscore, w => upperText w

/-- How the first word is spelled. -/
def spellFirst : CaseFormat → Text → Text
  | lowerCamel, w => lowerText w
  | f, w => f.spellWord w

/-- The spelling of a list of words: each in the case of the format, with separators between. -/
def spell (f : CaseFormat) : List Text → Text
  | [] => []
  | w :: ws => f.spellFirst w ++ ws.flatMap fun w => f.separator ++ f.spellWord w

end CaseFormat

end TextOps
