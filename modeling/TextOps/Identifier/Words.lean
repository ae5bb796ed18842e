import TextOps.Identifier.CaseFormat
import TextOps.Offset

/-!
# `TextOps/Identifier/Words.lean` — the words of an identifier

Words are cut out of an identifier by octet offsets. Going through the boundary characters from
left to right, each one ends the word that began after the last, and the next word begins behind
the separator — which is at the boundary character itself in a camel format, where the separator
is empty. An upper-case letter at the very start of a camel identifier therefore ends no word: the
next word would begin where this one does.
-/

set_option autoImplicit false

namespace TextOps.CaseFormat

/-- The offsets of the boundary characters of a text. -/
def boundaryOffsets (f : CaseFormat) (s : Text) : List Nat :=
  ((Offset.locate Char.utf8Size 0 s).filter (f.boundary.accepts ·.2)).map (·.1)

/-- The words as pairs of offsets, the first one beginning at `start` and the last one ending at
`stop`. A separator takes `skip` octets. -/
def spansFrom (skip stop : Nat) : Nat → List Nat → List (Nat × Nat)
  | start, [] => [(start, stop)]
  | start, j :: js =>
    if j + skip = 0 then spansFrom skip stop start js
    else (start, j) :: spansFrom skip stop (j + skip) js

/-- The words of a text as pairs of octet offsets. -/
def spans (f : CaseFormat) (s : Text) : List (Nat × Nat) :=
  spansFrom (Offset.extent Char.utf8Size f.separator) (Offset.extent Char.utf8Size s) 0
    (f.boundaryOffsets s)

/-- The words of a text. -/
def words (f : CaseFormat) (s : Text) : List Text :=
  Offset.cut (Offset.locate Char.utf8Size 0 s) (f.spans s)

end TextOps.CaseFormat
