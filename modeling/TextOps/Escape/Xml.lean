import TextOps.Escape.Builder

/-!
# `TextOps/Escape/Xml.lean` — escaping for XML 1.0

Three escapers, each doing more than the one before: for element content, where quotation marks
are harmless; for content or attributes; and for attributes with tab, newline and carriage return
written out, so that the normalization of attribute values leaves them alone.

All three write U+FFFD for the characters that XML forbids: the C0 controls other than those
three, and U+FFFE and U+FFFF. The former are listed. The latter lie just above the safe range, and
the fallback sees to them.
-/

set_option autoImplicit false

namespace TextOps.Xml

/-- The C0 controls that XML forbids. -/
def forbiddenControls : Text :=
  ((List.range 0x20).map Char.ofNat).filter fun c => !"\t\n\r".toList.contains c

/-- Replaces the two noncharacters above the safe range. -/
def noncharacter (c : Char) : Option Text :=
  if c = '\uFFFE' || c = '\uFFFF' then some ['\uFFFD'] else none

/-- The configuration for element content. -/
def contentBuilder : Builder Char :=
  ((((Builder.new.safeRange '\x00' '\uFFFD').addAll forbiddenControls ['\uFFFD']).add
    '&' "&amp;".toList).add '<' "&lt;".toList).add '>' "&gt;".toList

/-- The configuration for content and attributes. -/
def generalBuilder : Builder Char :=
  (contentBuilder.add '\x27' "&apos;".toList).add '\x22' "&quot;".toList

/-- The configuration for attributes that are to keep their white space. -/
def attributeBuilder : Builder Char :=
  ((generalBuilder.add '\t' "&#x9;".toList).add '\n' "&#xA;".toList).add '\r' "&#xD;".toList

/-- Escapes text for element content. -/
def contentEscaper : RangeEscaper Char := (contentBuilder.buildWith noncharacter).value

/-- Escapes text for content or attributes. -/
def escaper : RangeEscaper Char := (generalBuilder.buildWith noncharacter).value

/-- Escapes text for attributes that are to keep their white space. -/
def attributeEscaper : RangeEscaper Char := (attributeBuilder.buildWith noncharacter).value

end TextOps.Xml
