import TextOps.Escape.Builder

/-!
# `TextOps/Escape/Html.lean` — escaping for HTML

The five characters that mean something in markup are written as entities. The apostrophe has a
numeric one, because the named one is not an entity of HTML 4.
-/

set_option autoImplicit false

namespace TextOps.Html

/-- The entity of each character that has one. -/
def entities : List (Char × Text) :=
  [('\x22', "&quot;".toList), ('\x27', "&#39;".toList), ('&', "&amp;".toList),
    ('<', "&lt;".toList), ('>', "&gt;".toList)]

/-- The configuration of the escaper. -/
def builder : Builder Char := entities.foldl (fun b (c, r) => b.add c r) .new

/-- Escapes text for HTML, in content and in attribute values. -/
def escaper : RangeEscaper Char := builder.build.value

end TextOps.Html
