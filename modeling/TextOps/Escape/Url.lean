import TextOps.Escape.Percent

/-!
# `TextOps/Escape/Url.lean` — escaping the components of a URL

Each escaper is for one component of a URL, and leaves alone exactly the characters that may stand
in it literally. None of them is for a URL as a whole. The escapers are written down as what the
configurations make, and each configuration is accepted.
-/

set_option autoImplicit false

namespace TextOps.Url

/-- The characters besides letters and digits that may stand in a path segment: the unreserved
ones, the sub-delimiters, colon and at sign. -/
def pathSafe : Text := "-._~!$'()*,;&=@:+".toList

/-- The characters besides letters and digits that may stand in a fragment. -/
def fragmentSafe : Text := pathSafe ++ "/?".toList

/-- The characters besides letters and digits that may stand in a form parameter. -/
def formSafe : Text := "-._*~!'()".toList

/-- Escapes keys and values of form parameters, with a plus sign for a space. -/
def formParameterEscaper : PercentEscaper := .ofSafe formSafe true

@[simp] theorem value_make_formSafe :
    (PercentEscaper.make formSafe true).value = .ok formParameterEscaper := rfl

/-- Escapes one segment of a path. -/
def pathSegmentEscaper : PercentEscaper := .ofSafe pathSafe false

@[simp] theorem value_make_pathSafe :
    (PercentEscaper.make pathSafe false).value = .ok pathSegmentEscaper := rfl

/-- Escapes a fragment. -/
def fragmentEscaper : PercentEscaper := .ofSafe fragmentSafe false

@[simp] theorem value_make_fragmentSafe :
    (PercentEscaper.make fragmentSafe false).value = .ok fragmentEscaper := rfl

end TextOps.Url
