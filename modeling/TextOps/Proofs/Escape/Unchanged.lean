import TextOps.Proofs.Escape.Html
import TextOps.Proofs.Escape.Percent
import TextOps.Proofs.Escape.Xml

/-!
# `TextOps/Proofs/Escape/Unchanged.lean` — what is built differs from what was given

An escaper hands its input back if no unit of it has a replacement. Whether a result that was built
differs from the input is another question, and in general it does not have to: one replacement may
add what another one takes away.

The ready-made escapers cannot do that, for two reasons (`Alters`). They delete no character, so the
result is at least as long as the input, and if it is no longer, each character has made one. And they
write no character for itself, so that one is another.
-/

set_option autoImplicit false

namespace TextOps

section Alters

variable {U : Type} {f : U → Option (List U)}

/-- What is put in the place of a unit is not nothing, and not that unit. -/
def Alters (f : U → Option (List U)) : Prop := ∀ u r, f u = some r → r ≠ [] ∧ r ≠ [u]

/-- Without it, a text that is built may well be the one that was given. -/
example :
    let f := fun c => if c = 'a' then some [] else if c = 'b' then some ['a', 'b'] else none
    replacedAfter f [] ['a', 'b'] = .built ['a', 'b'] := by decide

namespace Alters

theorem length_le (hf : Alters f) (us : List U) : us.length ≤ (replaceEach f us).length := by
  induction us with
  | nil => simp
  | cons u us ih =>
    rw [replaceEach_cons]
    cases hu : f u with
    | none => simpa using ih
    | some r =>
      have hr : 0 < r.length := List.length_pos_iff.mpr (hf u r hu).1
      simp
      omega

/-- Units that come out as they went in have no replacement. -/
theorem eq_none_of_mem (hf : Alters f) {us : List U} (h : replaceEach f us = us) :
    ∀ u ∈ us, f u = none := by
  induction us with
  | nil => simp
  | cons u us ih =>
    rw [replaceEach_cons] at h
    cases hu : f u with
    | none =>
      rw [hu] at h
      exact List.forall_mem_cons.mpr ⟨hu, ih (List.cons.inj h).2⟩
    | some r =>
      rw [hu, Option.getD_some] at h
      obtain ⟨hne, hself⟩ := hf u r hu
      cases r with
      | nil => exact absurd rfl hne
      | cons v r =>
        -- The replacement begins with the unit, and is longer; so the result is too.
        obtain ⟨rfl, hrest⟩ := List.cons.inj h
        have hr : r ≠ [] := by
          rintro rfl
          exact hself rfl
        have hlength := congrArg List.length hrest
        have hle := hf.length_le us
        have hpos := List.length_pos_iff.mpr hr
        simp at hlength
        omega

theorem isKept_iff (hf : Alters f) (us : List U) :
    (replacedAfter f [] us).isKept = true ↔ (replacedAfter f [] us).value = us := by
  rw [isKept_replacedAfter, value_replacedAfter, List.nil_append]
  constructor
  · exact replaceEach_eq_self
  · exact hf.eq_none_of_mem

end Alters

theorem alters_latest? [DecidableEq U] {pairs : List (U × List U)}
    (h : ∀ p ∈ pairs, p.2 ≠ [] ∧ p.2 ≠ [p.1]) : Alters (latest? pairs) := by
  intro u r hr
  exact h _ (mem_of_latest? hr)

end Alters

/-! ## The ready-made escapers -/

theorem Html.alters_replace : Alters escaper.replace := by
  rw [replace_escaper]
  apply alters_latest?
  decide

theorem Xml.Use.alters_replace (u : Use) : Alters u.escaper.replace := by
  have hlisted : Alters (latest? u.references) := by
    apply alters_latest?
    cases u <;> decide
  intro c r hr
  rw [replace_escaper] at hr
  cases hc : latest? u.references c with
  | some r' =>
    rw [hc, Option.some_or] at hr
    exact hlisted c r (hc.trans hr)
  | none =>
    rw [hc, Option.none_or] at hr
    split at hr
    · cases hr
    · next hillegal =>
      -- The character that is written for a forbidden one is not forbidden.
      cases hr
      refine ⟨by simp, ?_⟩
      rintro hself
      cases hself
      exact hillegal (by decide)

namespace PercentEscaper

theorem three_le_length_encoded (c : Char) : 3 ≤ (encoded c).length := by
  obtain ⟨b, bs, hoctets⟩ := List.exists_cons_of_ne_nil (String.utf8EncodeChar_ne_nil (c := c))
  simp [encoded, hoctets, Numeral.hexOctet]

theorem alters_replace (e : PercentEscaper) : Alters e.replace := by
  intro c r hr
  rcases e.replace_cases c with ⟨-, hc⟩ | ⟨rfl, -, hc⟩ | ⟨-, hc⟩
  all_goals rw [hc] at hr; cases hr
  · decide
  · have hlength := three_le_length_encoded c
    constructor
    · intro hnil
      simp [hnil] at hlength
    · intro hself
      simp [hself] at hlength

end PercentEscaper

theorem RangeEscaper.isKept_iff_of_alters {e : RangeEscaper Char} (h : Alters e.replace) (s : Text) :
    (e.escape s).value.isKept = true ↔ (e.escape s).value.value = s := by
  rw [value_escape_eq, FunctionEscaper.value_escape]
  exact h.isKept_iff s

/-- **Handed back means unchanged** for the escapers for HTML and XML and for every percent escaper,
whatever characters it takes for safe: a text that is built differs from the one that was given. -/
theorem isKept_iff_unchanged :
    (∀ s : Text, (Html.escaper.escape s).value.isKept = true ↔
      (Html.escaper.escape s).value.value = s) ∧
    (∀ (u : Xml.Use) (s : Text), (u.escaper.escape s).value.isKept = true ↔
      (u.escaper.escape s).value.value = s) ∧
    (∀ (e : PercentEscaper) (s : Text), (e.escape s).value.isKept = true ↔
      (e.escape s).value.value = s) := by
  refine ⟨?html, ?xml, ?percent⟩
  case html => exact RangeEscaper.isKept_iff_of_alters Html.alters_replace
  case xml =>
    intro u s
    exact RangeEscaper.isKept_iff_of_alters u.alters_replace s
  case percent =>
    intro e s
    rw [e.value_escape]
    exact e.alters_replace.isKept_iff s

end TextOps
