import TextOps.Proofs.CharClass.ShortCut
import TextOps.Proofs.CharTest.Slice
import TextOps.Proofs.Escape.SlowPath

/-!
# `TextOps/Proofs/Escape/Replacement.lean` — to replace the characters of a class is to escape them

Replacing knows a test and one replacement, and works on characters; for a class it has short cuts by
form. Escaping knows a function, and splices octets. Both come down to the same thing, each by an
equation that is there already: characters are replaced one by one where there is something to
replace (`replaceFrom_eq`, `value_escape`), and the text is handed back where there is not. So the two
agree on the text and on whether it is handed back, if the function gives the replacement for the
passing characters and nothing for the others (`replacement`).
-/

set_option autoImplicit false

namespace TextOps.CharTest

variable {p : CharTest}

/-- The function that gives `r` for the passing characters. -/
def replacement (p : CharTest) (r : Text) (c : Char) : Option Text := if p c then some r else none

theorem isNone_replacement (p : CharTest) (r : Text) (c : Char) :
    (p.replacement r c).isNone = !p c := by
  unfold replacement
  cases p c <;> rfl

theorem replaceEach_replacement (p : CharTest) (r s : Text) :
    replaceEach (p.replacement r) s = p.substitute r s := by
  apply List.flatMap_congr
  intro c _
  unfold replacement
  cases p c <;> rfl

/-- **To replace is to escape.** -/
theorem value_escape_replacement (p : CharTest) (s r : Text) :
    ((FunctionEscaper.mk (p.replacement r)).escape s).value = p.replaceFrom s r := by
  have hnone : (s.all fun c => (p.replacement r c).isNone) = !s.any p := by
    simp only [isNone_replacement]
    exact List.not_any_eq_all_not.symm
  rw [FunctionEscaper.value_escape, replacedAfter, replaceFrom_eq, hnone, replaceEach_replacement]
  cases s.any p <;> rfl

/-- What it means that `result` is the text `s` with `r` for each passing character. -/
structure Replaces (p : CharTest) (s r : Text) (result : Edited Text) : Prop where
  /-- The result of escaping with a function that gives `r`, whether it was handed back included. -/
  eq_escape : result = ((FunctionEscaper.mk (p.replacement r)).escape s).value
  /-- Each passing character is replaced on its own, and what is put there is not looked at. -/
  value_eq : result.value = s.flatMap fun c => if p c then r else [c]
  isKept_iff : result.isKept = true ↔ ∀ c ∈ s, p c = false

theorem replaces_replaceFrom (p : CharTest) (s r : Text) : p.Replaces s r (p.replaceFrom s r) where
  eq_escape := (p.value_escape_replacement s r).symm
  value_eq := by
    rw [replaceFrom_eq]
    split
    · rfl
    · next hany =>
      have hnone : ∀ c ∈ s, p c = false := by simpa using hany
      exact (substitute_of_none hnone r).symm
  isKept_iff := by
    rw [replaceFrom_eq]
    split
    · next hany => exact iff_of_false Bool.false_ne_true (by simpa using hany)
    · next hany => exact iff_of_true rfl (by simpa using hany)

theorem replaceFrom_nil (p : CharTest) (s : Text) : p.replaceFrom s [] = p.removeFrom s := rfl

end TextOps.CharTest

namespace TextOps

variable {P : Type} [CharPredicate P]

/-- **Replacing characters and escaping them are the same transformation**, for any test and for any
class of characters: each character in question is replaced on its own, and a text is handed back if
it has none of them. An empty replacement removes the characters, and a single character replaces as
the text does that consists of it. Done with octet offsets, no replacement takes a character apart. -/
theorem replaceFrom_is_escape (p : CharTest) (m : CharClass P) (s : Text) :
    (∀ r, p.Replaces s r (p.replaceFrom s r) ∧ m.test.Replaces s r (m.replaceFrom s r)) ∧
      (p.replaceFrom s [] = p.removeFrom s ∧ m.replaceFrom s [] = m.test.removeFrom s) ∧
      (∀ c, p.replaceFromChar s c = p.replaceFrom s [c] ∧
        m.replaceFromChar s c = m.replaceFrom s [c]) ∧
      ∀ r, p.replaceSliced? s r = some (p.replaceFrom s r) ∧
        m.test.replaceSliced? s r = some (m.replaceFrom s r) := by
  refine ⟨fun r => ⟨p.replaces_replaceFrom s r, ?_⟩, ⟨rfl, ?_⟩, fun c => ⟨rfl, rfl⟩,
    fun r => ⟨p.replaceSliced?_eq s r, ?_⟩⟩
  · rw [m.replaceFrom_eq]
    exact m.test.replaces_replaceFrom s r
  · rw [m.replaceFrom_eq, CharTest.replaceFrom_nil]
  · rw [m.replaceFrom_eq, CharTest.replaceSliced?_eq]

end TextOps
