import TextOps.CharClass.Query
import TextOps.Proofs.CharTest.Edit

/-!
# `TextOps/Proofs/CharClass/ShortCut.lean` — short cuts change no answer

A class that is everything, nothing or a single character answers some questions from its form
alone. A test has no form, so the same question to `CharClass.test` is answered by looking at every
character. The two answers are the same, and so is the word on whether a text was handed back. For
everything and nothing this is a fact about tests that are constant; for a single character it is the
equation of `replaceFrom`, since to contain the character is to have a character that passes.

No hypothesis on the class is needed: the short cuts are right for every form, also for one that the
operations on classes would never make.
-/

set_option autoImplicit false

namespace TextOps.CharClass

variable {P : Type} [CharPredicate P]

/-! ## One operation at a time -/

theorem allIn_eq (m : CharClass P) (s : Text) : m.allIn s = m.test.allIn s := by
  cases m
  case anything =>
    symm
    exact List.all_eq_true.mpr fun _ _ => rfl
  case nothing =>
    -- Only the empty text has nothing but characters of the empty class.
    cases s <;> rfl
  all_goals rfl

theorem countIn_eq (m : CharClass P) (s : Text) : m.countIn s = m.test.countIn s := by
  cases m
  case anything =>
    symm
    exact List.countP_eq_length.mpr fun _ _ => rfl
  case nothing =>
    symm
    exact List.countP_eq_zero.mpr fun _ _ => Bool.false_ne_true
  all_goals rfl

theorem replaceFrom_eq (m : CharClass P) (s r : Text) :
    m.replaceFrom s r = m.test.replaceFrom s r := by
  cases m
  case nothing =>
    have hany : ¬ s.any (nothing : CharClass P).test = true := by
      simp [test, accepts]
    rw [CharTest.replaceFrom_eq, if_neg hany]
    rfl
  case single c =>
    have hany : s.any (single c : CharClass P).test = s.contains c := List.any_beq'
    rw [CharTest.replaceFrom_eq, hany]
    rfl
  all_goals rfl

theorem trimFrom_eq (m : CharClass P) (s : Text) : m.trimFrom s = m.test.trimFrom s := by
  cases m
  case anything => exact (CharTest.trimFrom_of_all fun _ _ => rfl).symm
  case nothing => exact (CharTest.trimFrom_of_none fun _ _ => rfl).symm
  all_goals rfl

/-! ## All operations -/

/-- **A class answers as its test does**, whatever the question, and hands a text back whenever its
test does. -/
theorem answer_eq_answer_test (m : CharClass P) (q : Query) : m.answer q = m.test.answer q := by
  cases q
  case allIn s => exact congrArg Answer.flag (m.allIn_eq s)
  case countIn s => exact congrArg Answer.count (m.countIn_eq s)
  case replaceFromChar s r => exact congrArg Answer.edited (m.replaceFrom_eq s [r])
  case replaceFrom s r => exact congrArg Answer.edited (m.replaceFrom_eq s r)
  case trimAndCollapseFrom s r =>
    -- What is collapsed is the trimmed text, and trimming has a short cut.
    exact congrArg (fun t => Answer.edited (m.test.collapseFrom t r)) (m.trimFrom_eq s)
  case trimFrom s => exact congrArg Answer.text (m.trimFrom_eq s)
  all_goals rfl

end TextOps.CharClass
