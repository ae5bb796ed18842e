import TextOps.Proofs.CharClass.Meaning
import TextOps.Proofs.CharClass.ShortCut

/-!
# `TextOps/Proofs/CharClass/Algebra.lean` — the operations on texts respect the algebra of classes

A class answers by its form, and two expressions that are equal in every Boolean algebra can build
classes of different forms: what is simplified depends on which operand stands first, and on what the
other one says about a single character. No answer depends on the form (`answer_eq_answer_test`), so
classes that accept the same characters give the same answers (`answer_congr`), and the laws of the
algebra are laws about answers. What is left are facts about tests: keeping for two tests one after
the other is keeping for both at once, and of the characters that pass at least one of two tests those
that pass both are counted twice.
-/

set_option autoImplicit false

namespace TextOps.CharTest

variable {p q : CharTest} {s : Text}

/-! ## Two tests -/

theorem value_retainFrom_retainFrom (p q : CharTest) (s : Text) :
    (p.retainFrom (q.retainFrom s).value).value =
      (retainFrom (fun c => p c && q c) s).value := by
  rw [value_retainFrom, value_retainFrom, value_retainFrom, List.filter_filter]

theorem value_removeFrom_removeFrom (p q : CharTest) (s : Text) :
    (p.removeFrom (q.removeFrom s).value).value =
      (removeFrom (fun c => p c || q c) s).value := by
  simp only [removeFrom, Bool.not_or]
  exact value_retainFrom_retainFrom _ _ s

theorem countIn_and_add_countIn_or (p q : CharTest) (s : Text) :
    countIn (fun c => p c && q c) s + countIn (fun c => p c || q c) s = p.countIn s + q.countIn s := by
  unfold countIn
  induction s with
  | nil => rfl
  | cons c s ih =>
    rw [List.countP_cons, List.countP_cons, List.countP_cons, List.countP_cons]
    cases p c <;> cases q c <;> simp <;> omega

end TextOps.CharTest

namespace TextOps.CharClass

variable {P : Type} [CharPredicate P]

/-! ## Answers -/

/-- Classes that accept the same characters answer alike, whatever their forms. -/
theorem answer_congr {a b : CharClass P} (h : a.test = b.test) (q : Query) :
    a.answer q = b.answer q := by
  rw [answer_eq_answer_test, answer_eq_answer_test, h]

theorem test_negate_and (a b : CharClass P) :
    (a.and b).negate.test = (a.negate.or b.negate).test := by
  rw [test_negate, test_and, test_or, test_negate, test_negate]
  funext c
  exact Bool.not_and _ _

/-- **The operations respect the algebra of classes.** To keep what is in two classes is to keep for
the one and then for the other, in either order, and so it is with removing what is in one of them.
The counts of an intersection and a union add up to the counts of the classes. And the complement of
an intersection gives the same answers as the union of the complements. -/
theorem operations_respect_algebra (a b : CharClass P) (s : Text) :
    (((a.and b).test.retainFrom s).value = (a.test.retainFrom (b.test.retainFrom s).value).value ∧
        ((a.and b).test.retainFrom s).value =
          (b.test.retainFrom (a.test.retainFrom s).value).value) ∧
      (((a.or b).test.removeFrom s).value = (a.test.removeFrom (b.test.removeFrom s).value).value ∧
        ((a.or b).test.removeFrom s).value =
          (b.test.removeFrom (a.test.removeFrom s).value).value) ∧
      (a.and b).countIn s + (a.or b).countIn s = a.countIn s + b.countIn s ∧
      ∀ q : Query, (a.and b).negate.answer q = (a.negate.or b.negate).answer q := by
  refine ⟨⟨?retain, ?retainSwapped⟩, ⟨?remove, ?removeSwapped⟩, ?count, ?deMorgan⟩
  case retain => rw [test_and, CharTest.value_retainFrom_retainFrom]
  case retainSwapped =>
    rw [test_and, CharTest.value_retainFrom_retainFrom]
    simp only [Bool.and_comm]
  case remove => rw [test_or, CharTest.value_removeFrom_removeFrom]
  case removeSwapped =>
    rw [test_or, CharTest.value_removeFrom_removeFrom]
    simp only [Bool.or_comm]
  case count =>
    simp only [countIn_eq, test_and, test_or]
    exact CharTest.countIn_and_add_countIn_or a.test b.test s
  case deMorgan => exact answer_congr (test_negate_and a b)

/-- The classes of the last law have different forms. -/
example : ((ascii.and digit).negate == (ascii.negate.or digit.negate : CharClass Empty)) = false := by
  decide

end TextOps.CharClass
