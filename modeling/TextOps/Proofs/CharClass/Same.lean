import TextOps.CharClass.Description
import TextOps.Proofs.CharClass.Normal

/-!
# `TextOps/Proofs/CharClass/Same.lean` — having the same form is being the same class

`same` compares two classes node by node. On predicates it is the equality of their type, so that is
where identity comes in: a rule that is put to use twice makes two predicates. Everywhere else it is
plain structural equality, and `same_iff` says so without any condition. What a class accepts, how it
is described and what the operations make of it can then not tell two such classes apart, although
the operations look at forms and ask one operand about a character of the other.

Complements are another matter. `negate` takes a complement away where there is one, so of an
arbitrary form it can take two away in a row and never put them back. That a double complement takes
itself back is a fact about normal classes (`Normal.negate_negate`).
-/

set_option autoImplicit false

namespace TextOps.CharClass

variable {P : Type}

/-! ## Equality -/

section Equality

variable [DecidableEq P]

theorem same_self (m : CharClass P) : same m m = true := by
  induction m <;> simp [same, *]

theorem eq_of_same {a b : CharClass P} (h : same a b = true) : a = b := by
  -- The last row of `same` is for forms that do not match. In the others the operands are equal.
  fun_induction same a b
  all_goals simp_all

theorem same_iff {a b : CharClass P} : same a b = true ↔ a = b := by
  constructor
  · exact eq_of_same
  · rintro rfl
    exact same_self a

instance : LawfulBEq (CharClass P) where
  eq_of_beq := eq_of_same
  rfl := same_self _

end Equality

/-! ## Complements -/

variable [CharPredicate P]

theorem Normal.negate_negate {m : CharClass P} (h : m.Normal) : m.negate.negate = m := by
  cases m
  case complement m =>
    -- What is under a complement gets one again, unless it has a simpler complement.
    have hsimplified := h.simplified
    cases m
    case anything | nothing | single | allBut | complement => exact hsimplified.elim
    all_goals rfl
  all_goals rfl

example : (complement (complement ascii) : CharClass Empty).negate.negate = ascii := rfl

theorem Normal.eq_of_negate_eq {a b : CharClass P} (ha : a.Normal) (hb : b.Normal)
    (h : a.negate = b.negate) : a = b := by
  calc a = a.negate.negate := ha.negate_negate.symm
    _ = b.negate.negate := congrArg CharClass.negate h
    _ = b := hb.negate_negate

/-- **The equality of classes**, for those that expressions build. It is an equivalence, with
predicates counted as equal only if they are identical. Equal classes accept the same characters and
have the same description, and what the operations make of them is equal again. To take the
complement twice gives an equal class, and classes with equal complements are equal. -/
theorem equality_of_built [DecidableEq P] :
    ((∀ e : CharExpr P, e.build == e.build) ∧
      (∀ e f : CharExpr P, e.build == f.build → f.build == e.build) ∧
      ∀ e f g : CharExpr P, e.build == f.build → f.build == g.build → e.build == g.build) ∧
    (∀ e f : CharExpr P, e.build == f.build →
      (∀ c, e.build.accepts c = f.build.accepts c) ∧
        e.build.description = f.build.description) ∧
    ((∀ e e' : CharExpr P, e.build == e'.build → e.build.negate == e'.build.negate) ∧
      ∀ e e' f f' : CharExpr P, e.build == e'.build → f.build == f'.build →
        e.build.and f.build == e'.build.and f'.build ∧
          e.build.or f.build == e'.build.or f'.build) ∧
    (∀ e : CharExpr P, e.build.negate.negate == e.build) ∧
    ∀ e f : CharExpr P, e.build.negate == f.build.negate → e.build == f.build := by
  refine ⟨⟨?refl, ?symm, ?trans⟩, ?sound, ⟨?negate, ?combine⟩, ?involution, ?injective⟩
  case refl => exact fun _ => BEq.rfl
  case symm => exact fun _ _ h => BEq.symm h
  case trans => exact fun _ _ _ h h' => BEq.trans h h'
  case sound =>
    intro e f h
    rw [eq_of_beq h]
    exact ⟨fun _ => rfl, rfl⟩
  case negate =>
    intro e e' h
    rw [eq_of_beq h]
    exact BEq.rfl
  case combine =>
    intro e e' f f' he hf
    rw [eq_of_beq he, eq_of_beq hf]
    exact ⟨BEq.rfl, BEq.rfl⟩
  case involution =>
    intro e
    exact beq_of_eq e.normal_build.negate_negate
  case injective =>
    intro e f h
    exact beq_of_eq (e.normal_build.eq_of_negate_eq f.normal_build (eq_of_beq h))

/-- Two ways to one class that rests on a predicate, and a second predicate with the same rule. -/
theorem equality_of_built_shared :
    let p : CharExpr (Shared CharRule) := .atom (.predicate ⟨0, .occursIn ['a']⟩)
    let q : CharExpr (Shared CharRule) := .atom (.predicate ⟨1, .occursIn ['a']⟩)
    let p' : CharExpr (Shared CharRule) := .negate (.negate p)
    let s : CharExpr (Shared CharRule) := .atom (.anyOf ['b', 'a'])
    let s' : CharExpr (Shared CharRule) := .atom (.anyOf ['a', 'b', 'a'])
    (p.build == p'.build ∧ s.build == s'.build ∧ ¬ p.build == q.build) ∧
      p'.build == p.build ∧ p.build.description = p'.build.description ∧
      p.build.and s.build == p'.build.and s'.build ∧ p.build.or s.build == p'.build.or s'.build ∧
      ¬ p.build.negate == q.build.negate := by
  intro p q p' s s'
  obtain ⟨⟨-, hsymm, -⟩, hsound, ⟨-, hcombine⟩, -, hinjective⟩ :=
    equality_of_built (P := Shared CharRule)
  have hp : p.build == p'.build := by decide
  have hs : s.build == s'.build := by decide
  have hpq : ¬ p.build == q.build := by decide
  obtain ⟨hand, hor⟩ := hcombine p p' s s' hp hs
  exact ⟨⟨hp, hs, hpq⟩, hsymm p p' hp, (hsound p p' hp).2, hand, hor,
    fun h => hpq (hinjective p q h)⟩

end TextOps.CharClass
