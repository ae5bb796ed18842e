import Mathlib.Data.Char
import TextOps.CharClass.Expr
import TextOps.Proofs.SortedTable

/-!
# `TextOps/Proofs/CharClass/Meaning.lean` — the simplifications keep the meaning of a class

A class is never stored as the expression that was asked for: `negate`, `and` and `or` look at the
form of their first operand, and for a single character they ask the second operand about that one
character and forget the rest. None of this may show in what the class accepts.

So each operation gets one equation for `accepts`, in which no form occurs any more. `anyOf` is the
one atom that needs an argument of its own: a list of characters becomes a sorted table, which is
then searched by halving. With these equations the meaning of an expression is an induction with one
case per constructor.
-/

set_option autoImplicit false

namespace TextOps

/-! ## The sorted set of a text -/

theorem mem_insertSorted {c d : Char} {s : Text} : d ∈ insertSorted c s ↔ d = c ∨ d ∈ s := by
  induction s with
  | nil => simp [insertSorted]
  | cons e s ih =>
    rw [insertSorted]
    split
    · rw [List.mem_cons]
    · split
      · next heq => subst heq; simp
      · rw [List.mem_cons, ih, List.mem_cons]
        exact or_left_comm

theorem pairwise_insertSorted {c : Char} {s : Text} (hs : s.Pairwise (· < ·)) :
    (insertSorted c s).Pairwise (· < ·) := by
  induction s with
  | nil => exact List.pairwise_singleton _ _
  | cons d s ih =>
    obtain ⟨hd, hs'⟩ := List.pairwise_cons.mp hs
    rw [insertSorted]
    split
    · next hcd =>
      refine List.pairwise_cons.mpr ⟨fun e he => ?_, hs⟩
      rcases List.mem_cons.mp he with rfl | he
      · exact hcd
      · exact lt_trans hcd (hd e he)
    · next hcd =>
      split
      · exact hs
      · next hne =>
        refine List.pairwise_cons.mpr ⟨fun e he => ?_, ih hs'⟩
        rcases mem_insertSorted.mp he with rfl | he
        · exact lt_of_le_of_ne (not_lt.mp hcd) (Ne.symm hne)
        · exact hd e he

theorem mem_sortedSet {c : Char} {s : Text} : c ∈ sortedSet s ↔ c ∈ s := by
  unfold sortedSet
  induction s with
  | nil => exact Iff.rfl
  | cons d s ih => rw [List.foldr_cons, mem_insertSorted, ih, List.mem_cons]

theorem pairwise_sortedSet (s : Text) : (sortedSet s).Pairwise (· < ·) := by
  unfold sortedSet
  induction s with
  | nil => exact List.Pairwise.nil
  | cons d s ih => exact pairwise_insertSorted ih

/-! ## Membership in a sorted table -/

namespace SortedTable

/-- Of the characters up to `c` the last one is `c` itself, if `c` is listed at all: every character
before another one that is not beyond `c` differs from `c`. -/
theorem lastWhere?_le_eq_some_self {cs : Text} (hs : cs.Pairwise (· < ·)) (c : Char) :
    lastWhere? (· ≤ c) cs.toArray = some c ↔ c ∈ cs := by
  have hdecides : LastDecides (· ≤ c) (· == c) cs.toArray := by
    refine hs.imp fun {d e} hlt he => ?_
    have hdc : d < c := lt_of_lt_of_le hlt (of_decide_eq_true he)
    exact ⟨decide_eq_true (le_of_lt hdc), beq_false_of_ne (ne_of_lt hdc)⟩
  have hlookup := hdecides.any_lastWhere?_iff
  constructor
  · intro hlast
    rw [hlast] at hlookup
    obtain ⟨d, hd, -, hdc⟩ := hlookup.mp (beq_self_eq_true c)
    rw [← eq_of_beq hdc]
    exact List.mem_toArray.mp hd
  · intro hc
    have hany := hlookup.mpr
      ⟨c, List.mem_toArray.mpr hc, decide_eq_true (le_refl c), beq_self_eq_true c⟩
    obtain ⟨d, hd, hdc⟩ := (Option.any_eq_true _ _).mp hany
    rw [hd, eq_of_beq hdc]

end SortedTable

/-! ## What the operations accept -/

namespace CharClass

variable {P : Type} [CharPredicate P]

@[simp] theorem accepts_negate (m : CharClass P) (c : Char) :
    m.negate.accepts c = !m.accepts c := by
  cases m <;> simp [negate, accepts, bne]

/-- An intersection is decided by both operands. For a single character `m` the second operand was
asked about `m` alone, and every other character is outside the first. -/
@[simp] theorem accepts_and (a b : CharClass P) (c : Char) :
    (a.and b).accepts c = (a.accepts c && b.accepts c) := by
  cases a
  case single m | allBut m =>
    by_cases hc : c = m
    · subst hc
      cases hb : b.accepts c <;> simp [and, accepts, hb]
    · cases hb : b.accepts m <;> simp [and, accepts, hb, hc]
  all_goals simp [and, accepts]

@[simp] theorem accepts_or (a b : CharClass P) (c : Char) :
    (a.or b).accepts c = (a.accepts c || b.accepts c) := by
  cases a
  case single m | allBut m =>
    by_cases hc : c = m
    · subst hc
      cases hb : b.accepts c <;> simp [or, accepts, hb]
    · cases hb : b.accepts m <;> simp [or, accepts, hb, hc]
  all_goals simp [or, accepts]

theorem test_negate (m : CharClass P) : m.negate.test = fun c => !m.test c :=
  funext m.accepts_negate

theorem test_and (a b : CharClass P) : (a.and b).test = fun c => a.test c && b.test c :=
  funext (a.accepts_and b)

theorem test_or (a b : CharClass P) : (a.or b).test = fun c => a.test c || b.test c :=
  funext (a.accepts_or b)

/-- Every form for a sorted list of distinct characters accepts exactly the list. -/
theorem accepts_ofSorted {cs : Text} (hs : cs.Pairwise (· < ·)) (c : Char) :
    (ofSorted cs : CharClass P).accepts c = cs.contains c := by
  match cs with
  | [] => rfl
  | [_] | [_, _] =>
    rw [Bool.eq_iff_iff]
    simp [ofSorted, accepts]
  | d :: e :: f :: cs =>
    rw [Bool.eq_iff_iff, List.contains_iff_mem, ← SortedTable.lastWhere?_le_eq_some_self hs c]
    exact beq_iff_eq

@[simp] theorem accepts_anyOf (s : Text) (c : Char) :
    (anyOf s : CharClass P).accepts c = s.contains c := by
  rw [anyOf, accepts_ofSorted (pairwise_sortedSet s), Bool.eq_iff_iff, List.contains_iff_mem,
    List.contains_iff_mem]
  exact mem_sortedSet

@[simp] theorem accepts_noneOf (s : Text) (c : Char) :
    (noneOf s : CharClass P).accepts c = !s.contains c := by
  rw [noneOf, accepts_negate, accepts_anyOf]

end CharClass

/-! ## Expressions -/

variable {P : Type} [CharPredicate P]

theorem Atom.accepts_build_eq (a : Atom P) (c : Char) : a.build.accepts c = a.eval c := by
  cases a
  case anyOf s => exact CharClass.accepts_anyOf s c
  case noneOf s => exact CharClass.accepts_noneOf s c
  all_goals rfl

namespace CharExpr

/-- **The class that an expression builds accepts what the expression says.** Whatever is simplified
on the way, the outcome is the Boolean value of the expression at every character. -/
theorem accepts_build (e : CharExpr P) (c : Char) : e.build.accepts c = e.eval c := by
  induction e with
  | atom a => exact a.accepts_build_eq c
  | negate e ih => rw [build, CharClass.accepts_negate, ih, eval]
  | and a b iha ihb => rw [build, CharClass.accepts_and, iha, ihb, eval]
  | or a b iha ihb => rw [build, CharClass.accepts_or, iha, ihb, eval]

end CharExpr

end TextOps
