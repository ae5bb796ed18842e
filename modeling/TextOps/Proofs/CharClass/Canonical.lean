import Mathlib.Data.List.Destutter
import Mathlib.Data.List.Sort
import TextOps.Proofs.CharClass.Reading
import TextOps.Proofs.CharClass.Same

/-!
# `TextOps/Proofs/CharClass/Canonical.lean` — a class of listed characters is a set

`anyOf` is given a text, but all that may count is which characters occur in it. There is exactly one
ascending list of given characters (`sortedSet_eq_iff`), and it makes no difference how one comes by
it: inserting the characters one after the other, or sorting them all and then leaving out repeated
neighbours (`sortedSet_eq_destutter`).

The form of the class depends on how long that list is. The list can be read off every form (`listed`),
so the four forms lose nothing, and neither does the complement that `noneOf` takes, which is injective
on normal classes. Descriptions tell normal classes apart, and the classes made here rest on no
predicate; that is the only reason why the type of predicates has to be changed on the way.
-/

set_option autoImplicit false

namespace TextOps

/-! ## The sorted set of a text -/

/-- Texts with the same characters have the same sorted set, and no others do. -/
theorem sortedSet_eq_iff {s t : Text} : sortedSet s = sortedSet t ↔ ∀ c, c ∈ s ↔ c ∈ t := by
  constructor
  · intro h c
    rw [← mem_sortedSet, h, mem_sortedSet]
  · intro h
    apply (pairwise_sortedSet s).eq_of_mem_iff (pairwise_sortedSet t)
    intro c
    rw [mem_sortedSet, mem_sortedSet, h c]

/-- In an ascending list the repetitions of a character stand next to each other, so it is enough to
compare neighbours. Which way of sorting has been used does not matter. -/
theorem sortedSet_eq_destutter {s sorted : Text} (hperm : sorted.Perm s)
    (hsorted : sorted.Pairwise (· ≤ ·)) : sortedSet s = sorted.destutter (· ≠ ·) := by
  have hdedup : sorted.destutter (· ≠ ·) = sorted.dedup := hsorted.destutter_eq_dedup
  have hascending : sorted.dedup.Pairwise (· < ·) := by
    have hle := hsorted.sublist sorted.dedup_sublist
    apply (hle.and sorted.nodup_dedup).imp
    intro c d h
    exact lt_of_le_of_ne h.1 h.2
  rw [hdedup]
  apply (pairwise_sortedSet s).eq_of_mem_iff hascending
  intro c
  rw [mem_sortedSet, List.mem_dedup, hperm.mem_iff]

namespace CharClass

variable {P : Type}

/-! ## The forms of a list -/

/-- The characters that the form of a class lists. -/
def listed : CharClass P → Text
  | single c => [c]
  | pair a b => [a, b]
  | oneOf cs => cs.toList
  | _ => []

theorem listed_ofSorted (cs : Text) : (ofSorted cs : CharClass P).listed = cs := by
  match cs with
  | [] | [_] | [_, _] | _ :: _ :: _ :: _ => rfl

theorem anyOf_eq_iff {s t : Text} :
    (anyOf s : CharClass P) = anyOf t ↔ ∀ c, c ∈ s ↔ c ∈ t := by
  rw [← sortedSet_eq_iff]
  constructor
  · intro h
    have hlisted := congrArg listed h
    rwa [anyOf, anyOf, listed_ofSorted, listed_ofSorted] at hlisted
  · intro h
    rw [anyOf, h, anyOf]

theorem noneOf_eq_iff [CharPredicate P] {s t : Text} :
    (noneOf s : CharClass P) = noneOf t ↔ ∀ c, c ∈ s ↔ c ∈ t := by
  rw [← anyOf_eq_iff (P := P)]
  constructor
  · intro h
    exact (normal_anyOf s).eq_of_negate_eq (normal_anyOf t) h
  · intro h
    rw [noneOf, h, noneOf]

/-! ## Descriptions -/

/-- No description of listed characters mentions a predicate. -/
theorem description_ofSorted (cs : Text) :
    (ofSorted cs : CharClass P).description = (ofSorted cs : CharClass Empty).description ∧
      (ofSorted cs : CharClass P).negate.description =
        (ofSorted cs : CharClass Empty).negate.description := by
  match cs with
  | [] | [_] | [_, _] | _ :: _ :: _ :: _ => exact ⟨rfl, rfl⟩

theorem description_anyOf (s : Text) :
    (anyOf s : CharClass P).description = (anyOf s : CharClass Empty).description :=
  (description_ofSorted (sortedSet s)).1

theorem description_noneOf (s : Text) :
    (noneOf s : CharClass P).description = (noneOf s : CharClass Empty).description :=
  (description_ofSorted (sortedSet s)).2

theorem description_anyOf_eq_iff {s t : Text} :
    (anyOf s : CharClass P).description = (anyOf t : CharClass P).description ↔
      ∀ c, c ∈ s ↔ c ∈ t := by
  rw [description_anyOf (P := P), description_anyOf (P := P), ← anyOf_eq_iff (P := Empty)]
  constructor
  · intro h
    exact (normal_anyOf s).eq_of_description_eq (normal_anyOf t) h
  · intro h
    rw [h]

theorem description_noneOf_eq_iff {s t : Text} :
    (noneOf s : CharClass P).description = (noneOf t : CharClass P).description ↔
      ∀ c, c ∈ s ↔ c ∈ t := by
  rw [description_noneOf (P := P), description_noneOf (P := P), ← noneOf_eq_iff (P := Empty)]
  constructor
  · intro h
    exact (normal_anyOf s).negate.eq_of_description_eq (normal_anyOf t).negate h
  · intro h
    rw [h]

/-! ## The set -/

/-- **A class of listed characters is the set of them.** It accepts the characters that are listed, and
its complement all others. Two such classes are equal exactly if their texts have the same characters,
and so are their complements; descriptions agree exactly then as well, so that neither order nor
repetition ever shows. The form is that of the characters in ascending order without repetitions. -/
theorem anyOf_is_set [CharPredicate P] [DecidableEq P] (s t : Text) :
    (∀ c, ((anyOf s : CharClass P).accepts c = true ↔ c ∈ s) ∧
      ((noneOf s : CharClass P).accepts c = true ↔ c ∉ s)) ∧
    (((anyOf s : CharClass P) == anyOf t) = true ↔ ∀ c, c ∈ s ↔ c ∈ t) ∧
    (((noneOf s : CharClass P) == noneOf t) = true ↔ ∀ c, c ∈ s ↔ c ∈ t) ∧
    ((anyOf s : CharClass P).description = (anyOf t : CharClass P).description ↔
      ∀ c, c ∈ s ↔ c ∈ t) ∧
    ((noneOf s : CharClass P).description = (noneOf t : CharClass P).description ↔
      ∀ c, c ∈ s ↔ c ∈ t) ∧
    (anyOf s : CharClass P) = ofSorted ((s.mergeSort (· ≤ ·)).destutter (· ≠ ·)) := by
  refine ⟨?members, ?equal, ?equalComplements, ?described, ?describedComplements, ?form⟩
  case members =>
    intro c
    rw [accepts_anyOf, accepts_noneOf]
    simp
  case equal => rw [beq_iff_eq, anyOf_eq_iff]
  case equalComplements => rw [beq_iff_eq, noneOf_eq_iff]
  case described => exact description_anyOf_eq_iff
  case describedComplements => exact description_noneOf_eq_iff
  case form =>
    rw [anyOf, sortedSet_eq_destutter (s.mergeSort_perm _) (List.pairwise_mergeSort' (· ≤ ·) s)]

example : (noneOf ['b', 'a', 'c', 'a'] : CharClass Empty) = complement (oneOf #['a', 'b', 'c']) := rfl

end CharClass

end TextOps
