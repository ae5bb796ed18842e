import Mathlib.Data.List.Sort
import Mathlib.Order.Bounds.Basic
import TextOps.Proofs.CharClass.ShortCut

/-!
# `TextOps/Proofs/CharTest/Search.lean` — what a search finds, and what many searches find

There are three ways to look for a passing character: forwards through the numbered characters,
forwards through what is left of the text with the number added afterwards, and backwards from the
end with the number taken from the length. They count in different ways, and what they find is said
here without any counting: the first or the last of the indices at which a character passes
(`indexIn_eq`, `indexInTail_eq`, `lastIndexIn_eq`). These indices are `List.findIdxs` of the library,
and being in ascending order they are determined by their members.

A caller who wants all of them searches again behind every one that is found (`visits`). That this
comes to an end, and has then been to every passing character once, is one induction along the
searches; how many there are and what they spell is read off the list.

Numbers have no bound here, and in a machine word they do. The additions and subtractions of a search
are checked once for any word that holds the length of the text, whatever the start
(`indexInTailBelow?`, `lastIndexInBelow?`).
-/

set_option autoImplicit false

namespace TextOps.CharTest

variable {p : CharTest} {s : Text}

/-! ## Where characters pass -/

/-- The character at an index passes; there has to be one. -/
def PassesAt (p : CharTest) (s : Text) (i : Nat) : Prop := ∃ c, s[i]? = some c ∧ p c = true

/-- The indices of the passing characters at or after `start`, in ascending order. -/
def indices (p : CharTest) (s : Text) (start : Nat) : List Nat := (s.drop start).findIdxs p start

theorem PassesAt.lt_length {i : Nat} (h : p.PassesAt s i) : i < s.length := by
  obtain ⟨c, hc, -⟩ := h
  exact (List.getElem?_eq_some_iff.mp hc).1

theorem mem_indices {start i : Nat} : i ∈ p.indices s start ↔ start ≤ i ∧ p.PassesAt s i := by
  rw [indices, List.mem_findIdxs_iff_getElem_sub_pos]
  apply and_congr_right
  intro hi
  constructor
  · rintro ⟨hlength, hpass⟩
    refine ⟨_, ?_, hpass⟩
    rw [← List.getElem?_eq_getElem hlength, List.getElem?_drop, Nat.add_sub_cancel' hi]
  · rintro ⟨c, hc, hpass⟩
    have hdrop : (s.drop start)[i - start]? = some c := by
      rw [List.getElem?_drop, Nat.add_sub_cancel' hi, hc]
    obtain ⟨hlength, rfl⟩ := List.getElem?_eq_some_iff.mp hdrop
    exact ⟨hlength, hpass⟩

theorem pairwise_indices (p : CharTest) (s : Text) (start : Nat) :
    (p.indices s start).Pairwise (· < ·) := List.pairwise_findIdxs

theorem length_indices (p : CharTest) (s : Text) : (p.indices s 0).length = p.countIn s := by
  rw [indices, List.length_findIdxs]
  rfl

/-- The characters at the indices are the passing characters. -/
theorem map_getElem?_indices (p : CharTest) (s : Text) :
    (p.indices s 0).map (s[·]?) = (s.filter p).map some := by
  apply List.ext_getElem
  · rw [List.length_map, length_indices, List.length_map, countIn, List.countP_eq_length_filter]
  · intro i hi hi'
    rw [List.getElem_map, List.getElem_map, List.getElem_filter_eq_getElem_getElem_findIdxs]
    exact List.getElem?_eq_getElem _

/-! ## First and last -/

/-- The first of ascending numbers is the least of them. -/
theorem head?_eq_some_iff_isLeast {is : List Nat} (his : is.Pairwise (· < ·)) {i : Nat} :
    is.head? = some i ↔ IsLeast {j | j ∈ is} i := by
  cases is with
  | nil => simp [IsLeast]
  | cons a as =>
    have hleast : IsLeast {j | j ∈ a :: as} a := by
      refine ⟨List.mem_cons_self, ?_⟩
      intro j hj
      rcases List.mem_cons.mp hj with rfl | hj
      · exact Nat.le_refl j
      · exact Nat.le_of_lt (List.rel_of_pairwise_cons his hj)
    rw [List.head?_cons, Option.some.injEq]
    constructor
    · rintro rfl
      exact hleast
    · intro hi
      exact hleast.unique hi

/-- The last of ascending numbers is the greatest of them. -/
theorem getLast?_eq_some_iff_isGreatest {is : List Nat} (his : is.Pairwise (· < ·)) {i : Nat} :
    is.getLast? = some i ↔ IsGreatest {j | j ∈ is} i := by
  cases is using List.reverseRecOn with
  | nil => simp [IsGreatest]
  | append_singleton as a =>
    have hgreatest : IsGreatest {j | j ∈ as ++ [a]} a := by
      refine ⟨List.mem_concat_self, ?_⟩
      intro j hj
      rcases List.mem_append.mp hj with hj | hj
      · exact Nat.le_of_lt ((List.pairwise_append.mp his).2.2 j hj a (List.mem_singleton_self a))
      · exact Nat.le_of_eq (List.mem_singleton.mp hj)
    rw [List.getLast?_concat, Option.some.injEq]
    constructor
    · rintro rfl
      exact hgreatest
    · intro hi
      exact hgreatest.unique hi

/-! ## Three ways to look -/

/-- Forwards through numbered characters. -/
theorem find?_zipIdx (p : CharTest) (t : Text) (first : Nat) :
    ((t.zipIdx first).find? (p ·.1)).map (·.2) = (t.findIdxs p first).head? := by
  induction t generalizing first with
  | nil => rfl
  | cons c t ih =>
    rw [List.zipIdx_cons, List.find?_cons, List.findIdxs_cons]
    cases hc : p c with
    | true => rfl
    | false => exact ih (first + 1)

theorem drop_zipIdx (s : Text) (start first : Nat) :
    (s.zipIdx first).drop start = (s.drop start).zipIdx (first + start) := by
  induction s generalizing start first with
  | nil => simp
  | cons c s ih =>
    cases start with
    | zero => rfl
    | succ start =>
      rw [List.zipIdx_cons, List.drop_succ_cons, List.drop_succ_cons, ih, Nat.add_right_comm]
      rfl

theorem indexIn_eq (p : CharTest) (s : Text) (start : Nat) :
    p.indexIn s start = (p.indices s start).head? := by
  rw [indexIn, drop_zipIdx, Nat.zero_add, find?_zipIdx, indices]

/-- Forwards, with the number of the first character added to the number of steps. -/
theorem map_findIdx? (p : CharTest) (t : Text) (first : Nat) :
    (t.findIdx? p).map (· + first) = (t.findIdxs p first).head? := by
  induction t generalizing first with
  | nil => rfl
  | cons c t ih =>
    rw [List.findIdx?_cons, List.findIdxs_cons]
    cases hc : p c with
    | true => simp
    | false =>
      have hstep : ((· + first) ∘ (· + 1) : Nat → Nat) = (· + (first + 1)) := by
        funext i
        exact Nat.add_right_comm i 1 first
      rw [if_neg Bool.false_ne_true, Option.map_map, hstep, if_neg Bool.false_ne_true, ih]

theorem indexInTail_eq (p : CharTest) (s : Text) (start : Nat) :
    p.indexInTail s start = (p.indices s start).head? := by
  rw [indexInTail, map_findIdx?, indices]
  split
  · rfl
  · next hstart =>
    -- Behind the end there is nothing to look through.
    rw [List.drop_eq_nil_of_le (by omega)]
    rfl

/-- Backwards, with the number of steps taken from that of the last character. -/
theorem lastIndexIn_eq (p : CharTest) (s : Text) :
    p.lastIndexIn s = (p.indices s 0).getLast? := by
  rw [lastIndexIn, indices, List.drop_zero]
  induction s using List.reverseRecOn with
  | nil => rfl
  | append_singleton s c ih =>
    rw [List.reverse_concat, List.findIdx?_cons, List.findIdxs_append, List.findIdxs_singleton,
      List.length_append, List.length_singleton]
    cases hc : p c with
    | true => simp
    | false =>
      have hstep : (s.length + 1 - 1 - ·) ∘ (· + 1) = (s.length - 1 - ·) := by
        funext i
        rw [Function.comp_apply]
        omega
      rw [if_neg Bool.false_ne_true, Option.map_map, hstep, if_neg Bool.false_ne_true,
        List.append_nil, ih]

theorem indexIn_eq_some_iff {start i : Nat} :
    p.indexIn s start = some i ↔ IsLeast {j | start ≤ j ∧ p.PassesAt s j} i := by
  rw [indexIn_eq, head?_eq_some_iff_isLeast (pairwise_indices p s start)]
  simp only [mem_indices]

theorem indexIn_eq_none_iff {start : Nat} :
    p.indexIn s start = none ↔ ∀ j, start ≤ j → ¬ p.PassesAt s j := by
  rw [indexIn_eq, List.head?_eq_none_iff, List.eq_nil_iff_forall_not_mem]
  simp only [mem_indices, not_and]

theorem lastIndexIn_eq_some_iff {i : Nat} :
    p.lastIndexIn s = some i ↔ IsGreatest {j | p.PassesAt s j} i := by
  rw [lastIndexIn_eq, getLast?_eq_some_iff_isGreatest (pairwise_indices p s 0)]
  simp only [mem_indices, Nat.zero_le, true_and]

theorem lastIndexIn_eq_none_iff : p.lastIndexIn s = none ↔ ∀ j, ¬ p.PassesAt s j := by
  rw [lastIndexIn_eq, List.getLast?_eq_none_iff, List.eq_nil_iff_forall_not_mem]
  simp only [mem_indices, Nat.zero_le, true_and]

/-! ## In machine words -/

/-- The sum of two numbers, if it is less than a bound. -/
def sumBelow? (bound a b : Nat) : Option Nat := if a + b < bound then some (a + b) else none

/-- The difference of two numbers, if it is one. -/
def difference? (a b : Nat) : Option Nat := if b ≤ a then some (a - b) else none

/-- The search in what is left of a text, with the sum checked. -/
def indexInTailBelow? (bound : Nat) (p : CharTest) (s : Text) (start : Nat) :
    Option (Option Nat) :=
  if start ≤ s.length then ((s.drop start).findIdx? p).mapM (sumBelow? bound · start)
  else some none

/-- The search from the end, with both differences checked. -/
def lastIndexInBelow? (p : CharTest) (s : Text) : Option (Option Nat) :=
  (s.reverse.findIdx? p).mapM fun i => do difference? (← difference? s.length 1) i

/-- An index in what is left of a text and the start add up to an index of the text. -/
theorem indexInTailBelow?_eq {bound : Nat} (hbound : s.length < bound) (p : CharTest)
    (start : Nat) : indexInTailBelow? bound p s start = some (p.indexInTail s start) := by
  rw [indexInTailBelow?, indexInTail]
  split
  · cases hfind : (s.drop start).findIdx? p with
    | none => rfl
    | some i =>
      obtain ⟨hi, -⟩ := List.findIdx?_eq_some_iff_getElem.mp hfind
      rw [List.length_drop] at hi
      have hsum : i + start < bound := by omega
      simp [sumBelow?, hsum]
  · rfl

theorem lastIndexInBelow?_eq (p : CharTest) (s : Text) :
    lastIndexInBelow? p s = some (p.lastIndexIn s) := by
  rw [lastIndexInBelow?, lastIndexIn]
  cases hfind : s.reverse.findIdx? p with
  | none => rfl
  | some i =>
    obtain ⟨hi, -⟩ := List.findIdx?_eq_some_iff_getElem.mp hfind
    rw [List.length_reverse] at hi
    have hlength : 1 ≤ s.length := by omega
    have hlast : i ≤ s.length - 1 := by omega
    simp [difference?, hlength, hlast]

/-! ## One search after another -/

/-- Searches from `start`, and again behind every index that is found, until nothing is found: the
indices on the way. -/
def visits (p : CharTest) (s : Text) (start : Nat) : List Nat :=
  match hfound : p.indexIn s start with
  | none => []
  | some i => i :: visits p s (i + 1)
termination_by s.length - start
decreasing_by
  obtain ⟨hstart, hpass⟩ := (indexIn_eq_some_iff.mp hfound).1
  have hlength := hpass.lt_length
  omega

/-- Behind the first index come those that are found from there on. -/
theorem indices_of_isLeast {start i : Nat} (h : IsLeast {j | start ≤ j ∧ p.PassesAt s j} i) :
    p.indices s start = i :: p.indices s (i + 1) := by
  have hcons : (i :: p.indices s (i + 1)).Pairwise (· < ·) := by
    refine List.pairwise_cons.mpr ⟨?_, pairwise_indices p s (i + 1)⟩
    intro j hj
    exact (mem_indices.mp hj).1
  refine (pairwise_indices p s start).eq_of_mem_iff hcons fun j => ?_
  rw [mem_indices, List.mem_cons, mem_indices]
  constructor
  · rintro ⟨hstart, hpass⟩
    have hle := h.2 ⟨hstart, hpass⟩
    rcases Nat.eq_or_lt_of_le hle with rfl | hlt
    · exact Or.inl rfl
    · exact Or.inr ⟨hlt, hpass⟩
  · rintro (rfl | ⟨hlt, hpass⟩)
    · exact h.1
    · exact ⟨Nat.le_trans h.1.1 (Nat.le_of_succ_le hlt), hpass⟩

/-- **Repeated searches find everything.** -/
theorem visits_eq (p : CharTest) (s : Text) (start : Nat) :
    p.visits s start = p.indices s start := by
  fun_induction visits p s start with
  | case1 start hnone =>
    rw [indexIn_eq, List.head?_eq_none_iff] at hnone
    exact hnone.symm
  | case2 start i hfound ih => rw [ih, indices_of_isLeast (indexIn_eq_some_iff.mp hfound)]

end TextOps.CharTest

namespace TextOps.CharClass

variable {P : Type} [CharPredicate P]

/-- **Searching, counting and keeping agree.** A search from any start finds the first index from
there on at which a character is of the class, however far the start lies behind the end; the search
in what is left of the text finds the same; and the search from the end finds the last one. No sum
or difference of a search leaves a word that holds the length of the text. Searching again behind
every index that is found goes to as many indices as are counted, in ascending order; the last of
them is the one that is found from the end, and the characters there are those that are kept. -/
theorem searches_exhaust (m : CharClass P) (s : Text) :
    ((∀ start i, m.test.indexIn s start = some i ↔
          IsLeast {j | start ≤ j ∧ m.test.PassesAt s j} i) ∧
        ∀ start, m.test.indexIn s start = none ↔ ∀ j, start ≤ j → ¬ m.test.PassesAt s j) ∧
      (∀ start, m.test.indexInTail s start = m.test.indexIn s start) ∧
      ((∀ i, m.test.lastIndexIn s = some i ↔ IsGreatest {j | m.test.PassesAt s j} i) ∧
        (m.test.lastIndexIn s = none ↔ ∀ j, ¬ m.test.PassesAt s j)) ∧
      (∀ bound start, s.length < bound →
        m.test.indexInTailBelow? bound s start = some (m.test.indexInTail s start) ∧
          m.test.lastIndexInBelow? s = some (m.test.lastIndexIn s)) ∧
      (m.test.visits s 0).Pairwise (· < ·) ∧
      (m.test.visits s 0).length = m.countIn s ∧
      (m.test.visits s 0).getLast? = m.test.lastIndexIn s ∧
      (m.test.visits s 0).map (s[·]?) = (m.test.retainFrom s).value.map some := by
  rw [CharTest.visits_eq]
  refine ⟨⟨?first, ?none⟩, ?tail, ⟨?last, ?noLast⟩, ?words, ?ascending, ?count, ?final, ?spell⟩
  case first => exact fun start i => CharTest.indexIn_eq_some_iff
  case none => exact fun start => CharTest.indexIn_eq_none_iff
  case tail =>
    intro start
    rw [CharTest.indexInTail_eq, CharTest.indexIn_eq]
  case last => exact fun i => CharTest.lastIndexIn_eq_some_iff
  case noLast => exact CharTest.lastIndexIn_eq_none_iff
  case words =>
    intro bound start hbound
    exact ⟨CharTest.indexInTailBelow?_eq hbound m.test start, CharTest.lastIndexInBelow?_eq m.test s⟩
  case ascending => exact CharTest.pairwise_indices m.test s 0
  case count => rw [CharTest.length_indices, m.countIn_eq]
  case final => exact (CharTest.lastIndexIn_eq m.test s).symm
  case spell => rw [CharTest.map_getElem?_indices, CharTest.value_retainFrom]

/-- A character of two octets, and a start at the greatest number of a machine word. -/
theorem searches_exhaust_accents :
    let m : CharClass Empty := single 'é'
    let s : Text := ['é', 'a', 'é']
    s.length < UInt64.size ∧
      m.test.indexInTailBelow? UInt64.size s (UInt64.size - 1) = some none ∧
      (m.test.visits s 0).length = 2 ∧ (m.test.visits s 0).getLast? = some 2 ∧
      (m.test.visits s 0).map (s[·]?) = [some 'é', some 'é'] := by
  intro m s
  obtain ⟨-, -, -, hwords, -, hcount, hfinal, hspell⟩ := searches_exhaust m s
  have hlength : s.length < UInt64.size := by decide
  exact ⟨hlength, (hwords UInt64.size (UInt64.size - 1) hlength).1, hcount, hfinal, hspell⟩

end TextOps.CharClass
