import Mathlib.Data.List.Pairwise
import TextOps.CharTest.Census
import TextOps.Proofs.Unicode.Lookup

/-!
# `TextOps/Proofs/CharTest/Census.lean` — the runs of a census are a table of the test

A census is how a class is looked at as a whole: all passing code points of an interval, as maximal
runs. Runs come about from the last number to the first (`IsRuns`), and what there is to know about
them is one induction each: written out again they are the numbers (`IsRuns.expand_eq`), and between
any two there is a gap (`IsRuns.pairwise`), so that no run can be made longer (`IsRuns.maximal`).

So the runs of a census are a table of the kind in which properties of characters are stored. To look
a code point up in it is to ask the test (`inRanges_census_iff`).
-/

set_option autoImplicit false

namespace TextOps.CharTest

open TextOps.Unicode

/-! ## Runs -/

/-- The numbers of a run, and then those of the next. -/
def expand (runs : List (Nat × Nat)) : List Nat :=
  runs.flatMap fun r => List.range' r.1 (r.2 + 1 - r.1)

theorem mem_expand {runs : List (Nat × Nat)} {n : Nat} :
    n ∈ expand runs ↔ ∃ r ∈ runs, r.1 ≤ n ∧ n ≤ r.2 := by
  rw [expand, List.mem_flatMap]
  refine exists_congr fun r => and_congr_right fun _ => ?_
  rw [List.mem_range'_1]
  omega

/-- How the runs of a list come about, from its last number to its first. -/
inductive IsRuns : List Nat → List (Nat × Nat) → Prop where
  | nil : IsRuns [] []
  /-- A number is a run of its own, unless the next run begins behind it. -/
  | alone {n : Nat} {ns : List Nat} {runs : List (Nat × Nat)} (h : IsRuns ns runs)
      (hgap : ∀ r ∈ runs.head?, n + 1 ≠ r.1) : IsRuns (n :: ns) ((n, n) :: runs)
  /-- Otherwise the next run begins with it. -/
  | joined {n last : Nat} {ns : List Nat} {runs : List (Nat × Nat)}
      (h : IsRuns ns ((n + 1, last) :: runs)) : IsRuns (n :: ns) ((n, last) :: runs)

theorem isRuns_runsOf (ns : List Nat) : IsRuns ns (runsOf ns) := by
  induction ns with
  | nil => exact .nil
  | cons n ns ih =>
    rw [runsOf]
    cases hruns : runsOf ns with
    | nil =>
      rw [hruns] at ih
      exact .alone ih nofun
    | cons r runs =>
      obtain ⟨first, last⟩ := r
      rw [hruns] at ih
      show IsRuns (n :: ns) (if n + 1 = first then _ else _)
      by_cases hnext : n + 1 = first
      · rw [if_pos hnext]
        obtain rfl := hnext
        exact .joined ih
      · rw [if_neg hnext]
        refine .alone ih fun r hr => ?_
        obtain rfl := Option.some.inj hr
        exact hnext

namespace IsRuns

variable {ns : List Nat} {runs : List (Nat × Nat)}

/-- No run is reversed. -/
theorem le_of_mem (h : IsRuns ns runs) {r : Nat × Nat} (hr : r ∈ runs) : r.1 ≤ r.2 := by
  induction h generalizing r with
  | nil => exact absurd hr List.not_mem_nil
  | alone _ _ ih =>
    rcases List.mem_cons.mp hr with rfl | hr
    · exact Nat.le_refl _
    · exact ih hr
  | joined _ ih =>
    rcases List.mem_cons.mp hr with rfl | hr
    · exact Nat.le_of_succ_le (ih List.mem_cons_self)
    · exact ih (List.mem_cons_of_mem _ hr)

/-- **The runs written out are the numbers**, in their order. -/
theorem expand_eq (h : IsRuns ns runs) : expand runs = ns := by
  induction h with
  | nil => rfl
  | @alone n ns runs _ _ ih =>
    show List.range' n (n + 1 - n) ++ expand runs = n :: ns
    rw [ih, Nat.add_sub_cancel_left]
    rfl
  | @joined n last ns runs h ih =>
    have hle : n + 1 ≤ last := h.le_of_mem List.mem_cons_self
    have hlength : last + 1 - n = (last + 1 - (n + 1)) + 1 := by omega
    show List.range' n (last + 1 - n) ++ expand runs = n :: ns
    rw [hlength, List.range'_succ, List.cons_append]
    exact congrArg (n :: ·) ih

theorem mem_iff (h : IsRuns ns runs) {n : Nat} : n ∈ ns ↔ ∃ r ∈ runs, r.1 ≤ n ∧ n ≤ r.2 := by
  rw [← mem_expand, h.expand_eq]

/-- **Runs of ascending numbers leave a gap** before each later one. -/
theorem pairwise (h : IsRuns ns runs) (hns : ns.Pairwise (· < ·)) :
    runs.Pairwise fun r t => r.2 + 1 < t.1 := by
  induction h with
  | nil => exact .nil
  | @alone n ns runs h hgap ih =>
    have hruns := ih hns.of_cons
    have hbegin : ∀ r ∈ runs, n < r.1 ∧ r.1 ≤ r.2 := by
      intro r hr
      have hle := h.le_of_mem hr
      have hmem : r.1 ∈ ns := h.mem_iff.mpr ⟨r, hr, Nat.le_refl _, hle⟩
      exact ⟨List.rel_of_pairwise_cons hns hmem, hle⟩
    refine List.pairwise_cons.mpr ⟨fun r hr => ?_, hruns⟩
    show n + 1 < r.1
    -- The run behind the number does not touch it, and every later one begins behind that.
    cases runs with
    | nil => exact absurd hr List.not_mem_nil
    | cons t runs =>
      have ht := hbegin t List.mem_cons_self
      have hnext : n + 1 ≠ t.1 := hgap t rfl
      rcases List.mem_cons.mp hr with rfl | hr
      · omega
      · have hlater : t.2 + 1 < r.1 := List.rel_of_pairwise_cons hruns hr
        omega
  | joined _ ih =>
    -- A run that grows at its beginning ends where it ended.
    exact List.pairwise_cons.mpr (List.pairwise_cons.mp (ih hns.of_cons))

/-- The runs of ascending numbers are a table of ranges. -/
theorem ascending (h : IsRuns ns runs) (hns : ns.Pairwise (· < ·)) : Ascending runs.toArray := by
  refine ascending_iff.mpr ⟨fun r hr => ?_, ?_⟩
  · exact h.le_of_mem hr
  · exact ((h.pairwise hns).imp fun hrt => Nat.lt_of_succ_lt hrt).isChain

end IsRuns

/-- There is a gap between two runs, in whichever order they stand. -/
def Apart (r t : Nat × Nat) : Prop := r.2 + 1 < t.1 ∨ t.2 + 1 < r.1

instance : Std.Symm Apart := ⟨fun _ _ h => h.symm⟩

/-- **No run can be made longer**: the numbers before it and behind it are not among those that were
given. -/
theorem IsRuns.maximal {ns : List Nat} {runs : List (Nat × Nat)} (h : IsRuns ns runs)
    (hns : ns.Pairwise (· < ·)) {r : Nat × Nat} (hr : r ∈ runs) :
    (∀ n, n + 1 = r.1 → n ∉ ns) ∧ r.2 + 1 ∉ ns := by
  have hle := h.le_of_mem hr
  have hapart : runs.Pairwise Apart := (h.pairwise hns).imp Or.inl
  have hgap : ∀ t ∈ runs, t = r ∨ Apart t r := by
    intro t ht
    by_cases hsame : t = r
    · exact Or.inl hsame
    · exact Or.inr (hapart.forall ht hr hsame)
  constructor
  · intro n hn hmem
    obtain ⟨t, ht, hlow, hhigh⟩ := h.mem_iff.mp hmem
    rcases hgap t ht with rfl | hgap | hgap <;> omega
  · intro hmem
    obtain ⟨t, ht, hlow, hhigh⟩ := h.mem_iff.mp hmem
    rcases hgap t ht with rfl | hgap | hgap <;> omega

/-! ## The census of a test -/

variable {p : CharTest} {lo hi : Nat}

/-- Nothing that is a character lies beyond the greatest code point. -/
theorem le_lastCode {n : Nat} (h : n.isValidChar) : n ≤ lastCode := by
  unfold lastCode
  rcases h with h | h <;> omega

theorem mem_codesIn {n : Nat} :
    n ∈ p.codesIn lo hi ↔ lo ≤ n ∧ n ≤ hi ∧ n.isValidChar ∧ p (Char.ofNat n) = true := by
  rw [codesIn, List.mem_filter, List.mem_range'_1, Bool.and_eq_true, decide_eq_true_iff]
  constructor
  · rintro ⟨⟨hlo, hhi⟩, hvalid, hpass⟩
    exact ⟨hlo, by omega, hvalid, hpass⟩
  · rintro ⟨hlo, hhi, hvalid, hpass⟩
    have hlast := le_lastCode hvalid
    exact ⟨⟨hlo, by omega⟩, hvalid, hpass⟩

theorem pairwise_codesIn (p : CharTest) (lo hi : Nat) : (p.codesIn lo hi).Pairwise (· < ·) :=
  List.Pairwise.filter _ (List.pairwise_lt_range' 1)

/-- The count is how many numbers the runs have. -/
theorem count_census (p : CharTest) (lo hi : Nat) :
    (p.census lo hi).count = (expand (p.census lo hi).runs).length := by
  rw [census, (isRuns_runsOf _).expand_eq]

theorem ascending_census (p : CharTest) (lo hi : Nat) :
    Ascending (p.census lo hi).runs.toArray :=
  (isRuns_runsOf _).ascending (pairwise_codesIn p lo hi)

/-- **The runs of a census are a table of the test**: a code point is found in it exactly if it lies in
the interval and is that of a passing character. -/
theorem inRanges_census_iff {code : Nat} :
    inRanges (p.census lo hi).runs.toArray code = true ↔
      lo ≤ code ∧ code ≤ hi ∧ code.isValidChar ∧ p (Char.ofNat code) = true := by
  rw [inRanges_iff (ascending_census p lo hi), ← mem_codesIn,
    (isRuns_runsOf (p.codesIn lo hi)).mem_iff]
  simp only [List.mem_toArray]
  rfl

/-- The census of all code points answers as the test does. -/
theorem inRanges_census_all (p : CharTest) (c : Char) :
    inRanges (p.census 0 lastCode).runs.toArray c.toNat = p c := by
  rw [Bool.eq_iff_iff, inRanges_census_iff, Char.ofNat_toNat]
  constructor
  · rintro ⟨-, -, -, hpass⟩
    exact hpass
  · intro hpass
    exact ⟨Nat.zero_le _, le_lastCode c.valid, c.valid, hpass⟩

end TextOps.CharTest
