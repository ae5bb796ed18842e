import Mathlib.Data.List.Chain
import Mathlib.Data.Nat.PSub
import TextOps.CharClass.Basic
import TextOps.Proofs.SortedTable

/-!
# `TextOps/Proofs/Unicode/Lookup.lean` — a table lookup is membership

`inDecade` and `inRanges` look at one entry of a table, the last one that does not begin beyond the
code point. Every other entry is passed over, so what they answer is right only for tables in which
nothing that is passed over could have held the code point: zeros that are at least ten apart
(`Spaced`), and ranges in ascending order without a common code point (`Ascending`). For these the
lookup says yes exactly if some entry of the table, wherever it stands, holds the code point.

Both conditions are about all pairs of entries, but they can be checked on neighbours, and so they
are decided for the two tables of `Unicode/Property.lean`.

On the way a lookup steps back from the partition point and subtracts a zero from the code point.
In natural numbers neither can go wrong, since both stop at zero, and a read outside of a table is
just the absence of an entry. `inDecadeChecked?` and `inRangesChecked?` are the same lookups with
operations that fail instead; that they never do is what allows the lookups to be written without.
-/

set_option autoImplicit false

namespace TextOps

/-! ## The entry before the partition point, with every step checked -/

namespace SortedTable

variable {α : Type} {p : α → Bool} {table : Array α}

/-- `lastWhere?` with checked steps. The inner `none` means that no entry passes; the outer one is
a failure, to step back from the start of the table or to read beyond its end. -/
def lastWhereChecked? (p : α → Bool) (table : Array α) : Option (Option α) := do
  let point := partitionPoint p table
  if 0 < point then
    let i ← point.ppred
    let entry ← table[i]?
    return some entry
  else
    return none

theorem lastWhereChecked?_eq (hp : Partitioned p table) :
    lastWhereChecked? p table = some (lastWhere? p table) := by
  have hlt := passesAt_iff_lt hp
  unfold lastWhereChecked? lastWhere?
  cases hpoint : partitionPoint p table with
  | zero => rfl
  | succ n =>
    -- The entry before the partition point passes, so there is one.
    have hpass : passesAt p table n = true := (hlt n).mpr (by omega)
    obtain ⟨a, ha, -⟩ := passesAt_iff.mp hpass
    simp [ha]

end SortedTable

namespace Unicode

open SortedTable

/-! ## Runs of ten -/

/-- Zeros in ascending order, each at least ten above the one before it. -/
def Spaced (zeros : Array Nat) : Prop := zeros.toList.IsChain fun a b => a + 10 ≤ b

instance (zeros : Array Nat) : Decidable (Spaced zeros) :=
  inferInstanceAs (Decidable (zeros.toList.IsChain fun a b => a + 10 ≤ b))

theorem Spaced.pairwise {zeros : Array Nat} (h : Spaced zeros) :
    zeros.toList.Pairwise fun a b => a + 10 ≤ b := by
  have : Trans (fun a b : Nat => a + 10 ≤ b) (fun a b => a + 10 ≤ b) (fun a b => a + 10 ≤ b) :=
    ⟨fun hab hbc => by omega⟩
  exact List.IsChain.pairwise h

/-- The run of a zero before one that is not beyond the code point has ended before it. -/
theorem Spaced.lastDecides {zeros : Array Nat} (h : Spaced zeros) (code : Nat) :
    LastDecides (· ≤ code) (code - · < 10) zeros := by
  refine h.pairwise.imp fun {a b} hab hb => ?_
  have hb : b ≤ code := of_decide_eq_true hb
  exact ⟨decide_eq_true (by omega), decide_eq_false (by omega)⟩

theorem inDecade_iff {zeros : Array Nat} (h : Spaced zeros) (code : Nat) :
    inDecade zeros code = true ↔ ∃ z ∈ zeros, z ≤ code ∧ code < z + 10 := by
  unfold inDecade
  rw [(h.lastDecides code).any_lastWhere?_iff]
  refine exists_congr fun z => and_congr_right fun _ => ?_
  rw [decide_eq_true_iff, decide_eq_true_iff]
  omega

/-- `inDecade` with checked steps: it fails with the search, or if the zero that is subtracted is
greater than the code point. -/
def inDecadeChecked? (zeros : Array Nat) (code : Nat) : Option Bool := do
  match ← lastWhereChecked? (· ≤ code) zeros with
  | some z =>
    let offset ← code.psub z
    return offset < 10
  | none => return false

theorem inDecadeChecked?_eq {zeros : Array Nat} (h : Spaced zeros) (code : Nat) :
    inDecadeChecked? zeros code = some (inDecade zeros code) := by
  have hp : Partitioned (· ≤ code) zeros := (h.lastDecides code).partitioned
  unfold inDecadeChecked? inDecade
  rw [lastWhereChecked?_eq hp]
  cases hlast : lastWhere? (· ≤ code) zeros with
  | none => rfl
  | some z =>
    -- The zero that is found has passed the test of the search.
    obtain ⟨-, -, hle, -⟩ := (lastWhere?_eq_some_iff hp).mp hlast
    have hoffset : code.psub z = some (code - z) :=
      Nat.psub_eq_sub (of_decide_eq_true hle)
    simp [hoffset]

/-! ## Ranges -/

/-- Ranges in ascending order, none of them reversed and no two with a common code point. -/
structure Ascending (ranges : Array (Nat × Nat)) : Prop where
  /-- No range ends before it begins. -/
  le : ∀ r ∈ ranges, r.1 ≤ r.2
  /-- The ranges stand in the order in which they begin. -/
  sorted : ranges.toList.Pairwise fun r t => r.1 ≤ t.1
  /-- No code point lies in two of them. -/
  disjoint : ranges.toList.Pairwise fun r t =>
    ∀ code, r.1 ≤ code ∧ code ≤ r.2 → ¬ (t.1 ≤ code ∧ code ≤ t.2)

/-- A range that ends before the next one begins, where neither is reversed. -/
def Precedes (r t : Nat × Nat) : Prop := r.1 ≤ r.2 ∧ r.2 < t.1 ∧ t.1 ≤ t.2

/-- Of one range after another the first precedes the last, because none is reversed. -/
instance : Trans Precedes Precedes Precedes where
  trans hrs hst := by
    unfold Precedes at *
    omega

/-- A range ends before each later one begins: if it did not, the first code point of the later one
would lie in both. -/
theorem Ascending.pairwise {ranges : Array (Nat × Nat)} (h : Ascending ranges) :
    ranges.toList.Pairwise Precedes := by
  refine (h.sorted.and h.disjoint).imp_of_mem fun {r t} hr ht hrt => ?_
  have hle : r.1 ≤ r.2 := h.le r (Array.mem_toList_iff.mp hr)
  have hle' : t.1 ≤ t.2 := h.le t (Array.mem_toList_iff.mp ht)
  refine ⟨hle, Nat.lt_of_not_le fun hover => ?_, hle'⟩
  exact hrt.2 t.1 ⟨hrt.1, hover⟩ ⟨Nat.le_refl _, hle'⟩

/-- It is enough to look at neighbours, and at the two ends of each range. -/
theorem ascending_iff {ranges : Array (Nat × Nat)} :
    Ascending ranges ↔
      (∀ r ∈ ranges.toList, r.1 ≤ r.2) ∧ ranges.toList.IsChain fun r t => r.2 < t.1 := by
  constructor
  · intro h
    refine ⟨fun r hr => h.le r (Array.mem_toList_iff.mp hr), ?_⟩
    exact (h.pairwise.imp fun hrt => hrt.2.1).isChain
  · rintro ⟨hle, hchain⟩
    have hprecedes : ranges.toList.IsChain Precedes :=
      hchain.imp_of_mem_imp fun r t hr ht hrt => ⟨hle r hr, hrt, hle t ht⟩
    have hpairwise : ranges.toList.Pairwise Precedes := hprecedes.pairwise
    refine ⟨fun r hr => hle r (Array.mem_toList_iff.mpr hr),
      hpairwise.imp fun {r t} hrt => ?sorted, hpairwise.imp fun {r t} hrt => ?disjoint⟩
    case sorted => exact Nat.le_trans hrt.1 (Nat.le_of_lt hrt.2.1)
    case disjoint =>
      intro code hr ht
      have hlt : r.2 < t.1 := hrt.2.1
      omega

instance (ranges : Array (Nat × Nat)) : Decidable (Ascending ranges) :=
  decidable_of_iff _ ascending_iff.symm

/-- A range before one that does not begin beyond the code point has ended before it. -/
theorem Ascending.lastDecides {ranges : Array (Nat × Nat)} (h : Ascending ranges) (code : Nat) :
    LastDecides (·.1 ≤ code) (code ≤ ·.2) ranges := by
  refine h.pairwise.imp fun {r t} hrt ht => ?_
  have hle : r.1 ≤ r.2 := hrt.1
  have hlt : r.2 < t.1 := hrt.2.1
  have ht : t.1 ≤ code := of_decide_eq_true ht
  exact ⟨decide_eq_true (by omega), decide_eq_false (by omega)⟩

theorem inRanges_iff {ranges : Array (Nat × Nat)} (h : Ascending ranges) (code : Nat) :
    inRanges ranges code = true ↔ ∃ r ∈ ranges, r.1 ≤ code ∧ code ≤ r.2 := by
  unfold inRanges
  rw [(h.lastDecides code).any_lastWhere?_iff]
  simp only [decide_eq_true_eq]

/-- `inRanges` with checked steps, which can only fail with the search. -/
def inRangesChecked? (ranges : Array (Nat × Nat)) (code : Nat) : Option Bool := do
  match ← lastWhereChecked? (·.1 ≤ code) ranges with
  | some r => return code ≤ r.2
  | none => return false

theorem inRangesChecked?_eq {ranges : Array (Nat × Nat)} (h : Ascending ranges) (code : Nat) :
    inRangesChecked? ranges code = some (inRanges ranges code) := by
  have hp : Partitioned (·.1 ≤ code) ranges := (h.lastDecides code).partitioned
  unfold inRangesChecked? inRanges
  rw [lastWhereChecked?_eq hp]
  cases lastWhere? (·.1 ≤ code) ranges with
  | none => rfl
  | some r => rfl

/-! ## The tables -/

theorem spaced_digitZeros : Spaced digitZeros := by decide +kernel

theorem ascending_invisibleRanges : Ascending invisibleRanges := by decide +kernel

/-- **A table answers as all its entries do.** For zeros that are at least ten apart, and for ranges
in order without a common code point, the lookup says yes exactly if some entry holds the code point,
and none of its steps can fail. The tables of digits and of invisible characters are of these kinds,
so the two classes accept the characters that their tables list, and no others. -/
theorem lookup_iff_listed {P : Type} [CharPredicate P] :
    (∀ zeros, Spaced zeros → ∀ code,
      (inDecade zeros code = true ↔ ∃ z ∈ zeros, z ≤ code ∧ code < z + 10) ∧
      inDecadeChecked? zeros code = some (inDecade zeros code)) ∧
    (∀ ranges, Ascending ranges → ∀ code,
      (inRanges ranges code = true ↔ ∃ r ∈ ranges, r.1 ≤ code ∧ code ≤ r.2) ∧
      inRangesChecked? ranges code = some (inRanges ranges code)) ∧
    Spaced digitZeros ∧ Ascending invisibleRanges ∧
    ∀ c : Char,
      ((CharClass.digit : CharClass P).accepts c = true ↔
        ∃ z ∈ digitZeros, z ≤ c.toNat ∧ c.toNat < z + 10) ∧
      inDecadeChecked? digitZeros c.toNat = some ((CharClass.digit : CharClass P).accepts c) ∧
      ((CharClass.invisible : CharClass P).accepts c = true ↔
        ∃ r ∈ invisibleRanges, r.1 ≤ c.toNat ∧ c.toNat ≤ r.2) ∧
      inRangesChecked? invisibleRanges c.toNat =
        some ((CharClass.invisible : CharClass P).accepts c) := by
  refine ⟨?decades, ?ranges, spaced_digitZeros, ascending_invisibleRanges, ?classes⟩
  case decades =>
    intro zeros h code
    exact ⟨inDecade_iff h code, inDecadeChecked?_eq h code⟩
  case ranges =>
    intro ranges h code
    exact ⟨inRanges_iff h code, inRangesChecked?_eq h code⟩
  case classes =>
    intro c
    exact ⟨inDecade_iff spaced_digitZeros c.toNat, inDecadeChecked?_eq spaced_digitZeros c.toNat,
      inRanges_iff ascending_invisibleRanges c.toNat,
      inRangesChecked?_eq ascending_invisibleRanges c.toNat⟩

/-- Entries that touch, at 30 and at 6, entries with a gap behind them, and a code point before all
entries. -/
theorem lookup_iff_listed_edges :
    Spaced #[20, 30, 45] ∧ Ascending #[(3, 5), (6, 6), (9, 12)] ∧
    inDecade #[20, 30, 45] 30 = true ∧ inDecade #[20, 30, 45] 40 = false ∧
    inRanges #[(3, 5), (6, 6), (9, 12)] 6 = true ∧
    inRanges #[(3, 5), (6, 6), (9, 12)] 7 = false ∧
    (inRangesChecked? #[(3, 5), (6, 6), (9, 12)] 2).isSome = true := by
  have hspaced : Spaced #[20, 30, 45] := by decide
  have hascending : Ascending #[(3, 5), (6, 6), (9, 12)] := by decide
  obtain ⟨hdecades, hranges, -⟩ := lookup_iff_listed (P := Empty)
  refine ⟨hspaced, hascending, ?start, ?gap, ?single, ?behind, ?below⟩
  case start => exact (hdecades _ hspaced 30).1.mpr ⟨30, by simp⟩
  case gap =>
    refine Bool.eq_false_iff.mpr fun h => ?_
    have hlisted := (hdecades _ hspaced 40).1.mp h
    simp at hlisted
  case single => exact (hranges _ hascending 6).1.mpr ⟨(6, 6), by simp⟩
  case behind =>
    refine Bool.eq_false_iff.mpr fun h => ?_
    have hlisted := (hranges _ hascending 7).1.mp h
    simp at hlisted
  case below => rw [(hranges _ hascending 2).2, Option.isSome_some]

end Unicode

end TextOps
