import TextOps.SortedTable

/-!
# `TextOps/Proofs/SortedTable.lean` — the halving search finds the last passing entry

`partitionPoint` is an answer about the whole table, but each of its steps looks at one entry only.
What makes the step right is that the table is *partitioned*: the entries that pass the test all
come before those that do not. Then the search keeps an interval with passing entries before it and
failing ones from its end on, and the interval is empty when the search stops.

`lastWhere?` is read through the same fact. Its result is an entry that passes and is followed by
no other one that does. A lookup puts one more question to that entry, and to no other. This is as
good as putting it to all of them if no entry before a passing one could have said yes
(`LastDecides`); what the entries are and how they are sorted counts only for that.
-/

set_option autoImplicit false

namespace TextOps.SortedTable

variable {α : Type} {p : α → Bool} {table : Array α}

/-- Whether there is an entry at an index and it passes a test. -/
def passesAt (p : α → Bool) (table : Array α) (i : Nat) : Bool := table[i]?.any p

theorem passesAt_iff {i : Nat} : passesAt p table i = true ↔ ∃ a, table[i]? = some a ∧ p a = true :=
  Option.any_eq_true _ _

/-- The entries that pass a test all come before those that do not. -/
def Partitioned (p : α → Bool) (table : Array α) : Prop :=
  ∀ i j, i ≤ j → passesAt p table j = true → passesAt p table i = true

/-- What the search knows about the interval from `lo` to `hi`: every entry before it passes, and
no entry from its end on does. -/
structure Brackets (p : α → Bool) (table : Array α) (lo hi : Nat) : Prop where
  /-- The interval is not reversed. -/
  le : lo ≤ hi
  /-- The entries before the interval pass. -/
  below : ∀ i, i < lo → passesAt p table i = true
  /-- The entries behind the interval do not pass. -/
  above : ∀ i, hi ≤ i → passesAt p table i = false

theorem brackets_start : Brackets p table 0 table.size where
  le := Nat.zero_le _
  below i hi := absurd hi (Nat.not_lt_zero i)
  above i hi := by
    unfold passesAt
    rw [Array.getElem?_eq_none hi]
    rfl

/-- A passing entry in the middle moves the lower end behind it. -/
theorem Brackets.raise (hp : Partitioned p table) {lo hi mid : Nat} (h : Brackets p table lo hi)
    (hmid : mid < hi) (hpass : passesAt p table mid = true) : Brackets p table (mid + 1) hi where
  le := hmid
  below i hi := hp i mid (Nat.le_of_lt_succ hi) hpass
  above := h.above

/-- A failing entry in the middle moves the upper end to it. -/
theorem Brackets.lower (hp : Partitioned p table) {lo hi mid : Nat} (h : Brackets p table lo hi)
    (hmid : lo ≤ mid) (hfail : passesAt p table mid = false) : Brackets p table lo mid where
  le := hmid
  below := h.below
  above i hi := by
    cases hpass : passesAt p table i with
    | false => rfl
    | true => exact absurd (hp mid i hi hpass) (by simp [hfail])

/-- The search ends with an empty interval, if its fuel is at least the length of the one it starts
with. -/
theorem brackets_partitionPointIn (hp : Partitioned p table) :
    ∀ (fuel lo hi : Nat), hi - lo ≤ fuel → Brackets p table lo hi →
      Brackets p table (partitionPointIn p table fuel lo hi)
        (partitionPointIn p table fuel lo hi) := by
  intro fuel
  induction fuel with
  | zero =>
    intro lo hi hfuel h
    obtain rfl : hi = lo := by have := h.le; omega
    exact h
  | succ fuel ih =>
    intro lo hi hfuel h
    rw [partitionPointIn]
    split
    · next hlt =>
      have hmid : lo ≤ lo + (hi - lo) / 2 ∧ lo + (hi - lo) / 2 < hi := by omega
      dsimp only
      split
      · next hpass => exact ih _ _ (by omega) (h.raise hp hmid.2 hpass)
      · next hfail => exact ih _ _ (by omega) (h.lower hp hmid.1 (Bool.eq_false_iff.mpr hfail))
    · next hge =>
      obtain rfl : hi = lo := by have := h.le; omega
      exact h

theorem passesAt_iff_lt (hp : Partitioned p table) (i : Nat) :
    passesAt p table i = true ↔ i < partitionPoint p table := by
  have h := brackets_partitionPointIn hp table.size 0 table.size (Nat.le_refl _) brackets_start
  refine ⟨fun hpass => Nat.lt_of_not_le fun hge => ?_, h.below i⟩
  have hfail : passesAt p table i = false := h.above i hge
  rw [hpass] at hfail
  exact Bool.noConfusion hfail

/-- Entries in a table are related as the list of them says, whatever way the table is read. -/
theorem rel_of_getElem? {R : α → α → Prop} (h : table.toList.Pairwise R) {i j : Nat} {a b : α}
    (ha : table[i]? = some a) (hb : table[j]? = some b) (hij : i < j) : R a b := by
  obtain ⟨hi, rfl⟩ := Array.getElem?_eq_some_iff.mp ha
  obtain ⟨hj, rfl⟩ := Array.getElem?_eq_some_iff.mp hb
  exact List.pairwise_iff_getElem.mp h i j hi hj hij

/-- A table is partitioned if every entry before a passing one passes. -/
theorem partitioned_of_pairwise
    (h : table.toList.Pairwise fun a b => p b = true → p a = true) : Partitioned p table := by
  intro i j hij hj
  rcases Nat.lt_or_eq_of_le hij with hlt | rfl
  · obtain ⟨b, hb, hpb⟩ := passesAt_iff.mp hj
    have hi : i < table.size :=
      Nat.lt_trans hlt (Array.getElem?_eq_some_iff.mp hb).1
    have ha : table[i]? = some table[i] := Array.getElem?_eq_getElem hi
    exact passesAt_iff.mpr ⟨table[i], ha, rel_of_getElem? h ha hb hlt hpb⟩
  · exact hj

/-- The entry that `lastWhere?` finds passes, and no entry behind it does. -/
theorem lastWhere?_eq_some_iff (hp : Partitioned p table) {a : α} :
    lastWhere? p table = some a ↔
      ∃ i, table[i]? = some a ∧ p a = true ∧ ∀ j, i < j → passesAt p table j = false := by
  have hlt := passesAt_iff_lt hp
  unfold lastWhere?
  constructor
  · intro h
    split at h
    · exact absurd h (by simp)
    · next n hn =>
      rw [hn] at hlt
      have hpass : passesAt p table n = true := (hlt n).mpr (Nat.lt_succ_self n)
      obtain ⟨b, hb, hpb⟩ := passesAt_iff.mp hpass
      obtain rfl : b = a := Option.some.inj (hb.symm.trans h)
      refine ⟨n, hb, hpb, fun j hj => ?_⟩
      exact Bool.eq_false_iff.mpr fun hj' => absurd ((hlt j).mp hj') (by omega)
  · rintro ⟨i, hi, hpa, hlast⟩
    have hin : i < partitionPoint p table := (hlt i).mp (passesAt_iff.mpr ⟨a, hi, hpa⟩)
    -- The entry before the partition point passes, so it cannot lie behind `i`.
    have hout : ¬ i + 1 < partitionPoint p table := fun hnext => by
      have hpass := (hlt (i + 1)).mpr hnext
      rw [hlast (i + 1) (Nat.lt_succ_self i)] at hpass
      exact Bool.noConfusion hpass
    have hpoint : partitionPoint p table = i + 1 := by omega
    rw [hpoint]
    exact hi

/-- Every entry before a passing one passes too, and says no to the question `q`. So of the passing
entries only the last one can say yes. -/
def LastDecides (p q : α → Bool) (table : Array α) : Prop :=
  table.toList.Pairwise fun a b => p b = true → p a = true ∧ q a = false

theorem LastDecides.partitioned {q : α → Bool} (h : LastDecides p q table) :
    Partitioned p table :=
  partitioned_of_pairwise (h.imp fun hab hb => (hab hb).1)

/-- **One entry answers for the table.** The last passing entry says yes exactly if some passing
entry does, wherever that one stands. -/
theorem LastDecides.any_lastWhere?_iff {q : α → Bool} (h : LastDecides p q table) :
    (lastWhere? p table).any q = true ↔ ∃ a ∈ table, p a = true ∧ q a = true := by
  have hlast {a : α} := lastWhere?_eq_some_iff (a := a) h.partitioned
  rw [Option.any_eq_true]
  constructor
  · rintro ⟨a, hfound, hqa⟩
    obtain ⟨i, hi, hpa, -⟩ := hlast.mp hfound
    exact ⟨a, Array.mem_of_getElem? hi, hpa, hqa⟩
  · rintro ⟨a, hmem, hpa, hqa⟩
    obtain ⟨i, hi⟩ := Array.getElem?_of_mem hmem
    refine ⟨a, hlast.mpr ⟨i, hi, hpa, fun j hij => ?_⟩, hqa⟩
    -- A passing entry behind `a` would mean that `a` says no.
    refine Bool.eq_false_iff.mpr fun hj => ?_
    obtain ⟨b, hb, hpb⟩ := passesAt_iff.mp hj
    have hno : q a = false := (rel_of_getElem? h hi hb hij hpb).2
    rw [hqa] at hno
    exact Bool.noConfusion hno

end TextOps.SortedTable
