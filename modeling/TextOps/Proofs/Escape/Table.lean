import Mathlib.Data.List.Induction
import TextOps.Escape.Builder

/-!
# `TextOps/Proofs/Escape/Table.lean` — a dense table holds what was listed last

A dense table is an array of blanks that is filled in the order of a list. Two of them are in use:
the slots of a replacement table, and the marks of safe characters. Both are read the same way, by a
code that may lie behind the end, and so there is one fact about both (`getD_fill`): what is read is
the value of the *last* item listed under the code, and a blank if there is none. Nothing is lost at
the end of the array, because it is as long as the greatest listed code asks for.

For replacements the fact becomes `get?_ofPairs`, over `latest?`, which mentions no array at all. A
builder keeps one pair for each unit instead of all of them, in an order of its own; that makes no
difference to what was listed last (`latest?_add`).
-/

set_option autoImplicit false

namespace TextOps

/-! ## Arrays that are filled in order -/

section Fill

variable {α β : Type}

/-- How long an array has to be for a slot of every item. -/
def extentOf (key : α → Nat) (xs : List α) : Nat := xs.foldl (fun n x => max n (key x + 1)) 0

/-- An array of blanks in which the slot of each item is filled, one item after the other. -/
def fill (key : α → Nat) (val : α → β) (blank : β) (xs : List α) : Array β :=
  xs.foldl (fun slots x => slots.setIfInBounds (key x) (val x))
    (Array.replicate (extentOf key xs) blank)

variable {key : α → Nat} {val : α → β} {blank : β}

theorem extentOf_append_singleton (xs : List α) (x : α) :
    extentOf key (xs ++ [x]) = max (extentOf key xs) (key x + 1) := by
  simp [extentOf]

theorem lt_extentOf {xs : List α} {x : α} (hx : x ∈ xs) : key x < extentOf key xs := by
  induction xs using List.reverseRecOn with
  | nil => exact absurd hx List.not_mem_nil
  | append_singleton xs y ih =>
    rw [extentOf_append_singleton]
    rcases List.mem_append.mp hx with hx | hx
    · have := ih hx
      omega
    · rw [List.mem_singleton.mp hx]
      omega

theorem extentOf_le_iff {xs : List α} {n : Nat} : extentOf key xs ≤ n ↔ ∀ x ∈ xs, key x < n := by
  induction xs using List.reverseRecOn with
  | nil => simp [extentOf]
  | append_singleton xs x ih =>
    rw [extentOf_append_singleton, Nat.max_le, ih, Nat.add_one_le_iff]
    simp [or_imp, forall_and]

theorem extentOf_congr {xs ys : List α} (h : ∀ x, x ∈ xs ↔ x ∈ ys) :
    extentOf key xs = extentOf key ys := by
  apply Nat.le_antisymm
  · exact extentOf_le_iff.mpr fun x hx => lt_extentOf ((h x).mp hx)
  · exact extentOf_le_iff.mpr fun x hx => lt_extentOf ((h x).mpr hx)

@[simp] theorem size_foldl_setIfInBounds (xs : List α) (slots : Array β) :
    (xs.foldl (fun slots x => slots.setIfInBounds (key x) (val x)) slots).size = slots.size := by
  induction xs generalizing slots with
  | nil => rfl
  | cons x xs ih => simp [ih]

/-- Whatever the array, a slot holds the value of the last item that was put there. -/
theorem getElem?_foldl_setIfInBounds (xs : List α) (slots : Array β) {i : Nat}
    (hi : i < slots.size) :
    (xs.foldl (fun slots x => slots.setIfInBounds (key x) (val x)) slots)[i]? =
      ((xs.reverse.find? (key · = i)).map val).or slots[i]? := by
  induction xs using List.reverseRecOn with
  | nil => rfl
  | append_singleton xs x ih =>
    rw [List.foldl_append, List.foldl_cons, List.foldl_nil, Array.getElem?_setIfInBounds,
      size_foldl_setIfInBounds, List.reverse_concat, List.find?_cons]
    by_cases hx : key x = i
    · simp [hx, hi]
    · simp [hx, ih]

/-- **Reading a filled array** gives the value of the last item under the code. -/
theorem getD_fill (xs : List α) (i : Nat) :
    (fill key val blank xs)[i]?.getD blank =
      ((xs.reverse.find? (key · = i)).map val).getD blank := by
  by_cases hi : i < extentOf key xs
  · rw [fill, getElem?_foldl_setIfInBounds xs _ (by simpa using hi)]
    cases xs.reverse.find? (key · = i) <;> simp [hi]
  · -- Behind the end nothing is listed.
    have hnone : xs.reverse.find? (key · = i) = none := by
      rw [List.find?_eq_none]
      intro x hx hxi
      exact hi (of_decide_eq_true hxi ▸ lt_extentOf (List.mem_reverse.mp hx))
    rw [hnone, Array.getElem?_eq_none (by simpa [fill] using hi)]
    rfl

/-- If all items have one value, it only matters whether there is an item under the code. -/
theorem getD_fill_const (v : β) (xs : List α) (i : Nat) :
    (fill key (fun _ => v) blank xs)[i]?.getD blank = if xs.any (key · = i) then v else blank := by
  rw [getD_fill]
  cases hfind : xs.reverse.find? (key · = i) with
  | none =>
    have hany : ¬ xs.any (key · = i) = true := by simpa using hfind
    rw [if_neg hany]
    rfl
  | some x =>
    have hx : x ∈ xs := List.mem_reverse.mp (List.mem_of_find?_eq_some hfind)
    rw [if_pos (List.any_eq_true.mpr ⟨x, hx, List.find?_some hfind⟩)]
    rfl

/-- If all items have one value, neither their order nor how often they are listed shows. -/
theorem fill_const_congr {v : β} {xs ys : List α} (h : ∀ x, x ∈ xs ↔ x ∈ ys) :
    fill key (fun _ => v) blank xs = fill key (fun _ => v) blank ys := by
  have hany : ∀ i, (xs.any (key · = i)) = ys.any (key · = i) := by
    intro i
    apply Bool.eq_iff_iff.mpr
    simp only [List.any_eq_true, h]
  apply Array.ext
  · simp [fill, extentOf_congr h]
  · intro i hi hi'
    have hread : (fill key (fun _ => v) blank xs)[i]?.getD blank =
        (fill key (fun _ => v) blank ys)[i]?.getD blank := by
      rw [getD_fill_const, getD_fill_const, hany]
    simpa [hi, hi'] using hread

/-- Fills the array with a check of every index before it is written to. -/
def fill? (key : α → Nat) (val : α → β) (blank : β) (xs : List α) : Option (Array β) :=
  xs.foldlM
    (fun slots x => if h : key x < slots.size then some (slots.set (key x) (val x) h) else none)
    (Array.replicate (extentOf key xs) blank)

/-- **No item is put behind the end.** -/
theorem fill?_eq (key : α → Nat) (val : α → β) (blank : β) (xs : List α) :
    fill? key val blank xs = some (fill key val blank xs) := by
  have hchecked : ∀ slots : Array β, (∀ x ∈ xs, key x < slots.size) →
      xs.foldlM (fun slots x =>
          if h : key x < slots.size then some (slots.set (key x) (val x) h) else none) slots =
        some (xs.foldl (fun slots x => slots.setIfInBounds (key x) (val x)) slots) := by
    induction xs with
    | nil => exact fun slots _ => rfl
    | cons x xs ih =>
      intro slots hslots
      have hx := hslots x List.mem_cons_self
      have hset : slots.setIfInBounds (key x) (val x) = slots.set (key x) (val x) hx := dif_pos hx
      rw [List.foldlM_cons, dif_pos hx, List.foldl_cons, hset]
      apply ih
      intro y hy
      rw [Array.size_set]
      exact hslots y (List.mem_cons_of_mem x hy)
  apply hchecked
  intro x hx
  rw [Array.size_replicate]
  exact lt_extentOf hx

end Fill

/-! ## Replacement tables -/

variable {U : Type}

section Latest

variable [DecidableEq U]

/-- The replacement that a list of pairs gives to a unit last. -/
def latest? (pairs : List (U × List U)) (u : U) : Option (List U) :=
  (pairs.reverse.find? (·.1 = u)).map (·.2)

theorem latest?_append_singleton (pairs : List (U × List U)) (p : U × List U) (u : U) :
    latest? (pairs ++ [p]) u = if p.1 = u then some p.2 else latest? pairs u := by
  rw [latest?, List.reverse_concat, List.find?_cons]
  by_cases hp : p.1 = u
  · simp [hp]
  · simp [hp, latest?]

theorem latest?_append (pairs pairs' : List (U × List U)) (u : U) :
    latest? (pairs ++ pairs') u = (latest? pairs' u).or (latest? pairs u) := by
  rw [latest?, List.reverse_append, List.find?_append, Option.map_or, ← latest?, ← latest?]

theorem latest?_eq_none_iff {pairs : List (U × List U)} {u : U} :
    latest? pairs u = none ↔ ∀ p ∈ pairs, p.1 ≠ u := by
  rw [latest?, Option.map_eq_none_iff, List.find?_eq_none]
  simp

theorem not_mem_of_latest? {pairs : List (U × List U)} {u : U} (h : latest? pairs u = none) :
    u ∉ pairs.map Prod.fst := by
  intro hu
  obtain ⟨p, hp, heq⟩ := List.mem_map.mp hu
  exact latest?_eq_none_iff.mp h p hp heq

/-- The replacement of a unit is the one in its last pair. -/
theorem latest?_eq_some_iff {pairs : List (U × List U)} {u : U} {r : List U} :
    latest? pairs u = some r ↔
      ∃ before after, pairs = before ++ (u, r) :: after ∧ ∀ p ∈ after, p.1 ≠ u := by
  constructor
  · intro h
    obtain ⟨⟨v, q⟩, hfind, rfl⟩ := Option.map_eq_some_iff.mp h
    obtain ⟨hv, after, before, hpairs, hafter⟩ := List.find?_eq_some_iff_append.mp hfind
    obtain rfl : v = u := of_decide_eq_true hv
    refine ⟨before.reverse, after.reverse, ?_, ?_⟩
    · simpa using congrArg List.reverse hpairs
    · intro p hp
      simpa using hafter p (List.mem_reverse.mp hp)
  · rintro ⟨before, after, rfl, hafter⟩
    have hsplit : before ++ (u, r) :: after = (before ++ [(u, r)]) ++ after := by simp
    rw [hsplit, latest?_append, latest?_eq_none_iff.mpr hafter, latest?_append_singleton, if_pos rfl]
    rfl

theorem mem_of_latest? {pairs : List (U × List U)} {u : U} {r : List U}
    (h : latest? pairs u = some r) : (u, r) ∈ pairs := by
  obtain ⟨before, after, rfl, -⟩ := latest?_eq_some_iff.mp h
  exact List.mem_append_right before List.mem_cons_self

/-- Pairs for other units may be left out. -/
theorem latest?_filter_ne {u v : U} (huv : u ≠ v) (pairs : List (U × List U)) :
    latest? (pairs.filter (·.1 ≠ u)) v = latest? pairs v := by
  induction pairs using List.reverseRecOn with
  | nil => rfl
  | append_singleton pairs p ih =>
    rw [List.filter_append, latest?_append_singleton]
    by_cases hp : p.1 = u
    · have hpv : ¬ p.1 = v := fun h => huv (hp.symm.trans h)
      rw [List.filter_cons_of_neg (by simpa using hp), List.filter_nil, List.append_nil, ih,
        if_neg hpv]
    · rw [List.filter_cons_of_pos (by simpa using hp), List.filter_nil, latest?_append_singleton, ih]

end Latest

/-- Units whose codes can be told apart, of which there are at least two. -/
class LawfulCode (U : Type) [EscapeUnit U] : Prop where
  code_injective : Function.Injective (EscapeUnit.code : U → Nat)
  least_lt_greatest :
    EscapeUnit.code (EscapeUnit.least : U) < EscapeUnit.code (EscapeUnit.greatest : U)

instance : LawfulCode Char where
  code_injective _ _ h := Char.toNat_inj.mp h
  least_lt_greatest := by decide

instance : LawfulCode UInt8 where
  code_injective _ _ h := UInt8.toNat_inj.mp h
  least_lt_greatest := by decide

namespace Table

variable [EscapeUnit U]

theorem slots_ofPairs (pairs : List (U × List U)) :
    (ofPairs pairs).slots = fill (EscapeUnit.code ·.1) (some ·.2) none pairs := rfl

/-- **A table answers with the replacement listed last.** -/
theorem get?_ofPairs [LawfulCode U] [DecidableEq U] (pairs : List (U × List U)) (u : U) :
    (ofPairs pairs).get? u = latest? pairs u := by
  have hcode : (fun p : U × List U => decide (EscapeUnit.code p.1 = EscapeUnit.code u)) =
      fun p => decide (p.1 = u) := by
    funext p
    exact decide_eq_decide.mpr LawfulCode.code_injective.eq_iff
  have hjoin : ∀ slot : Option (Option (List U)), slot.join = slot.getD none := by
    rintro (_ | _) <;> rfl
  rw [get?, hjoin, slots_ofPairs, getD_fill, hcode, latest?]
  cases pairs.reverse.find? (·.1 = u) <;> rfl

end Table

/-! ## Builders -/

section Builders

variable [DecidableEq U]

/-- Listing a unit again takes the earlier replacement away, and it would not have counted. -/
theorem latest?_add (m : Mappings U) (u : U) (r : List U) (v : U) :
    latest? (m.add u r).pairs v = if u = v then some r else latest? m.pairs v := by
  rw [Mappings.add, latest?_append_singleton]
  split
  · rfl
  · next huv => rw [latest?_filter_ne huv]

theorem latest?_addAll (m : Mappings U) (us : List U) (r : List U) (v : U) :
    latest? (m.addAll us r).pairs v = if v ∈ us then some r else latest? m.pairs v := by
  induction us generalizing m with
  | nil => rfl
  | cons u us ih =>
    have hstep : m.addAll (u :: us) r = (m.add u r).addAll us r := rfl
    rw [hstep, ih, latest?_add]
    by_cases hvu : v = u
    · subst hvu
      simp
    · have huv : u ≠ v := fun h => hvu h.symm
      simp [hvu, huv]

/-- A builder's table answers with what was added last. -/
theorem latest?_foldl_add (adds : List (U × List U)) (m : Mappings U) (v : U) :
    latest? (adds.foldl (fun m p => m.add p.1 p.2) m).pairs v =
      (latest? adds v).or (latest? m.pairs v) := by
  induction adds using List.reverseRecOn with
  | nil => rfl
  | append_singleton adds p ih =>
    rw [List.foldl_append, List.foldl_cons, List.foldl_nil, latest?_add, latest?_append_singleton,
      ih]
    split <;> rfl

theorem Builder.foldl_add (adds : List (U × List U)) (b : Builder U) :
    adds.foldl (fun b p => b.add p.1 p.2) b =
      { b with mappings := adds.foldl (fun m p => m.add p.1 p.2) b.mappings } := by
  induction adds generalizing b with
  | nil => rfl
  | cons p adds ih =>
    rw [List.foldl_cons, ih]
    rfl

end Builders

end TextOps
