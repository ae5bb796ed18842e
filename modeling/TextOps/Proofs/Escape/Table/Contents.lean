import TextOps.Proofs.Escape.Table

/-!
# `TextOps/Proofs/Escape/Table/Contents.lean` — what a table of pairs answers

There are two ways to fill a dense table. One looks for the greatest code first and allocates all
slots at once; the other begins with no slot and makes the table longer whenever a code lies behind
its end. The second way has to keep what is there already when the table grows, and a smaller code
that comes later must not make it shorter. Both are stated with a check of every index, and both give
the same table for every list (`fill?_eq`, `growing?_eq`): one more pair is one more slot written, in
a table that has been made long enough (`fill_append_singleton`).

Of that table everything is known from the pairs (`AnswersLatest`). The order of the pairs matters
only for the pairs of one unit: lists that come from each other by exchanging neighbours with distinct
units (`Reordered`) have equal tables, because writing to two slots can be done in either order.
-/

set_option autoImplicit false

namespace TextOps

/-! ## Arrays that grow -/

section Growing

variable {α β : Type} {key : α → Nat} {val : α → β} {blank : β}

/-- Makes an array long enough for a slot at `n`, if it is not. -/
def lengthen (blank : β) (slots : Array β) (n : Nat) : Array β :=
  if slots.size ≤ n then slots ++ Array.replicate (n + 1 - slots.size) blank else slots

/-- Writes to a slot; nothing if there is no such slot. -/
def write? (slots : Array β) (i : Nat) (v : β) : Option (Array β) :=
  if h : i < slots.size then some (slots.set i v h) else none

/-- Fills an array that grows on the way, with a check of every index before it is written to. -/
def growing? (key : α → Nat) (val : α → β) (blank : β) (xs : List α) : Option (Array β) :=
  xs.foldlM (fun slots x => write? (lengthen blank slots (key x)) (key x) (val x)) #[]

theorem write?_eq {slots : Array β} {i : Nat} (hi : i < slots.size) (v : β) :
    write? slots i v = some (slots.setIfInBounds i v) := by
  rw [write?, dif_pos hi, Array.setIfInBounds, dif_pos hi]

theorem size_lengthen (slots : Array β) (n : Nat) :
    (lengthen blank slots n).size = max slots.size (n + 1) := by
  unfold lengthen
  split
  · rw [Array.size_append, Array.size_replicate]
    omega
  · omega

theorem lengthen_replicate (m n : Nat) :
    lengthen blank (Array.replicate m blank) n = Array.replicate (max m (n + 1)) blank := by
  unfold lengthen
  rw [Array.size_replicate]
  split
  · rw [Array.replicate_append_replicate]
    congr 1
    omega
  · congr 1
    omega

/-- A slot that is there can be written to before or after the array is made longer. -/
theorem setIfInBounds_lengthen {slots : Array β} {i : Nat} (hi : i < slots.size) (n : Nat) (v : β) :
    (lengthen blank slots n).setIfInBounds i v = lengthen blank (slots.setIfInBounds i v) n := by
  unfold lengthen
  rw [Array.size_setIfInBounds]
  split
  · exact Array.setIfInBounds_append_left hi
  · rfl

theorem foldl_lengthen {xs : List α} {slots : Array β} (h : ∀ x ∈ xs, key x < slots.size) (n : Nat) :
    xs.foldl (fun slots x => slots.setIfInBounds (key x) (val x)) (lengthen blank slots n) =
      lengthen blank (xs.foldl (fun slots x => slots.setIfInBounds (key x) (val x)) slots) n := by
  induction xs generalizing slots with
  | nil => rfl
  | cons x xs ih =>
    have hx : key x < slots.size := h x List.mem_cons_self
    rw [List.foldl_cons, List.foldl_cons, setIfInBounds_lengthen hx]
    apply ih
    intro y hy
    rw [Array.size_setIfInBounds]
    exact h y (List.mem_cons_of_mem x hy)

/-- **One more item is one more slot written**, in an array that is long enough for it. -/
theorem fill_append_singleton (xs : List α) (x : α) :
    fill key val blank (xs ++ [x]) =
      (lengthen blank (fill key val blank xs) (key x)).setIfInBounds (key x) (val x) := by
  have hlength : ∀ y ∈ xs, key y < (Array.replicate (extentOf key xs) blank).size := by
    intro y hy
    rw [Array.size_replicate]
    exact lt_extentOf hy
  rw [fill, fill, List.foldl_append, extentOf_append_singleton, ← lengthen_replicate,
    foldl_lengthen hlength]
  rfl

/-- **An array that grows is filled like one that is long enough from the beginning**, and no item is
put behind its end. -/
theorem growing?_eq (key : α → Nat) (val : α → β) (blank : β) (xs : List α) :
    growing? key val blank xs = some (fill key val blank xs) := by
  induction xs using List.reverseRecOn with
  | nil => rfl
  | append_singleton xs x ih =>
    have hx : key x < (lengthen blank (fill key val blank xs) (key x)).size := by
      rw [size_lengthen]
      omega
    unfold growing? at ih ⊢
    rw [List.foldlM_append, ih, fill_append_singleton]
    simp [write?_eq hx]

/-- There is a slot for the greatest code and none behind it. -/
theorem exists_extentOf_eq (key : α → Nat) (xs : List α) :
    (xs = [] ∧ extentOf key xs = 0) ∨
      ∃ x ∈ xs, (∀ y ∈ xs, key y ≤ key x) ∧ extentOf key xs = key x + 1 := by
  induction xs using List.reverseRecOn with
  | nil => exact Or.inl ⟨rfl, rfl⟩
  | append_singleton xs x ih =>
    right
    have hlt : ∀ y ∈ xs ++ [x], key y < extentOf key (xs ++ [x]) := fun y hy => lt_extentOf hy
    rw [extentOf_append_singleton] at hlt ⊢
    by_cases hx : extentOf key xs ≤ key x + 1
    · rw [Nat.max_eq_right hx] at hlt ⊢
      exact ⟨x, by simp, fun y hy => Nat.le_of_lt_succ (hlt y hy), rfl⟩
    · -- The greatest code has been there before.
      rw [Nat.max_eq_left (by omega)] at hlt ⊢
      rcases ih with ⟨-, hzero⟩ | ⟨y, hy, -, heq⟩
      · omega
      · rw [heq] at hlt ⊢
        exact ⟨y, by simp [hy], fun z hz => Nat.le_of_lt_succ (hlt z hz), rfl⟩

end Growing

/-! ## The order of pairs -/

variable {U : Type}

/-- Lists of pairs that are the same but for the order of pairs with distinct units. -/
inductive Reordered : List (U × List U) → List (U × List U) → Prop where
  | nil : Reordered [] []
  | cons (p : U × List U) {pairs pairs' : List (U × List U)} (rest : Reordered pairs pairs') :
      Reordered (p :: pairs) (p :: pairs')
  | exchange {p q : U × List U} (hne : p.1 ≠ q.1) (pairs : List (U × List U)) :
      Reordered (p :: q :: pairs) (q :: p :: pairs)
  | trans {pairs pairs' pairs'' : List (U × List U)} (first : Reordered pairs pairs')
      (second : Reordered pairs' pairs'') : Reordered pairs pairs''

namespace Reordered

variable {pairs pairs' : List (U × List U)}

theorem perm (h : Reordered pairs pairs') : pairs.Perm pairs' := by
  induction h with
  | nil => exact .nil
  | cons p _ ih => exact ih.cons p
  | exchange _ pairs => exact .swap _ _ pairs
  | trans _ _ ih ih' => exact ih.trans ih'

/-- With one pair for each unit, any two pairs have distinct units. -/
theorem of_perm (h : pairs.Perm pairs') (hunits : (pairs.map Prod.fst).Nodup) :
    Reordered pairs pairs' := by
  induction h with
  | nil => exact .nil
  | cons p _ ih => exact .cons p (ih (List.nodup_cons.mp hunits).2)
  | swap p q pairs =>
    apply Reordered.exchange
    intro heq
    exact (List.nodup_cons.mp hunits).1 (heq ▸ List.mem_cons_self)
  | trans h _ ih ih' => exact .trans (ih hunits) (ih' ((h.map Prod.fst).nodup_iff.mp hunits))

end Reordered

namespace Table

variable [EscapeUnit U]

/-! ## Tables -/

/-- Builds a table with all its slots from the beginning; nothing if an index is out of range. -/
def allocated? (pairs : List (U × List U)) : Option (Table U) :=
  (fill? (EscapeUnit.code ·.1) (some ·.2) none pairs).map Table.mk

/-- Builds a table that grows with its pairs; nothing if an index is out of range. -/
def grown? (pairs : List (U × List U)) : Option (Table U) :=
  (growing? (EscapeUnit.code ·.1) (some ·.2) none pairs).map Table.mk

theorem allocated?_eq (pairs : List (U × List U)) : allocated? pairs = some (ofPairs pairs) := by
  rw [allocated?, fill?_eq]
  rfl

theorem grown?_eq (pairs : List (U × List U)) : grown? pairs = some (ofPairs pairs) := by
  rw [grown?, growing?_eq]
  rfl

theorem size_ofPairs (pairs : List (U × List U)) :
    (ofPairs pairs).size = extentOf (EscapeUnit.code ·.1) pairs := by
  rw [size, slots_ofPairs, fill, size_foldl_setIfInBounds, Array.size_replicate]

/-- The answers of a table in which the last pair of a unit counts. -/
structure AnswersLatest (t : Table U) (pairs : List (U × List U)) : Prop where
  /-- The replacement of a unit is the one in its last pair. -/
  get?_eq_some_iff : ∀ u r, t.get? u = some r ↔
    ∃ before after, pairs = before ++ (u, r) :: after ∧ ∀ p ∈ after, p.1 ≠ u
  /-- There is none exactly if there is no pair for the unit. -/
  get?_eq_none_iff : ∀ u, t.get? u = none ↔ ∀ p ∈ pairs, p.1 ≠ u
  /-- There is none behind the end. -/
  get?_of_size_le : ∀ u, t.size ≤ EscapeUnit.code u → t.get? u = none
  /-- The table ends behind the greatest unit. -/
  size_eq : (pairs = [] ∧ t.size = 0) ∨
    ∃ p ∈ pairs, (∀ q ∈ pairs, EscapeUnit.code q.1 ≤ EscapeUnit.code p.1) ∧
      t.size = EscapeUnit.code p.1 + 1
  /-- A table without slots is one without pairs. -/
  isEmpty_iff : t.isEmpty = true ↔ pairs = []

variable [LawfulCode U]

theorem answersLatest_ofPairs [DecidableEq U] (pairs : List (U × List U)) :
    (ofPairs pairs).AnswersLatest pairs where
  get?_eq_some_iff u r := by
    rw [get?_ofPairs]
    exact latest?_eq_some_iff
  get?_eq_none_iff u := by
    rw [get?_ofPairs]
    exact latest?_eq_none_iff
  get?_of_size_le u hu := by
    rw [get?, Array.getElem?_eq_none hu]
    rfl
  size_eq := by
    rw [size_ofPairs]
    exact exists_extentOf_eq _ pairs
  isEmpty_iff := by
    have hsize : (ofPairs pairs).isEmpty = true ↔ (ofPairs pairs).size = 0 := by
      simp [isEmpty, size]
    rw [hsize, size_ofPairs]
    rcases exists_extentOf_eq (fun p : U × List U => EscapeUnit.code p.1) pairs with
      ⟨hnil, hzero⟩ | ⟨p, hp, -, heq⟩
    · exact iff_of_true hzero hnil
    · rw [heq]
      exact iff_of_false (Nat.succ_ne_zero _) (List.ne_nil_of_mem hp)

/-- Pairs with distinct units are written to distinct slots, in whichever order. -/
theorem foldl_put_reordered {pairs pairs' : List (U × List U)} (h : Reordered pairs pairs')
    (slots : Array (Option (List U))) : pairs.foldl put slots = pairs'.foldl put slots := by
  induction h generalizing slots with
  | nil => rfl
  | cons p _ ih => exact ih (put slots p)
  | @exchange p q hne pairs =>
    have hcodes : EscapeUnit.code p.1 ≠ EscapeUnit.code q.1 :=
      fun heq => hne (LawfulCode.code_injective heq)
    have hput : put (put slots p) q = put (put slots q) p := Array.setIfInBounds_comm _ _ hcodes
    rw [List.foldl_cons, List.foldl_cons, hput]
    rfl
  | trans _ _ ih ih' => rw [ih, ih']

theorem ofPairs_reordered {pairs pairs' : List (U × List U)} (h : Reordered pairs pairs') :
    ofPairs pairs = ofPairs pairs' := by
  have hneeded : needed pairs = needed pairs' := extentOf_congr fun p => h.perm.mem_iff
  rw [ofPairs, ofPairs, hneeded, foldl_put_reordered h]

theorem ofPairs_perm {pairs pairs' : List (U × List U)} (h : pairs.Perm pairs')
    (hunits : (pairs.map Prod.fst).Nodup) : ofPairs pairs = ofPairs pairs' :=
  ofPairs_reordered (.of_perm h hunits)

/-- **In a table the last pair of a unit counts**, in tables for characters, which are allocated at
once, and in tables for octets, which grow. No index is out of range when they are built, the answers
are those of `AnswersLatest`, and they do not depend on the order of pairs with distinct units. -/
theorem ofPairs_answersLatest :
    (∀ pairs : List (Char × Text), allocated? pairs = some (ofPairs pairs) ∧
      (ofPairs pairs).AnswersLatest pairs ∧
      ∀ pairs', Reordered pairs pairs' → ofPairs pairs' = ofPairs pairs) ∧
    ∀ pairs : List (UInt8 × Bytes), grown? pairs = some (ofPairs pairs) ∧
      (ofPairs pairs).AnswersLatest pairs ∧
      ∀ pairs', Reordered pairs pairs' → ofPairs pairs' = ofPairs pairs := by
  constructor
  · intro pairs
    refine ⟨allocated?_eq pairs, answersLatest_ofPairs pairs, ?_⟩
    intro pairs' h
    exact (ofPairs_reordered h).symm
  · intro pairs
    refine ⟨grown?_eq pairs, answersLatest_ofPairs pairs, ?_⟩
    intro pairs' h
    exact (ofPairs_reordered h).symm

/-- An empty replacement takes the place of another one, and a smaller octet comes after a greater. -/
theorem ofPairs_answersLatest_exchanged :
    let pairs : List (UInt8 × Bytes) := [(0x62, [0x31]), (0x61, [0x32]), (0x62, [])]
    let pairs' : List (UInt8 × Bytes) := [(0x61, [0x32]), (0x62, [0x31]), (0x62, [])]
    Reordered pairs pairs' ∧ ofPairs pairs' = ofPairs pairs ∧ (ofPairs pairs').get? 0x62 = some [] := by
  intro pairs pairs'
  have hne : (0x62 : UInt8) ≠ 0x61 := by decide
  have h : Reordered pairs pairs' := .exchange hne _
  obtain ⟨-, hanswers, -⟩ := ofPairs_answersLatest.2 pairs'
  obtain ⟨-, -, horder⟩ := ofPairs_answersLatest.2 pairs
  refine ⟨h, horder pairs' h, (hanswers.get?_eq_some_iff 0x62 []).mpr ?_⟩
  exact ⟨[(0x61, [0x32]), (0x62, [0x31])], [], rfl, by simp⟩

end Table

end TextOps
