import TextOps.Offset

/-!
# `TextOps/Proofs/Offset.lean` — offsets are splits

An offset is a number, and what a proof needs is the split of the list that it stands for. The
lemmas here turn one into the other: a boundary is the extent of a front part (`isBoundary_iff`),
cutting located items at such an offset gives the two parts (`takeWhile_locate`, `dropWhile_locate`),
and the first passing item stands behind a front part in which none passes (`first?_append_cons`).

Cutting needs every item to take some room: two items at the same offset could not be told apart.
-/

set_option autoImplicit false

namespace TextOps.Offset

variable {α : Type} {width : α → Nat}

/-! ## Locating -/

@[simp] theorem extent_nil : extent width [] = 0 := rfl

@[simp] theorem extent_cons (a : α) (as : List α) :
    extent width (a :: as) = width a + extent width as := rfl

@[simp] theorem extent_append (as bs : List α) :
    extent width (as ++ bs) = extent width as + extent width bs := by
  induction as with
  | nil => rw [List.nil_append, extent_nil, Nat.zero_add]
  | cons a as ih => rw [List.cons_append, extent_cons, ih, extent_cons, Nat.add_assoc]

@[simp] theorem locate_nil (base : Nat) : locate width base [] = [] := rfl

@[simp] theorem locate_cons (base : Nat) (a : α) (as : List α) :
    locate width base (a :: as) = (base, a) :: locate width (base + width a) as := rfl

theorem locate_append (base : Nat) (as bs : List α) :
    locate width base (as ++ bs) =
      locate width base as ++ locate width (base + extent width as) bs := by
  induction as generalizing base with
  | nil => rfl
  | cons a as ih => rw [List.cons_append, locate_cons, ih, locate_cons, List.cons_append,
      extent_cons, Nat.add_assoc]

@[simp] theorem map_snd_locate (base : Nat) (as : List α) :
    (locate width base as).map (·.2) = as := by
  induction as generalizing base with
  | nil => rfl
  | cons a as ih => rw [locate_cons, List.map_cons, ih]

theorem lt_of_mem_locate (hw : ∀ a, 0 < width a) {base : Nat} {as : List α} {x : Nat × α}
    (hx : x ∈ locate width base as) : x.1 < base + extent width as := by
  induction as generalizing base with
  | nil => exact absurd hx List.not_mem_nil
  | cons a as ih =>
    have ha := hw a
    rw [extent_cons]
    rcases List.mem_cons.mp hx with rfl | hx
    · exact Nat.lt_add_of_pos_right (by omega)
    · have := ih hx
      omega

/-! ## Cutting at an offset -/

/-- The items before the offset at which the second part starts are those of the first. -/
theorem takeWhile_locate (hw : ∀ a, 0 < width a) (base : Nat) (as bs : List α) :
    (locate width base (as ++ bs)).takeWhile (·.1 < base + extent width as) =
      locate width base as := by
  rw [locate_append, List.takeWhile_append_of_pos
    fun x hx => decide_eq_true (lt_of_mem_locate hw hx)]
  cases bs with
  | nil => rw [locate_nil, List.takeWhile_nil, List.append_nil]
  | cons b bs => rw [locate_cons, List.takeWhile_cons_of_neg (by simp), List.append_nil]

theorem dropWhile_locate (hw : ∀ a, 0 < width a) (base : Nat) (as bs : List α) :
    (locate width base (as ++ bs)).dropWhile (·.1 < base + extent width as) =
      locate width (base + extent width as) bs := by
  rw [locate_append, List.dropWhile_append_of_pos
    fun x hx => decide_eq_true (lt_of_mem_locate hw hx)]
  cases bs with
  | nil => rw [locate_nil, List.dropWhile_nil]
  | cons b bs => rw [locate_cons, List.dropWhile_cons_of_neg (by simp)]

/-! ## Boundaries -/

theorem mem_offsets_iff {base offset : Nat} {as : List α} :
    (offset = base + extent width as ∨ ∃ x ∈ locate width base as, x.1 = offset) ↔
      ∃ xs ys, as = xs ++ ys ∧ base + extent width xs = offset := by
  induction as generalizing base with
  | nil =>
    constructor
    · rintro (rfl | ⟨x, hx, -⟩)
      · exact ⟨[], [], rfl, rfl⟩
      · exact absurd hx List.not_mem_nil
    · rintro ⟨xs, ys, h, rfl⟩
      obtain ⟨rfl, rfl⟩ := List.append_eq_nil_iff.mp h.symm
      exact Or.inl rfl
  | cons a as ih =>
    rw [extent_cons, ← Nat.add_assoc, locate_cons]
    constructor
    · rintro (h | ⟨x, hx, rfl⟩)
      · obtain ⟨xs, ys, rfl, hxs⟩ := ih.mp (Or.inl h)
        exact ⟨a :: xs, ys, rfl, by rw [extent_cons, ← Nat.add_assoc, hxs]⟩
      · rcases List.mem_cons.mp hx with rfl | hx
        · exact ⟨[], a :: as, rfl, rfl⟩
        · obtain ⟨xs, ys, rfl, hxs⟩ := ih.mp (Or.inr ⟨x, hx, rfl⟩)
          exact ⟨a :: xs, ys, rfl, by rw [extent_cons, ← Nat.add_assoc, hxs]⟩
    · rintro ⟨xs, ys, h, hxs⟩
      cases xs with
      | nil => exact Or.inr ⟨(base, a), List.mem_cons_self, hxs⟩
      | cons b xs =>
        obtain ⟨rfl, rfl⟩ := List.cons.inj h
        rw [extent_cons, ← Nat.add_assoc] at hxs
        rcases ih.mpr ⟨xs, ys, rfl, hxs⟩ with hend | ⟨x, hx, hxo⟩
        · exact Or.inl hend
        · exact Or.inr ⟨x, List.mem_cons_of_mem _ hx, hxo⟩

/-- **A boundary is the extent of a front part.** -/
theorem isBoundary_iff {as : List α} {offset : Nat} :
    isBoundary width as offset = true ↔ ∃ xs ys, as = xs ++ ys ∧ extent width xs = offset := by
  have h := @mem_offsets_iff _ width 0 offset as
  simpa only [Nat.zero_add, isBoundary, Bool.or_eq_true, List.any_eq_true, beq_iff_eq] using h

/-! ## Slices -/

/-- The items between two offsets. There are none to give if the offsets are out of order, or if one
of them is no boundary. -/
def slice? (width : α → Nat) (as : List α) (start stop : Nat) : Option (List α) :=
  if start ≤ stop ∧ isBoundary width as start = true ∧ isBoundary width as stop = true then
    some ((((locate width 0 as).dropWhile (·.1 < start)).takeWhile (·.1 < stop)).map (·.2))
  else none

/-- **A slice is what stands between two front parts.** -/
theorem slice?_append (hw : ∀ a, 0 < width a) (xs ys zs : List α) :
    slice? width (xs ++ ys ++ zs) (extent width xs) (extent width xs + extent width ys) =
      some ys := by
  have hstart : isBoundary width (xs ++ ys ++ zs) (extent width xs) = true :=
    isBoundary_iff.mpr ⟨xs, ys ++ zs, List.append_assoc xs ys zs, rfl⟩
  have hstop : isBoundary width (xs ++ ys ++ zs) (extent width xs + extent width ys) = true :=
    isBoundary_iff.mpr ⟨xs ++ ys, zs, rfl, extent_append xs ys⟩
  have hdrop := dropWhile_locate hw 0 xs (ys ++ zs)
  rw [Nat.zero_add] at hdrop
  rw [slice?, if_pos ⟨Nat.le_add_right _ _, hstart, hstop⟩, List.append_assoc, hdrop,
    takeWhile_locate hw, map_snd_locate]

theorem of_slice?_eq_some {as bs : List α} {start stop : Nat}
    (h : slice? width as start stop = some bs) :
    start ≤ stop ∧
      (((locate width 0 as).dropWhile (·.1 < start)).takeWhile (·.1 < stop)).map (·.2) = bs := by
  rw [slice?] at h
  split at h
  · next horder => exact ⟨horder.1, Option.some.inj h⟩
  · cases h

/-- Items that lie before an offset lie before every later one. -/
theorem dropWhile_dropWhile {start stop : Nat} (h : start ≤ stop) (items : List (Nat × α)) :
    (items.dropWhile (·.1 < start)).dropWhile (·.1 < stop) = items.dropWhile (·.1 < stop) := by
  induction items with
  | nil => rfl
  | cons x items ih =>
    by_cases hx : x.1 < start
    · have hx' : x.1 < stop := Nat.lt_of_lt_of_le hx h
      rw [List.dropWhile_cons_of_pos (by simpa using hx), ih,
        List.dropWhile_cons_of_pos (by simpa using hx')]
    · rw [List.dropWhile_cons_of_neg (by simpa using hx)]

/-! ## The first passing item -/

variable {p : α → Bool}

theorem find?_locate_append (base : Nat) {xs : List α} (h : ∀ x ∈ xs, p x = false) (ys : List α) :
    (locate width base (xs ++ ys)).find? (p ·.2) =
      (locate width (base + extent width xs) ys).find? (p ·.2) := by
  induction xs generalizing base with
  | nil => rfl
  | cons x xs ih =>
    rw [List.cons_append, locate_cons, List.find?_cons_of_neg (by simp [h x List.mem_cons_self]),
      ih _ fun y hy => h y (List.mem_cons_of_mem _ hy), extent_cons, Nat.add_assoc]

theorem first?_eq_none {as : List α} (h : ∀ a ∈ as, p a = false) : first? width p as = none := by
  rw [first?, ← List.append_nil as, find?_locate_append 0 h, locate_nil, List.find?_nil,
    Option.map_none]

theorem first?_append_cons {xs : List α} (h : ∀ x ∈ xs, p x = false) {a : α} (ha : p a = true)
    (ys : List α) : first? width p (xs ++ a :: ys) = some (extent width xs) := by
  rw [first?, find?_locate_append 0 h, locate_cons, List.find?_cons_of_pos (by simpa using ha),
    Option.map_some, Nat.zero_add]

theorem none_or_first (p : α → Bool) (as : List α) :
    (∀ a ∈ as, p a = false) ∨
      ∃ xs a ys, as = xs ++ a :: ys ∧ (∀ x ∈ xs, p x = false) ∧ p a = true := by
  cases hfind : as.find? p with
  | none => exact Or.inl fun a ha => by simpa using List.find?_eq_none.mp hfind a ha
  | some a =>
    obtain ⟨ha, xs, ys, rfl, hxs⟩ := List.find?_eq_some_iff_append.mp hfind
    exact Or.inr ⟨xs, a, ys, rfl, fun x hx => by simpa using hxs x hx, ha⟩

/-- Nothing passes before an offset that is not behind the first passing item. -/
theorem forall_before_first (hw : ∀ a, 0 < width a) {xs ys : List α}
    (h : ∀ i, first? width p (xs ++ ys) = some i → extent width xs ≤ i) :
    ∀ x ∈ xs, p x = false := by
  rcases none_or_first p xs with hnone | ⟨xs₁, a, xs₂, rfl, hxs₁, ha⟩
  · exact hnone
  · rw [List.append_assoc, List.cons_append] at h
    have hle := h _ (first?_append_cons hxs₁ ha _)
    rw [extent_append, extent_cons] at hle
    have := hw a
    omega

end TextOps.Offset
