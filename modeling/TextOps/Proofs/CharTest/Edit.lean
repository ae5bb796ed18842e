import Mathlib.Data.List.DropRight
import Mathlib.Data.List.TakeWhile
import TextOps.CharTest.Replace
import TextOps.CharTest.Trim
import TextOps.Proofs.Offset

/-!
# `TextOps/Proofs/CharTest/Edit.lean` — what an edit gives, and when it gives the text back

The edits of a text look for the first character that they have to touch, copy what lies before it,
and work on the rest only. That is a matter of how, and the equations here are without it: a text is
handed back exactly if no character of it is to be touched, and is the whole text with every such
character dropped or replaced otherwise (`retainFrom_eq`, `replaceFrom_eq`). Both come down to the
same split at the first character in question, because before it there is nothing to drop.
-/

set_option autoImplicit false

namespace TextOps.CharTest

variable {p : CharTest}

/-! ## The first character that fails -/

theorem dropWhile_append_cons {before : Text} {c : Char} (hbefore : ∀ d ∈ before, p d = true)
    (hc : p c = false) (after : Text) : (before ++ c :: after).dropWhile p = c :: after := by
  rw [List.dropWhile_append_of_pos hbefore, List.dropWhile_cons_of_neg (by simp [hc])]

theorem takeWhile_append_cons {before : Text} {c : Char} (hbefore : ∀ d ∈ before, p d = true)
    (hc : p c = false) (after : Text) : (before ++ c :: after).takeWhile p = before := by
  rw [List.takeWhile_append_of_pos hbefore, List.takeWhile_cons_of_neg (by simp [hc]),
    List.append_nil]

theorem all_or_first_failing (p : CharTest) (s : Text) :
    (∀ c ∈ s, p c = true) ∨
      ∃ before c after, s = before ++ c :: after ∧ (∀ d ∈ before, p d = true) ∧ p c = false := by
  rcases Offset.none_or_first (fun c => !p c) s with hall | ⟨before, c, after, hs, hbefore, hc⟩
  · exact Or.inl fun c hc => by simpa using hall c hc
  · exact Or.inr ⟨before, c, after, hs, fun d hd => by simpa using hbefore d hd, by simpa using hc⟩

/-! ## Keeping and dropping -/

/-- A text is handed back if all of it is kept, and otherwise what is kept is written anew. -/
theorem retainFrom_eq (p : CharTest) (s : Text) :
    p.retainFrom s = if s.all p then .kept s else .built (s.filter p) := by
  rcases p.all_or_first_failing s with hall | ⟨before, c, after, rfl, hbefore, hc⟩
  · rw [retainFrom, List.dropWhile_eq_nil_iff.mpr hall, if_pos (List.all_eq_true.mpr hall)]
  · have hall : ¬ (before ++ c :: after).all p = true := by simp [hc]
    have hfilter : (before ++ c :: after).filter p = before ++ after.filter p := by
      rw [List.filter_append, List.filter_cons_of_neg (by simp [hc]),
        List.filter_eq_self.mpr hbefore]
    rw [retainFrom, dropWhile_append_cons hbefore hc, takeWhile_append_cons hbefore hc,
      if_neg hall, hfilter]

theorem value_retainFrom (p : CharTest) (s : Text) : (p.retainFrom s).value = s.filter p := by
  rw [retainFrom_eq]
  split
  · next hall => exact (List.filter_eq_self.mpr (List.all_eq_true.mp hall)).symm
  · rfl

theorem removeFrom_eq (p : CharTest) (s : Text) :
    p.removeFrom s = if s.any p then .built (s.filter fun c => !p c) else .kept s := by
  have hall : (s.all fun c => !p c) = !s.any p := List.not_any_eq_all_not.symm
  rw [removeFrom, retainFrom_eq, hall]
  cases s.any p <;> rfl

theorem value_removeFrom (p : CharTest) (s : Text) :
    (p.removeFrom s).value = s.filter fun c => !p c := value_retainFrom _ s

theorem isKept_retainFrom (p : CharTest) (s : Text) : (p.retainFrom s).isKept = s.all p := by
  rw [retainFrom_eq]
  cases s.all p <;> rfl

theorem isKept_removeFrom (p : CharTest) (s : Text) : (p.removeFrom s).isKept = !s.any p := by
  rw [removeFrom_eq]
  cases s.any p <;> rfl

/-! ## Replacing -/

theorem substitute_cons (r : Text) (c : Char) (s : Text) :
    p.substitute r (c :: s) = (if p c then r else [c]) ++ p.substitute r s := List.flatMap_cons

theorem substitute_of_none {s : Text} (h : ∀ c ∈ s, p c = false) (r : Text) :
    p.substitute r s = s := by
  induction s with
  | nil => rfl
  | cons c s ih =>
    rw [substitute_cons, ih fun d hd => h d (List.mem_cons_of_mem _ hd), h c List.mem_cons_self]
    rfl

theorem substitute_nil (s : Text) : p.substitute [] s = s.filter fun c => !p c := by
  induction s with
  | nil => rfl
  | cons c s ih =>
    rw [substitute_cons, ih]
    cases hc : p c <;> simp [hc]

/-- A text is handed back if nothing in it is replaced, and otherwise every character that passes is
replaced on its own; an empty replacement is no exception. -/
theorem replaceFrom_eq (p : CharTest) (s r : Text) :
    p.replaceFrom s r = if s.any p then .built (p.substitute r s) else .kept s := by
  cases r with
  | nil =>
    rw [substitute_nil]
    exact removeFrom_eq p s
  | cons d r =>
    have hr : ¬ (d :: r).isEmpty = true := Bool.false_ne_true
    rcases Offset.none_or_first p s with hnone | ⟨before, c, after, rfl, hbefore, hc⟩
    · have hpass : ∀ c ∈ s, (!p c) = true := fun c hc => by simp [hnone c hc]
      have hany : ¬ s.any p = true := by simpa using hnone
      rw [replaceFrom, if_neg hr, List.dropWhile_eq_nil_iff.mpr hpass, if_neg hany]
    · have hpass : ∀ d ∈ before, (!p d) = true := fun d hd => by simp [hbefore d hd]
      have hstop : (!p c) = false := by simp [hc]
      have hany : (before ++ c :: after).any p = true := by simp [hc]
      have hfront : p.substitute (d :: r) (before ++ c :: after) =
          before ++ p.substitute (d :: r) (c :: after) := by
        rw [substitute, List.flatMap_append, ← substitute, ← substitute,
          substitute_of_none hbefore]
      rw [replaceFrom, if_neg hr, dropWhile_append_cons hpass hstop,
        takeWhile_append_cons hpass hstop, if_pos hany, hfront]

/-! ## Trimming -/

theorem trimFrom_of_all {s : Text} (h : ∀ c ∈ s, p c = true) : p.trimFrom s = [] := by
  rw [trimFrom, trimLeadingFrom, List.dropWhile_eq_nil_iff.mpr h]
  rfl

theorem trimFrom_of_none {s : Text} (h : ∀ c ∈ s, p c = false) : p.trimFrom s = s := by
  have hself : ∀ t : Text, (∀ c ∈ t, p c = false) → t.dropWhile p = t := by
    intro t ht
    cases t with
    | nil => rfl
    | cons c t => exact List.dropWhile_cons_of_neg (by simp [ht c List.mem_cons_self])
  rw [trimFrom, trimLeadingFrom, trimTrailingFrom, hself s h,
    hself s.reverse fun c hc => h c (List.mem_reverse.mp hc), List.reverse_reverse]

theorem trimFrom_eq (p : CharTest) (s : Text) : p.trimFrom s = (s.dropWhile p).rdropWhile p := rfl

/-- A trimmed text does not begin with a passing character. -/
theorem head?_trimFrom (p : CharTest) (s : Text) : ∀ c ∈ (p.trimFrom s).head?, p c = false := by
  intro c hc
  obtain ⟨t, ht⟩ := List.head?_eq_some_iff.mp hc
  -- It is a front part of the text without its passing characters in front.
  obtain ⟨u, hu⟩ : p.trimFrom s <+: s.dropWhile p := List.rdropWhile_prefix p _
  have hhead := List.head?_dropWhile_not p s
  rw [← hu, ht, List.cons_append, List.head?_cons] at hhead
  exact hhead

/-- A trimmed text does not end with a passing character. -/
theorem getLast?_trimFrom (p : CharTest) (s : Text) :
    ∀ c ∈ (p.trimFrom s).getLast?, p c = false := by
  intro c hc
  obtain ⟨hne, rfl⟩ := List.mem_getLast?_eq_getLast hc
  exact Bool.eq_false_iff.mpr (List.rdropWhile_last_not p _ hne)

theorem dropWhile_eq_self {s : Text} (h : ∀ c ∈ s.head?, p c = false) : s.dropWhile p = s := by
  cases s with
  | nil => rfl
  | cons c s => exact List.dropWhile_cons_of_neg (by simp [h c rfl])

/-- What is trimmed has nothing left to trim. -/
theorem trimFrom_trimFrom (p : CharTest) (s : Text) : p.trimFrom (p.trimFrom s) = p.trimFrom s := by
  rw [trimFrom_eq, dropWhile_eq_self (head?_trimFrom p s), trimFrom_eq, List.rdropWhile_idempotent]

end TextOps.CharTest
