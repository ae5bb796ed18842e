import Mathlib.Logic.Function.Basic

/-!
# `TextOps/Proofs/SelfDelimiting.lean` — writings that show where they end

A way of writing is self-delimiting if what is written can be told from its beginning, whatever
follows it. Then a row of writings is the writing of one row of things only
(`SelfDelimiting.flatMap_injective`), with no sign between them.

The usual ways to get there are a fixed length (`selfDelimiting_of_length`) and a mark at the end that
does not occur before it (`selfDelimiting_closed`).
-/

set_option autoImplicit false

namespace TextOps

variable {α β γ : Type}

/-- Nothing is written with no symbols, and two things that are written at the beginning of one row of
symbols are the same. -/
structure SelfDelimiting (write : α → List β) : Prop where
  ne_nil : ∀ a, write a ≠ []
  eq_of_append_eq : ∀ {a b : α} {rest rest' : List β},
    write a ++ rest = write b ++ rest' → a = b

namespace SelfDelimiting

variable {write : α → List β}

/-- **Rows that are written alike are the same row.** -/
theorem flatMap_injective (h : SelfDelimiting write) :
    Function.Injective fun as : List α => as.flatMap write := by
  intro as
  induction as with
  | nil =>
    intro bs heq
    cases bs with
    | nil => rfl
    | cons b bs => exact absurd (List.append_eq_nil_iff.mp heq.symm).1 (h.ne_nil b)
  | cons a as ih =>
    intro bs heq
    cases bs with
    | nil => exact absurd (List.append_eq_nil_iff.mp heq).1 (h.ne_nil a)
    | cons b bs =>
      simp only [List.flatMap_cons] at heq
      obtain rfl := h.eq_of_append_eq heq
      rw [ih (List.append_cancel_left heq)]

/-- What can be told after the symbols have been translated can be told before. -/
theorem of_map (translate : β → γ) (h : SelfDelimiting fun a => (write a).map translate) :
    SelfDelimiting write where
  ne_nil a heq := h.ne_nil a (congrArg (List.map translate) heq)
  eq_of_append_eq heq := by
    apply h.eq_of_append_eq
    rw [← List.map_append, heq, List.map_append]

/-- Some things may as well stand for themselves, if nothing else is written so as to begin like one of
them. -/
theorem kept {write : α → List α} (h : SelfDelimiting write) (stays : α → Bool)
    (hhead : ∀ a b, stays a = true → stays b = false → (write b).head? ≠ some a) :
    SelfDelimiting fun a => if stays a then [a] else write a where
  ne_nil a := by
    split
    · exact List.cons_ne_nil _ _
    · exact h.ne_nil a
  eq_of_append_eq {a b rest rest'} heq := by
    have hmixed : ∀ {a b : α} {rest rest' : List α}, stays a = true → stays b = false →
        [a] ++ rest ≠ write b ++ rest' := by
      intro a b rest rest' ha hb heq
      obtain ⟨x, xs, hx⟩ := List.exists_cons_of_ne_nil (h.ne_nil b)
      rw [hx] at heq
      apply hhead a b ha hb
      rw [hx, List.head?_cons, List.head_eq_of_cons_eq heq]
    cases ha : stays a with
    | true =>
      cases hb : stays b with
      | true =>
        simp only [ha, hb, if_true] at heq
        exact List.head_eq_of_cons_eq heq
      | false =>
        simp only [ha, hb, if_true, Bool.false_eq_true, if_false] at heq
        exact absurd heq (hmixed ha hb)
    | false =>
      cases hb : stays b with
      | true =>
        simp only [ha, hb, if_true, Bool.false_eq_true, if_false] at heq
        exact absurd heq.symm (hmixed hb ha)
      | false =>
        simp only [ha, hb, Bool.false_eq_true, if_false] at heq
        exact h.eq_of_append_eq heq

end SelfDelimiting

/-- Writings of one length are delimited by it. -/
theorem selfDelimiting_of_length {write : α → List β} {n : Nat} (hn : 0 < n)
    (hlength : ∀ a, (write a).length = n) (hwrite : Function.Injective write) :
    SelfDelimiting write where
  ne_nil a := by
    apply List.ne_nil_of_length_pos
    rw [hlength]
    exact hn
  eq_of_append_eq {a b _ _} heq :=
    hwrite (List.append_inj_left heq ((hlength a).trans (hlength b).symm))

/-- Two rows up to the first mark are the same if they are the same with the mark and what follows. -/
theorem eq_of_append_cons_eq {mark : β} {as bs rest rest' : List β} (has : mark ∉ as)
    (hbs : mark ∉ bs) (h : as ++ mark :: rest = bs ++ mark :: rest') : as = bs := by
  induction as generalizing bs with
  | nil =>
    cases bs with
    | nil => rfl
    | cons b bs => exact absurd (List.head_eq_of_cons_eq h ▸ List.mem_cons_self) hbs
  | cons a as ih =>
    cases bs with
    | nil => exact absurd (List.head_eq_of_cons_eq h ▸ List.mem_cons_self) has
    | cons b bs =>
      obtain ⟨rfl, htail⟩ := List.cons.inj h
      rw [ih (List.not_mem_of_not_mem_cons has) (List.not_mem_of_not_mem_cons hbs) htail]

/-- **A mark at the end** delimits what is written before it, if it does not occur there. -/
theorem selfDelimiting_closed {front : List β} {key : α → List β} {mark : β}
    (hkey : Function.Injective key) (hmark : ∀ a, mark ∉ key a) :
    SelfDelimiting fun a => front ++ key a ++ [mark] where
  ne_nil a h := absurd (List.append_eq_nil_iff.mp h).2 (List.cons_ne_nil _ _)
  eq_of_append_eq {a b rest rest'} h := by
    simp only [List.append_assoc, List.append_cancel_left_eq, List.singleton_append] at h
    exact hkey (eq_of_append_cons_eq (hmark a) (hmark b) h)

end TextOps
