import TextOps.Proofs.Identifier.Respell

/-!
# `TextOps/Proofs/Identifier/Kept.lean` — when a conversion hands its text back

`Edited` says whether a text was handed back, and that is not the same as being unchanged: a general
conversion builds a new text whatever comes out. Between six pairs of formats it *is* the same
(`sparing`). What is done there is either a map on characters, which first looks for a character that
it would change (`faithful_of_map`), or a change of the first character alone. The three maps look in
different ways: for the separator, for a lower-case letter, and for an upper-case letter. In each case
those are exactly the characters that change.
-/

set_option autoImplicit false

namespace TextOps

/-- A result says truly whether it is new: the input is handed back exactly if nothing has changed. -/
def Edited.Faithful {α : Type} (input : α) (r : Edited α) : Prop := r.isKept = true ↔ r.value = input

namespace CaseFormat

open Letter

variable {f g : CaseFormat}

/-! ## Maps on characters -/

/-- An edit that is a map on characters is faithful if it looks for the characters that change. -/
theorem faithful_of_map {h : Char → Char} {s : Text} {r : Edited Text} (hvalue : r.value = s.map h)
    (hkept : r.isKept = true ↔ ∀ c ∈ s, h c = c) : r.Faithful s := by
  rw [Edited.Faithful, hvalue, map_eq_self_iff]
  exact hkept

theorem isKept_replaceFromChar_single (p q : Char) (s : Text) :
    ((CharClass.single p : CharClass Empty).replaceFromChar s q).isKept = true ↔ p ∉ s := by
  rw [CharClass.replaceFromChar, CharClass.replaceFrom]
  split
  · next hp => exact iff_of_false Bool.false_ne_true (fun h => h (List.contains_iff_mem.mp hp))
  · next hp => exact iff_of_true rfl (fun h => hp (List.contains_iff_mem.mpr h))

theorem faithful_replaceFromChar_single {p q : Char} (hpq : q ≠ p) (s : Text) :
    ((CharClass.single p : CharClass Empty).replaceFromChar s q).Faithful s := by
  apply faithful_of_map (value_replaceFromChar_single p q s)
  rw [isKept_replaceFromChar_single]
  constructor
  · intro hp c hc
    apply if_neg
    intro heq
    rw [beq_iff_eq.mp heq] at hc
    exact hp hc
  · intro h hp
    have hsame := h p hp
    rw [if_pos (beq_self_eq_true p)] at hsame
    exact hpq hsame

/-- To build a text only if it has some character that passes a test. -/
theorem isKept_ite_any (test : Char → Bool) (s t : Text) :
    (if s.any test then .built t else .kept s : Edited Text).isKept = true ↔
      ∀ c ∈ s, test c = false := by
  split
  · next h => simpa [Edited.isKept] using h
  · next h => simpa [Edited.isKept] using h

theorem faithful_raiseCase (s : Text) : (raiseCase s).Faithful s := by
  apply faithful_of_map (value_raiseCase s)
  rw [raiseCase, isKept_ite_any]
  simp only [toUpper_eq_self_iff]

theorem faithful_lowerCase (s : Text) : (lowerCase s).Faithful s := by
  apply faithful_of_map (value_lowerCase s)
  rw [lowerCase, isKept_ite_any]
  simp only [toLower_eq_self_iff]

/-! ## The first character -/

theorem faithful_changeFirst (change : Char → Char) (c : Char) (s : Text) :
    (changeFirst change (c :: s)).Faithful (c :: s) := by
  rw [changeFirst]
  split
  · exact iff_of_true rfl rfl
  · next hc =>
    apply iff_of_false Bool.false_ne_true
    intro heq
    exact hc (List.cons.inj heq).1

/-! ## Conversions -/

/-- The conversions that look for something to do before they build a text. -/
def sparing : List (CaseFormat × CaseFormat) :=
  [(lowerHyphen, lowerUnderscore), (lowerUnderscore, lowerHyphen),
    (lowerUnderscore, upperUnderscore), (upperUnderscore, lowerUnderscore),
    (lowerCamel, upperCamel), (upperCamel, lowerCamel)]

theorem convert_nil (f g : CaseFormat) : f.convert g [] = .kept [] := by cases f <;> cases g <;> rfl

theorem faithful_convert (h : (f, g) ∈ sparing) (s : Text) : (f.convert g s).Faithful s := by
  cases s with
  | nil =>
    rw [convert_nil]
    exact iff_of_true rfl rfl
  | cons c s =>
    cases f <;> cases g
    case lowerHyphen.lowerUnderscore =>
      exact faithful_replaceFromChar_single (p := '-') (q := '_') (by decide) (c :: s)
    case lowerUnderscore.lowerHyphen =>
      exact faithful_replaceFromChar_single (p := '_') (q := '-') (by decide) (c :: s)
    case lowerUnderscore.upperUnderscore => exact faithful_raiseCase (c :: s)
    case upperUnderscore.lowerUnderscore => exact faithful_lowerCase (c :: s)
    case lowerCamel.upperCamel => exact faithful_changeFirst Char.toUpper c s
    case upperCamel.lowerCamel => exact faithful_changeFirst Char.toLower c s
    all_goals exact absurd h (by decide)

/-- Every other conversion between two formats builds its text. -/
theorem isKept_convert_of_not_sparing (hfg : f ≠ g) (h : (f, g) ∉ sparing) {s : Text}
    (hs : s ≠ []) : (f.convert g s).isKept = false := by
  cases s with
  | nil => exact absurd rfl hs
  | cons c s =>
    cases f <;> cases g
    all_goals first
      | exact absurd rfl hfg
      | exact absurd (by decide) h
      | rfl

/-- **When a conversion hands its text back**: within one format, for the empty text, and otherwise
exactly where one of six conversions leaves the text as it is. What is handed back is the text, and
what one of the six builds is not. -/
theorem isKept_convert_iff (f g : CaseFormat) (s : Text) :
    ((f.convert g s).isKept = true ↔
      f = g ∨ s = [] ∨ ((f, g) ∈ sparing ∧ (f.convert g s).value = s)) ∧
    ((f.convert g s).isKept = true → (f.convert g s).value = s) ∧
    ((f, g) ∈ sparing → (f.convert g s).isKept = false → (f.convert g s).value ≠ s) := by
  have hiff : (f.convert g s).isKept = true ↔
      f = g ∨ s = [] ∨ ((f, g) ∈ sparing ∧ (f.convert g s).value = s) := by
    constructor
    · intro hkept
      by_cases hfg : f = g
      · exact Or.inl hfg
      by_cases hs : s = []
      · exact Or.inr (Or.inl hs)
      by_cases hmem : (f, g) ∈ sparing
      · exact Or.inr (Or.inr ⟨hmem, (faithful_convert hmem s).mp hkept⟩)
      · rw [isKept_convert_of_not_sparing hfg hmem hs] at hkept
        exact absurd hkept Bool.false_ne_true
    · rintro (rfl | rfl | ⟨hmem, hvalue⟩)
      · rw [convert_self, Edited.isKept]
      · rw [convert_nil, Edited.isKept]
      · exact (faithful_convert hmem s).mpr hvalue
  refine ⟨hiff, ?_, ?_⟩
  · intro hkept
    rcases hiff.mp hkept with rfl | rfl | ⟨-, hvalue⟩
    · rw [convert_self, Edited.value]
    · rw [convert_nil, Edited.value]
    · exact hvalue
  · intro hmem hbuilt hvalue
    rw [(faithful_convert hmem s).mpr hvalue] at hbuilt
    exact Bool.noConfusion hbuilt

/-- A letter that is not ASCII does not count; the one behind it does. -/
theorem isKept_convert_accents :
    (lowerUnderscore.convert upperUnderscore ['é', '_', 'A']).isKept = true ∧
      (lowerUnderscore.convert upperUnderscore ['é', '_', 'A']).value = ['é', '_', 'A'] ∧
      (lowerUnderscore.convert upperUnderscore ['é', '_', 'a']).isKept = false ∧
      (lowerUnderscore.convert upperUnderscore ['é', '_', 'a']).value ≠ ['é', '_', 'a'] := by
  have hmem : (lowerUnderscore, upperUnderscore) ∈ sparing := by decide
  have hkept : (lowerUnderscore.convert upperUnderscore ['é', '_', 'A']).isKept = true := by decide
  have hbuilt : (lowerUnderscore.convert upperUnderscore ['é', '_', 'a']).isKept = false := by decide
  exact ⟨hkept, (isKept_convert_iff _ _ _).2.1 hkept, hbuilt,
    (isKept_convert_iff _ _ _).2.2 hmem hbuilt⟩

end CaseFormat

end TextOps
