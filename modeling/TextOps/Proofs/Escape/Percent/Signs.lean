import TextOps.Escape.Url
import TextOps.Proofs.Escape.Percent.Configuration

/-!
# `TextOps/Proofs/Escape/Percent/Signs.lean` — the two signs that an escaper writes itself

Besides characters of its input an escaper writes percent signs, plus signs, and letters and digits
behind percent signs. Letters and digits are always safe; whether the two signs are is up to the
configuration, and something depends on it either way.

An escaper that is given its own output finds it safe if it takes the signs that it writes for safe,
and under no other condition (`escape_again_iff`). A reader who takes every plus sign for a space is
right if the escaper does not take plus signs for safe, and under no other condition either
(`plusMeansSpace_iff`): one that is listed is kept like any other character that is listed, and
nothing tells it from a space any more. The two conditions exclude each other wherever a plus sign is
written for a space.
-/

set_option autoImplicit false

namespace TextOps

namespace PercentEscaper

variable {safe : Text} {plus : Bool}

/-! ## Escaping what was escaped -/

theorem value_escape_eq_kept_iff {e : PercentEscaper} {s : Text} :
    (e.escape s).value = .kept s ↔ ∀ c ∈ s, e.isSafe c = true := by
  rw [value_escape, replacedAfter, List.nil_append]
  simp only [← replace_eq_none_iff, ← all_isNone_iff]
  split
  · next h => simp [h]
  · next h => simp [h]

/-- A percent sign is either kept or the first character of what stands for it. -/
theorem percent_mem_escape (e : PercentEscaper) : '%' ∈ (e.escape ['%']).value.value := by
  rw [value_value_escape, List.flatMap_singleton]
  rcases e.replace_cases '%' with ⟨-, hkept⟩ | ⟨hspace, -⟩ | ⟨-, hencoded⟩
  · rw [hkept]
    exact List.mem_singleton_self _
  · exact absurd hspace (by decide)
  · rw [hencoded]
    decide

theorem plus_mem_escape {e : PercentEscaper} (hspace : e.isSafe ' ' = false)
    (hplus : e.plusForSpace = true) : '+' ∈ (e.escape [' ']).value.value := by
  rw [value_value_escape, List.flatMap_singleton, replace_space hspace hplus]
  exact List.mem_singleton_self _

/-- **Escaping what was escaped** changes nothing, whatever the text, exactly if percent signs are
safe, and plus signs as well if they are written for spaces. -/
theorem escape_again_iff {e : PercentEscaper} (he : (make safe plus).value = .ok e) :
    (∀ s : Text, (e.escape (e.escape s).value.value).value = .kept (e.escape s).value.value) ↔
      '%' ∈ safe ∧ (plus = true → '+' ∈ safe) := by
  obtain ⟨-, hspace, rfl⟩ := make_eq_ok_iff.mp he
  simp only [value_escape_eq_kept_iff]
  constructor
  · intro hsafe
    constructor
    · exact (isSafe_iff_mem (by decide)).mp (hsafe _ _ (percent_mem_escape _))
    · rintro rfl
      have hspace : (ofSafe safe true).isSafe ' ' = false :=
        not_isSafe_of_not_mem (by decide) fun h => hspace ⟨rfl, h⟩
      exact (isSafe_iff_mem (by decide)).mp (hsafe _ _ (plus_mem_escape hspace rfl))
  · rintro ⟨hpercent, hplus⟩ s c hc
    rcases mem_escape hc with hc | hc | rfl | ⟨rfl, hwritten⟩
    · exact hc
    · exact isSafe_ofSafe.mpr (Or.inl hc)
    · exact isSafe_ofSafe.mpr (Or.inr hpercent)
    · exact isSafe_ofSafe.mpr (Or.inr (hplus hwritten))

/-- Both signs are safe, and a plus sign is written for a space. -/
theorem escape_again_iff_listed :
    (make ['%', '+'] true).value = .ok (ofSafe ['%', '+'] true) ∧
      ∀ s : Text, ((ofSafe ['%', '+'] true).escape
          ((ofSafe ['%', '+'] true).escape s).value.value).value =
        .kept ((ofSafe ['%', '+'] true).escape s).value.value := by
  have hmake : (make ['%', '+'] true).value = .ok (ofSafe ['%', '+'] true) := rfl
  exact ⟨hmake, (escape_again_iff hmake).mpr (by decide)⟩

end PercentEscaper

/-! ## Cutting what was written -/

theorem splitOn_append_of_not_mem {d : Char} {u : Text} (hu : d ∉ u) (t : Text) :
    (u ++ t).splitOn d = (t.splitOn d).modifyHead (u ++ ·) := by
  simp only [List.splitOn_eq_splitOnP]
  induction u with
  | nil =>
    rw [List.nil_append]
    cases t.splitOnP (· == d) <;> rfl
  | cons c u ih =>
    rw [List.mem_cons, not_or] at hu
    obtain ⟨hc, hu⟩ := hu
    have hcd : ¬ (c == d) = true := fun h => hc (eq_of_beq h).symm
    rw [List.cons_append, List.splitOnP_cons_eq_if_modifyHead, if_neg hcd, ih hu,
      List.modifyHead_modifyHead]
    rfl

/-- If a sign is written for one character and stands in nothing that is written for another, then to
cut at the sign is to cut at the character. -/
theorem splitOn_flatMap {write : Char → Text} {c d : Char} (hc : write c = [d])
    (hother : ∀ b, b ≠ c → d ∉ write b) (s : Text) :
    (s.flatMap write).splitOn d = (s.splitOn c).map (·.flatMap write) := by
  induction s with
  | nil => rfl
  | cons b s ih =>
    rw [List.flatMap_cons]
    by_cases hb : b = c
    · subst hb
      rw [hc]
      simp only [List.splitOn_eq_splitOnP] at ih ⊢
      simp [List.splitOnP_cons_eq_if_modifyHead, ih]
    · rw [splitOn_append_of_not_mem (hother b hb), ih]
      simp only [List.splitOn_eq_splitOnP]
      rw [List.splitOnP_cons_eq_if_modifyHead, if_neg (by simpa using hb)]
      cases s.splitOnP (· == c) with
      | nil => rfl
      | cons t ts => simp

/-! ## Plus signs for spaces -/

/-- In what is written for a text every plus sign is a space: cut at the plus signs, it is what is
written for the pieces between the spaces, one after the other. A plus sign of the text itself is a
triple. -/
structure PlusMeansSpace (write : Text → Text) : Prop where
  cut : ∀ s, (write s).splitOn '+' = (s.splitOn ' ').map write
  literal : ∀ s t, write (s ++ '+' :: t) = write s ++ "%2B".toList ++ write t

theorem PlusMeansSpace.of_flatMap {write : Char → Text} (hspace : write ' ' = ['+'])
    (hplus : write '+' = "%2B".toList) (hother : ∀ c, c ≠ ' ' → '+' ∉ write c) :
    PlusMeansSpace (·.flatMap write) where
  cut := splitOn_flatMap hspace hother
  literal s t := by simp [hplus]

namespace PercentEscaper

variable {safe : Text} {e : PercentEscaper}

theorem replace_plus (hplus : e.isSafe '+' = false) : e.replace '+' = some "%2B".toList := by
  rw [replace_of_not_isSafe hplus (by simp)]
  decide

/-- Nothing but a space is written with a plus sign. -/
theorem plus_not_mem_replace (hplus : e.isSafe '+' = false) {c : Char} (hc : c ≠ ' ') :
    '+' ∉ (e.replace c).getD [c] := by
  rcases e.replace_cases c with ⟨hsafe, hkept⟩ | ⟨hspace, -⟩ | ⟨-, hencoded⟩
  · rw [hkept, Option.getD_none, List.mem_singleton]
    rintro rfl
    exact Bool.false_ne_true (hplus.symm.trans hsafe)
  · exact absurd hspace hc
  · rw [hencoded, Option.getD_some]
    intro h
    rcases mem_encoded h with h | h
    · exact absurd h (by decide)
    · exact absurd h (by decide)

/-- **Plus signs for spaces.** An escaper that writes a plus sign for a space writes one for nothing
else exactly if plus signs are not listed as safe. -/
theorem plusMeansSpace_iff (he : (make safe true).value = .ok e) :
    (PlusMeansSpace fun s => (e.escape s).value.value) ↔ '+' ∉ safe := by
  obtain ⟨-, hspace, rfl⟩ := make_eq_ok_iff.mp he
  have hspace : (ofSafe safe true).isSafe ' ' = false :=
    not_isSafe_of_not_mem (by decide) fun h => hspace ⟨rfl, h⟩
  simp only [value_value_escape]
  constructor
  · intro h hplus
    -- A listed plus sign stands for itself.
    have hkept : (ofSafe safe true).replace '+' = none :=
      replace_of_isSafe (isSafe_ofSafe.mpr (Or.inr hplus))
    have hliteral := h.literal [] []
    simp [hkept] at hliteral
  · intro hplus
    have hplus : (ofSafe safe true).isSafe '+' = false := not_isSafe_of_not_mem (by decide) hplus
    apply PlusMeansSpace.of_flatMap
    · rw [replace_space hspace rfl, Option.getD_some]
    · rw [replace_plus hplus, Option.getD_some]
    · exact fun c hc => plus_not_mem_replace hplus hc

/-- The safe characters of forms do not include the plus sign. -/
theorem plusMeansSpace_iff_form :
    (make Url.formSafe true).value = .ok (ofSafe Url.formSafe true) ∧
      PlusMeansSpace fun s => ((ofSafe Url.formSafe true).escape s).value.value := by
  have hmake : (make Url.formSafe true).value = .ok (ofSafe Url.formSafe true) := rfl
  exact ⟨hmake, (plusMeansSpace_iff hmake).mpr (by decide)⟩

/-- A configuration that lists the plus sign is accepted, and then a plus sign and a space look
alike. -/
theorem listed_plus_is_kept :
    (make ['+'] true).value = .ok (ofSafe ['+'] true) ∧
      ((ofSafe ['+'] true).escape ['+', ' ']).value.value = ['+', '+'] ∧
      ¬ PlusMeansSpace fun s => ((ofSafe ['+'] true).escape s).value.value := by
  refine ⟨rfl, by decide +kernel, ?_⟩
  intro h
  exact absurd (h.literal [] []) (by decide +kernel)

end PercentEscaper

end TextOps
