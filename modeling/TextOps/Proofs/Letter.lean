import TextOps.Text

/-!
# `TextOps/Proofs/Letter.lean` — ASCII letters, and their two cases

The character classes of ASCII are intervals of code points, and to change the case of a letter is to
add or take away 32. So every fact about single characters here is arithmetic. One of them is used
wherever a text is respelled: of two changes of case the last one decides (`IsCasing.comp`).

Only ASCII letters have a case; every other character is left alone.
-/

set_option autoImplicit false

namespace TextOps.Letter

/-! ## Characters by code point -/

theorem isUpper_iff {c : Char} : c.isUpper = true ↔ 65 ≤ c.toNat ∧ c.toNat ≤ 90 :=
  decide_eq_true_iff.trans (and_congr UInt32.le_iff_toNat_le UInt32.le_iff_toNat_le)

theorem isLower_iff {c : Char} : c.isLower = true ↔ 97 ≤ c.toNat ∧ c.toNat ≤ 122 :=
  Bool.and_eq_true_iff.trans (and_congr (decide_eq_true_iff.trans UInt32.le_iff_toNat_le)
    (decide_eq_true_iff.trans UInt32.le_iff_toNat_le))

theorem isDigit_iff {c : Char} : c.isDigit = true ↔ 48 ≤ c.toNat ∧ c.toNat ≤ 57 :=
  Bool.and_eq_true_iff.trans (and_congr (decide_eq_true_iff.trans UInt32.le_iff_toNat_le)
    (decide_eq_true_iff.trans UInt32.le_iff_toNat_le))

theorem isAlpha_iff {c : Char} : c.isAlpha = true ↔ c.isUpper = true ∨ c.isLower = true :=
  Bool.or_eq_true_iff

theorem toNat_toLower (c : Char) :
    c.toLower.toNat = if 65 ≤ c.toNat ∧ c.toNat ≤ 90 then c.toNat + 32 else c.toNat := by
  unfold Char.toLower
  split
  · next h =>
    have hn : 65 ≤ c.toNat ∧ c.toNat ≤ 90 := isUpper_iff.mp (decide_eq_true h)
    rw [if_pos hn, Char.toNat_mk, UInt32.toNat_add, Char.toNat_val]
    show (c.toNat + 32) % 4294967296 = c.toNat + 32
    omega
  · next h => rw [if_neg fun hn => h (of_decide_eq_true (isUpper_iff.mpr hn))]

theorem toNat_toUpper (c : Char) :
    c.toUpper.toNat = if 97 ≤ c.toNat ∧ c.toNat ≤ 122 then c.toNat - 32 else c.toNat := by
  unfold Char.toUpper
  split
  · next h =>
    have hn : 97 ≤ c.toNat ∧ c.toNat ≤ 122 :=
      ⟨UInt32.le_iff_toNat_le.mp h.1, UInt32.le_iff_toNat_le.mp h.2⟩
    rw [if_pos hn, Char.toNat_mk, UInt32.toNat_add, Char.toNat_val]
    show (c.toNat + 4294967264) % 4294967296 = c.toNat - 32
    omega
  · next h =>
    rw [if_neg fun hn =>
      h ⟨UInt32.le_iff_toNat_le.mpr hn.1, UInt32.le_iff_toNat_le.mpr hn.2⟩]

theorem toLower_eq_self_iff {c : Char} : c.toLower = c ↔ c.isUpper = false := by
  rw [← Char.toNat_inj, toNat_toLower, Bool.eq_false_iff, Ne, isUpper_iff]
  split <;> omega

theorem toUpper_eq_self_iff {c : Char} : c.toUpper = c ↔ c.isLower = false := by
  rw [← Char.toNat_inj, toNat_toUpper, Bool.eq_false_iff, Ne, isLower_iff]
  split <;> omega

theorem isUpper_toUpper (c : Char) : c.toUpper.isUpper = c.isAlpha := by
  rw [Bool.eq_iff_iff, isAlpha_iff, isUpper_iff, isUpper_iff, isLower_iff, toNat_toUpper]
  split <;> omega

theorem isUpper_toLower (c : Char) : c.toLower.isUpper = false := by
  rw [Bool.eq_false_iff, Ne, isUpper_iff, toNat_toLower]
  split <;> omega

theorem toUpper_of_isUpper {c : Char} (h : c.isUpper = true) : c.toUpper = c := by
  rw [← Char.toNat_inj, toNat_toUpper]
  have := isUpper_iff.mp h
  split <;> omega

/-! ## Changes of case -/

/-- A change of case: all letters to lower case, or all to upper case. -/
def IsCasing (h : Char → Char) : Prop := h = Char.toLower ∨ h = Char.toUpper

/-- Of two changes of case the last one decides. -/
theorem IsCasing.comp {h k : Char → Char} (hh : IsCasing h) (hk : IsCasing k) (c : Char) :
    h (k c) = h c := by
  rw [← Char.toNat_inj]
  rcases hh with rfl | rfl <;> rcases hk with rfl | rfl <;>
    simp only [toNat_toLower, toNat_toUpper] <;> grind

/-- A change of case makes nothing a character that is no letter, and leaves that one alone. -/
theorem IsCasing.eq_iff {h : Char → Char} (hh : IsCasing h) {c p : Char} (hp : p.isAlpha = false) :
    h c = p ↔ c = p := by
  rw [Bool.eq_false_iff, Ne, isAlpha_iff, isUpper_iff, isLower_iff] at hp
  rw [← Char.toNat_inj, ← Char.toNat_inj]
  rcases hh with rfl | rfl
  · rw [toNat_toLower]
    split <;> omega
  · rw [toNat_toUpper]
    split <;> omega

theorem IsCasing.mem_map_iff {h : Char → Char} (hh : IsCasing h) {p : Char}
    (hp : p.isAlpha = false) {w : Text} : p ∈ w.map h ↔ p ∈ w := by
  simp [List.mem_map, hh.eq_iff hp]

theorem IsCasing.map_comp {h k : Char → Char} (hh : IsCasing h) (hk : IsCasing k) (w : Text) :
    (w.map k).map h = w.map h := by
  rw [List.map_map]
  exact List.map_congr_left fun c _ => hh.comp hk c

end TextOps.Letter
