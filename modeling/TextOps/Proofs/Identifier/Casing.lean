import TextOps.Identifier.CaseFormat
import TextOps.Proofs.Letter

/-!
# `TextOps/Proofs/Identifier/Casing.lean` — how a word is spelled

All that a format does to a character is to put it into one of two cases, and of two changes of case
the last one decides (`Letter.IsCasing.comp`). A respelled word therefore does not remember how it
was spelled before (`spellWord_spellWord`), which is why conversions compose.
-/

set_option autoImplicit false

namespace TextOps

open Letter

namespace CaseFormat

/-! ## The case of each character of a word -/

/-- The case of the first character of the first word. -/
def firstCase : CaseFormat → Char → Char
  | lowerHyphen | lowerUnderscore | lowerCamel => Char.toLower
  | upperCamel | upperUnderscore => Char.toUpper

/-- The case of the first character of any other word. -/
def headCase : CaseFormat → Char → Char
  | lowerHyphen | lowerUnderscore => Char.toLower
  | lowerCamel | upperCamel | upperUnderscore => Char.toUpper

/-- The case of the characters inside a word. -/
def letterCase : CaseFormat → Char → Char
  | lowerHyphen | lowerUnderscore | lowerCamel | upperCamel => Char.toLower
  | upperUnderscore => Char.toUpper

theorem isCasing_firstCase (f : CaseFormat) : IsCasing f.firstCase := by
  cases f <;> first | exact Or.inl rfl | exact Or.inr rfl

theorem isCasing_headCase (f : CaseFormat) : IsCasing f.headCase := by
  cases f <;> first | exact Or.inl rfl | exact Or.inr rfl

theorem isCasing_letterCase (f : CaseFormat) : IsCasing f.letterCase := by
  cases f <;> first | exact Or.inl rfl | exact Or.inr rfl

@[simp] theorem spellWord_nil (f : CaseFormat) : f.spellWord [] = [] := by cases f <;> rfl

@[simp] theorem spellWord_cons (f : CaseFormat) (c : Char) (w : Text) :
    f.spellWord (c :: w) = f.headCase c :: w.map f.letterCase := by cases f <;> rfl

@[simp] theorem spellFirst_nil (f : CaseFormat) : f.spellFirst [] = [] := by cases f <;> rfl

@[simp] theorem spellFirst_cons (f : CaseFormat) (c : Char) (w : Text) :
    f.spellFirst (c :: w) = f.firstCase c :: w.map f.letterCase := by cases f <;> rfl

/-- A word is respelled whatever its spelling was. -/
theorem spellWord_spellWord (f g : CaseFormat) (w : Text) :
    g.spellWord (f.spellWord w) = g.spellWord w := by
  cases w with
  | nil => rw [spellWord_nil]
  | cons c w => rw [spellWord_cons, spellWord_cons, spellWord_cons,
      g.isCasing_headCase.comp f.isCasing_headCase,
      g.isCasing_letterCase.map_comp f.isCasing_letterCase]

theorem spellFirst_spellFirst (f g : CaseFormat) (w : Text) :
    g.spellFirst (f.spellFirst w) = g.spellFirst w := by
  cases w with
  | nil => rw [spellFirst_nil]
  | cons c w => rw [spellFirst_cons, spellFirst_cons, spellFirst_cons,
      g.isCasing_firstCase.comp f.isCasing_firstCase,
      g.isCasing_letterCase.map_comp f.isCasing_letterCase]

theorem mem_spellWord_iff {f : CaseFormat} {p : Char} (hp : p.isAlpha = false) {w : Text} :
    p ∈ f.spellWord w ↔ p ∈ w := by
  cases w with
  | nil => rw [spellWord_nil]
  | cons c w =>
    rw [spellWord_cons, List.mem_cons, List.mem_cons, f.isCasing_letterCase.mem_map_iff hp,
      eq_comm, f.isCasing_headCase.eq_iff hp, eq_comm]

theorem mem_spellFirst_iff {f : CaseFormat} {p : Char} (hp : p.isAlpha = false) {w : Text} :
    p ∈ f.spellFirst w ↔ p ∈ w := by
  cases w with
  | nil => rw [spellFirst_nil]
  | cons c w =>
    rw [spellFirst_cons, List.mem_cons, List.mem_cons, f.isCasing_letterCase.mem_map_iff hp,
      eq_comm, f.isCasing_firstCase.eq_iff hp, eq_comm]

/-! ## Delimited and camel formats -/

section Delimited

variable {f : CaseFormat} {p : Char}

theorem isAlpha_of_separator (h : f.separator = [p]) : p.isAlpha = false := by
  cases f <;> cases h <;> rfl

theorem headCase_of_separator (h : f.separator = [p]) : f.headCase = f.letterCase := by
  cases f <;> cases h <;> rfl

theorem firstCase_of_separator (h : f.separator = [p]) : f.firstCase = f.letterCase := by
  cases f <;> cases h <;> rfl

theorem spellWord_of_separator (h : f.separator = [p]) (w : Text) :
    f.spellWord w = w.map f.letterCase := by
  cases w with
  | nil => exact f.spellWord_nil
  | cons c w => rw [spellWord_cons, headCase_of_separator h, List.map_cons]

theorem spellFirst_of_separator (h : f.separator = [p]) (w : Text) :
    f.spellFirst w = w.map f.letterCase := by
  cases w with
  | nil => exact f.spellFirst_nil
  | cons c w => rw [spellFirst_cons, firstCase_of_separator h, List.map_cons]

theorem boundary_of_separator (h : f.separator = [p]) : f.boundary = .single p := by
  cases f <;> cases h <;> rfl

end Delimited

section Camel

variable {f : CaseFormat}

/-- A camel format marks the start of a word by upper case and has lower case inside. -/
theorem headCase_of_camel (h : f.separator = []) : f.headCase = Char.toUpper := by
  cases f <;> first | rfl | cases h

theorem letterCase_of_camel (h : f.separator = []) : f.letterCase = Char.toLower := by
  cases f <;> first | rfl | cases h

theorem boundary_of_camel (h : f.separator = []) : f.boundary = .range 'A' 'Z' := by
  cases f <;> first | rfl | cases h

end Camel

theorem separator_cases (f : CaseFormat) : f.separator = [] ∨ ∃ p, f.separator = [p] := by
  cases f <;> first | exact Or.inl rfl | exact Or.inr ⟨_, rfl⟩

end CaseFormat

end TextOps
