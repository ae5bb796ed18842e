import TextOps.Proofs.Identifier.Respell
import TextOps.Proofs.Identifier.Split

/-!
# `TextOps/Proofs/Identifier/Skeleton.lean` — what no conversion touches

A conversion moves separators and changes the case of letters. What is left of a text when both are
taken away is its *skeleton*: the characters that are no separator of any format, in lower case. It
is the same before and after every conversion, so nothing is lost, written twice or put elsewhere.

The skeleton of texts one behind the other is that of each, one behind the other, and a separator has
none. So a spelled list of words has the skeletons of its words, in order (`skeleton_spell`), and so
has the text from which the words were cut (`skeleton_eq_flatMap_words`). That settles the general
conversion. The one shortcut that is less exchanges a separator for another, character by character.
-/

set_option autoImplicit false

namespace TextOps.CaseFormat

open Letter

/-- Whether a character stands between words in some format. -/
def isSeparator (c : Char) : Bool := c == '-' || c == '_'

/-- The characters of a text that are no separators, in lower case. -/
def skeleton (s : Text) : Text := lowerText (s.filter fun c => !isSeparator c)

@[simp] theorem skeleton_nil : skeleton [] = [] := rfl

@[simp] theorem skeleton_append (s t : Text) : skeleton (s ++ t) = skeleton s ++ skeleton t := by
  simp [skeleton, lowerText]

theorem skeleton_cons (c : Char) (s : Text) : skeleton (c :: s) = skeleton [c] ++ skeleton s :=
  skeleton_append [c] s

@[simp] theorem skeleton_flatten (ws : List Text) : skeleton ws.flatten = ws.flatMap skeleton := by
  induction ws with
  | nil => rfl
  | cons w ws ih => simp [ih]

@[simp] theorem skeleton_separator (f : CaseFormat) : skeleton f.separator = [] := by
  cases f <;> rfl

theorem isSeparator_of_separator {f : CaseFormat} {p : Char} (h : f.separator = [p]) :
    isSeparator p = true := by
  cases f <;> cases h <;> rfl

/-! ## Characters one by one -/

theorem skeleton_map {h : Char → Char} (hh : ∀ c, skeleton [h c] = skeleton [c]) (s : Text) :
    skeleton (s.map h) = skeleton s := by
  induction s with
  | nil => rfl
  | cons c s ih => rw [List.map_cons, skeleton_cons, hh, ih, ← skeleton_cons]

theorem isSeparator_casing {h : Char → Char} (hh : IsCasing h) (c : Char) :
    isSeparator (h c) = isSeparator c := by
  have heq : ∀ p : Char, p.isAlpha = false → (h c == p) = (c == p) := by
    intro p hp
    rw [Bool.eq_iff_iff]
    simp [hh.eq_iff hp]
  rw [isSeparator, isSeparator, heq '-' rfl, heq '_' rfl]

theorem skeleton_casing {h : Char → Char} (hh : IsCasing h) (c : Char) :
    skeleton [h c] = skeleton [c] := by
  have hlower : (h c).toLower = c.toLower := IsCasing.comp (Or.inl rfl) hh c
  simp only [skeleton, List.filter_cons, List.filter_nil, isSeparator_casing hh]
  split <;> simp [lowerText, hlower]

/-! ## Words and spellings -/

variable (f g : CaseFormat)

@[simp] theorem skeleton_spellWord (w : Text) : skeleton (f.spellWord w) = skeleton w := by
  cases w with
  | nil => rw [spellWord_nil]
  | cons c w =>
    rw [spellWord_cons, skeleton_cons, skeleton_casing f.isCasing_headCase,
      skeleton_map (skeleton_casing f.isCasing_letterCase), ← skeleton_cons]

@[simp] theorem skeleton_spellFirst (w : Text) : skeleton (f.spellFirst w) = skeleton w := by
  cases w with
  | nil => rw [spellFirst_nil]
  | cons c w =>
    rw [spellFirst_cons, skeleton_cons, skeleton_casing f.isCasing_firstCase,
      skeleton_map (skeleton_casing f.isCasing_letterCase), ← skeleton_cons]

theorem skeleton_intercalate {p : Text} (hp : skeleton p = []) (ws : List Text) :
    skeleton (p.intercalate ws) = ws.flatMap skeleton := by
  induction ws with
  | nil => simp
  | cons w ws ih =>
    cases ws with
    | nil => simp
    | cons v ws => rw [List.intercalate_cons_cons]; simp [hp, ih]

theorem skeleton_spell (ws : List Text) : skeleton (f.spell ws) = ws.flatMap skeleton := by
  rw [spell_eq_intercalate, skeleton_intercalate f.skeleton_separator]
  cases ws with
  | nil => rfl
  | cons w ws => simp [spelled, List.flatMap_map]

/-- The words of a text have its skeleton, whatever the text is. -/
theorem skeleton_eq_flatMap_words (s : Text) : skeleton s = (f.words s).flatMap skeleton := by
  rw [words_eq_pieces, pieces]
  rcases f.separator_cases with hf | ⟨p, hf⟩
  · rw [hf]
    dsimp only
    split
    · next hs => simp [hs]
    · rw [← skeleton_flatten, List.flatten_splitBy]
  · have hp : skeleton [p] = [] := hf ▸ f.skeleton_separator
    rw [hf]
    dsimp only
    rw [← skeleton_intercalate hp, List.intercalate_splitOn]

theorem skeleton_respell (s : Text) : skeleton (f.respell g s) = skeleton s := by
  rw [respell, skeleton_spell, ← skeleton_eq_flatMap_words]

/-! ## Conversions -/

theorem skeleton_exchange {p q : Char} (hp : isSeparator p = true) (hq : isSeparator q = true)
    (c : Char) : skeleton [if c == p then q else c] = skeleton [c] := by
  split
  · next hc => simp [skeleton, beq_iff_eq.mp hc, hp, hq]
  · rfl

/-- **A conversion keeps the content of a text**: the characters that are no separators, up to their
case, are the same before and after, in the same order. No condition is put on the text. -/
theorem skeleton_convert (s : Text) : skeleton (f.convert g s).value = skeleton s := by
  by_cases hfg : f = g
  · rw [hfg, convert_self, Edited.value]
  by_cases hlower : f.isLowerDelimited = true ∧ g.isLowerDelimited = true
  · -- Separators are exchanged, and letters are left alone.
    obtain ⟨hfl, hgl⟩ := hlower
    obtain ⟨p, hf⟩ := exists_separator_of_lower hfl
    obtain ⟨q, hg⟩ := exists_separator_of_lower hgl
    rw [value_convert_of_lower hfg hf hg hfl hgl]
    apply skeleton_map
    exact skeleton_exchange (isSeparator_of_separator hf) (isSeparator_of_separator hg)
  · rw [value_convert hfg fun hfl hgl => absurd ⟨hfl, hgl⟩ hlower]
    exact f.skeleton_respell g s

example : skeleton (lowerHyphen.convert upperCamel ['-', 'F', 'o', '_', '-', 'é', '-']).value =
    ['f', 'o', 'é'] := by decide

end TextOps.CaseFormat
