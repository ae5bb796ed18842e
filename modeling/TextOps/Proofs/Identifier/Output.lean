import TextOps.Proofs.Identifier.RoundTrip
import TextOps.Proofs.Identifier.Skeleton

/-!
# `TextOps/Proofs/Identifier/Output.lean` — what a conversion writes, whatever it reads

A text need not follow its format, and what becomes of it then is best effort. Two things hold all
the same. The letters that are written have the case of the target, because they are written word by
word; only the exchange of two separators leaves them as they come. And no character is lost or added
but separators: a spelling is as long as its words and the separators between them (`length_spell`), the
words are as long as the text they are read from, without its separators, and there are as many words
as the separators or the upper-case letters of the text ask for (`exists_words_of_separator`,
`exists_words_of_camel`).
-/

set_option autoImplicit false

namespace TextOps.CaseFormat

open Letter

variable {f g : CaseFormat} {p : Char}

/-! ## Case -/

/-- The letters of a delimited target are in its case, wherever they come from, unless only the
separator is exchanged. -/
theorem letterCase_of_mem_convert (hfg : f ≠ g) (hg : g.separator = [p])
    (hlower : f.isLowerDelimited = true → ¬ g.isLowerDelimited = true) (s : Text) :
    ∀ c ∈ (f.convert g s).value, g.letterCase c = c := by
  intro c hc
  rw [value_convert hfg fun hf h => absurd h (hlower hf)] at hc
  exact letterCase_of_mem_spell hg _ c hc

/-- The words of `upperCamel` are all spelled alike and nothing stands between them. -/
theorem spell_upperCamel (ws : List Text) :
    upperCamel.spell ws = ws.flatMap upperCamel.spellWord := by
  cases ws with
  | nil => rfl
  | cons w ws => rfl

/-- The first character that is written begins a word, even if there are empty words before it. -/
theorem isLower_head?_spell_upperCamel (ws : List Text) :
    ∀ c, (upperCamel.spell ws).head? = some c → c.isLower = false := by
  rw [spell_upperCamel]
  induction ws with
  | nil =>
    intro c hc
    cases hc
  | cons w ws ih =>
    intro c hc
    cases w with
    | nil => exact ih c hc
    | cons d w =>
      obtain rfl : d.toUpper = c := Option.some.inj hc
      exact toUpper_eq_self_iff.mp (IsCasing.comp (Or.inr rfl) (Or.inr rfl) d)

/-! ## Length -/

@[simp] theorem length_spellWord (f : CaseFormat) (w : Text) : (f.spellWord w).length = w.length := by
  cases w <;> simp

@[simp] theorem length_spellFirst (f : CaseFormat) (w : Text) :
    (f.spellFirst w).length = w.length := by
  cases w <;> simp

/-- A spelling is as long as its words and the separators between them. -/
theorem length_spell (f : CaseFormat) (w : Text) (ws : List Text) :
    (f.spell (w :: ws)).length = (w :: ws).flatten.length + ws.length * f.separator.length := by
  have hothers : (ws.flatMap fun v => f.separator ++ f.spellWord v).length =
      ws.flatten.length + ws.length * f.separator.length := by
    induction ws with
    | nil => simp
    | cons v ws ih =>
      rw [List.flatMap_cons, List.length_append, ih, List.length_append, length_spellWord,
        List.flatten_cons, List.length_append, List.length_cons, Nat.succ_mul]
      omega
  rw [spell, List.length_append, length_spellFirst, hothers, List.flatten_cons, List.length_append,
    Nat.add_assoc]

/-- What is dropped between the pieces of a text is what it is cut at. -/
theorem length_cutAt_of_drop (test : Char → Bool) (s : Text) :
    (cutAt test false s).first.length + (cutAt test false s).others.flatten.length +
      s.countP test = s.length := by
  induction s with
  | nil => rfl
  | cons c s ih =>
    rw [List.length_cons, List.countP_cons]
    cases hc : test c with
    | false =>
      rw [cutAt_cons_of_not hc, if_neg Bool.false_ne_true]
      dsimp only [List.length_cons]
      omega
    | true =>
      rw [cutAt_cons_of_drop hc, List.flatten_cons, List.length_append, if_pos rfl]
      dsimp only [List.length_nil]
      omega

/-- The words of a delimited text are as long as the text without its separators, of which there is
one less than there are words. -/
theorem exists_words_of_separator (hf : f.separator = [p]) (s : Text) :
    ∃ w ws, f.words s = w :: ws ∧ ws.length = s.count p ∧
      (w :: ws).flatten.length + s.count p = s.length := by
  refine ⟨_, _, words_of_separator hf s, length_others_cutAt s, ?_⟩
  rw [List.flatten_cons, List.length_append]
  exact length_cutAt_of_drop _ s

/-- The words of a camel text are as long as the text, and there is one more than there are upper-case
letters behind the first character. -/
theorem exists_words_of_camel (hf : f.separator = []) (s : Text) :
    ∃ w ws, f.words s = w :: ws ∧ ws.length = s.tail.countP Char.isUpper ∧
      (w :: ws).flatten.length = s.length := by
  cases s with
  | nil => exact ⟨[], [], f.words_nil, rfl, rfl⟩
  | cons c s =>
    refine ⟨_, _, words_cons_of_camel hf c s, length_others_cutAt s, ?_⟩
    rw [List.flatten_cons, List.cons_append, flatten_cutAt_of_keep]

theorem length_respell_of_separator (hf : f.separator = [p]) (hg : g.separator = []) (s : Text) :
    (f.respell g s).length + s.count p = s.length := by
  obtain ⟨w, ws, hwords, -, hlength⟩ := exists_words_of_separator hf s
  rw [respell, hwords, length_spell, hg]
  exact hlength

theorem length_respell_of_camel (hf : f.separator = []) (hg : g.separator = [p]) (s : Text) :
    (f.respell g s).length = s.length + s.tail.countP Char.isUpper := by
  obtain ⟨w, ws, hwords, hcount, hlength⟩ := exists_words_of_camel hf s
  rw [respell, hwords, length_spell, hg, hlength, hcount, List.length_singleton, Nat.mul_one]

/-! ## Conversions -/

/-- **What a conversion writes**, of any text and between any two formats. There are no lower-case
letters in `upperUnderscore`, no upper-case letters in the other delimited formats unless the text
comes from one of those two, and none at the beginning in `upperCamel` that are lower case. Into a
camel format the separators of a delimited text are left out and nothing else is; the other way a
separator is put in for each upper-case letter that is not the first character. -/
theorem convert_output (hfg : f ≠ g) (s : Text) :
    (g = upperUnderscore → ∀ c ∈ (f.convert g s).value, c.isLower = false) ∧
    (g.isLowerDelimited = true → f.isLowerDelimited = false →
      ∀ c ∈ (f.convert g s).value, c.isUpper = false) ∧
    (g = upperCamel → ∀ c, (f.convert g s).value.head? = some c → c.isLower = false) ∧
    (∀ p, f.separator = [p] → g.separator = [] →
      p ∉ (f.convert g s).value ∧ (f.convert g s).value.length + s.count p = s.length) ∧
    (∀ p, f.separator = [] → g.separator = [p] →
      (f.convert g s).value.length = s.length + s.tail.countP Char.isUpper) := by
  refine ⟨?upper, ?lower, ?title, ?joined, ?separated⟩
  case upper =>
    rintro rfl c hc
    have hcase := letterCase_of_mem_convert hfg rfl (fun _ => Bool.false_ne_true) s c hc
    exact toUpper_eq_self_iff.mp hcase
  case lower =>
    intro hg hf c hc
    have hnot : ¬ f.isLowerDelimited = true := Bool.eq_false_iff.mp hf
    obtain ⟨p, hp⟩ := exists_separator_of_lower hg
    have hcase := letterCase_of_mem_convert hfg hp (fun h => absurd h hnot) s c hc
    rw [letterCase_of_lower hg] at hcase
    exact toLower_eq_self_iff.mp hcase
  case title =>
    rintro rfl c hc
    rw [value_convert hfg fun _ h => absurd h Bool.false_ne_true] at hc
    exact isLower_head?_spell_upperCamel _ c hc
  case joined =>
    intro p hf hg
    rw [(value_convert_camel hf hg s).1]
    exact ⟨not_mem_respell hf hg s, length_respell_of_separator hf hg s⟩
  case separated =>
    intro p hf hg
    rw [(value_convert_camel hg hf s).2]
    exact length_respell_of_camel hf hg s

/-- Empty words and letters in the wrong case are no obstacle. -/
theorem convert_output_malformed :
    lowerUnderscore ≠ upperCamel ∧
      (lowerUnderscore.convert upperCamel ['_', '_', 'f', 'O', 'É', '_', '1', '_']).value.length + 4 =
        8 ∧
      '_' ∉ (lowerUnderscore.convert upperCamel ['_', '_', 'f', 'O', 'É', '_', '1', '_']).value ∧
      upperCamel ≠ upperUnderscore ∧
      (upperCamel.convert upperUnderscore ['H', 'T', 'é', '_', 'P']).value.length = 5 + 2 := by
  have hjoin : lowerUnderscore ≠ upperCamel := by decide
  have hsplit : upperCamel ≠ upperUnderscore := by decide
  obtain ⟨-, -, -, hjoined, -⟩ :=
    convert_output hjoin ['_', '_', 'f', 'O', 'É', '_', '1', '_']
  obtain ⟨-, -, -, -, hseparated⟩ := convert_output hsplit ['H', 'T', 'é', '_', 'P']
  obtain ⟨hmem, hlength⟩ := hjoined '_' rfl rfl
  exact ⟨hjoin, hlength, hmem, hsplit, hseparated '_' rfl rfl⟩

end TextOps.CaseFormat
