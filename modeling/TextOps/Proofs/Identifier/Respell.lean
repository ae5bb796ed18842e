import TextOps.Identifier.Converter
import TextOps.Proofs.Identifier.Pieces

/-!
# `TextOps/Proofs/Identifier/Respell.lean` — conversion is respelling

What a format spells it also reads back: the words of a spelled list are those words in the case of
the format (`words_spell_of_separator`, `words_spell_of_camel`). And to spell words it does not
matter in which case they come (`spell_spelled`). Any two conversions in a row are settled by these
two facts.

The shortcuts of `convert` are seen to be respellings by computing both sides: between delimited
formats a respelling is a map on characters, and between camel formats it changes the first
character at most (`respell_of_separators`, `respell_of_camels`). Only the exchange of two
separators between the lower-case formats is less than a respelling: it leaves letters alone.
-/

set_option autoImplicit false

namespace TextOps.CaseFormat

open Letter

variable {f g : CaseFormat} {p q : Char}

theorem map_eq_self_iff {h : Char → Char} {s : Text} : s.map h = s ↔ ∀ c ∈ s, h c = c := by
  constructor
  · intro hs
    have hid : s.map h = s.map id := hs.trans s.map_id.symm
    exact List.map_inj_left.mp hid
  · intro hs
    exact (List.map_congr_left hs).trans s.map_id

/-! ## Reading back what was spelled -/

/-- The words in the case of a format, not yet put together. -/
def spelled (f : CaseFormat) : List Text → List Text
  | [] => []
  | w :: ws => f.spellFirst w :: ws.map f.spellWord

/-- A spelling is the words in the case of the format, joined by its separator. -/
theorem spell_eq_intercalate (f : CaseFormat) (ws : List Text) :
    f.spell ws = f.separator.intercalate (f.spelled ws) := by
  cases ws with
  | nil => rfl
  | cons w ws =>
    rw [spell, spelled]
    generalize f.spellFirst w = first
    induction ws generalizing first with
    | nil => rw [List.flatMap_nil, List.map_nil, List.append_nil, List.intercalate_singleton]
    | cons v ws ih =>
      rw [List.flatMap_cons, List.append_assoc, ih (f.spellWord v), List.map_cons,
        List.intercalate_cons_cons, List.append_assoc]

/-- Words are spelled the same in whatever case they come. -/
theorem spell_spelled (f g : CaseFormat) (ws : List Text) : g.spell (f.spelled ws) = g.spell ws := by
  cases ws with
  | nil => rfl
  | cons w ws =>
    rw [spelled, spell, spell, spellFirst_spellFirst, List.flatMap_map]
    simp only [spellWord_spellWord]

theorem length_spelled (f : CaseFormat) (ws : List Text) : (f.spelled ws).length = ws.length := by
  cases ws with
  | nil => rfl
  | cons w ws => rw [spelled, List.length_cons, List.length_map, List.length_cons]

theorem forall_map_letterCase_ne (hp : p.isAlpha = false) {w : Text} (h : p ∉ w) :
    ∀ c ∈ w.map f.letterCase, (c == p) = false := by
  intro c hc
  refine beq_eq_false_iff_ne.mpr ?_
  rintro rfl
  exact h ((f.isCasing_letterCase.mem_map_iff hp).mp hc)

/-- **A delimited format reads back what it spells**, if no word has its separator. -/
theorem words_spell_of_separator (hf : f.separator = [p]) {w : Text} {ws : List Text}
    (h : ∀ v ∈ w :: ws, p ∉ v) : f.words (f.spell (w :: ws)) = f.spelled (w :: ws) := by
  have hp := isAlpha_of_separator hf
  have hfirst := forall_map_letterCase_ne (f := f) hp (h w List.mem_cons_self)
  have hothers : ∀ v ∈ ws.map f.spellWord, ∀ c ∈ v, (c == p) = false := by
    intro v hv
    obtain ⟨u, hu, rfl⟩ := List.mem_map.mp hv
    rw [spellWord_of_separator hf]
    exact forall_map_letterCase_ne hp (h u (List.mem_cons_of_mem _ hu))
  have hspell : f.spell (w :: ws) =
      w.map f.letterCase ++ (ws.map f.spellWord).flatMap fun v => p :: v := by
    rw [spell, spellFirst_of_separator hf, hf, List.flatMap_map]
    rfl
  rw [words_of_separator hf, hspell, cutAt_append hfirst,
    cutAt_flatMap_of_drop hothers (beq_self_eq_true p), List.append_nil, spelled,
    spellFirst_of_separator hf]

/-- Whether a word begins with an ASCII letter. -/
def startsWithLetter (w : Text) : Bool := w.head?.any Char.isAlpha

theorem isUpper_map_letterCase_of_camel (hf : f.separator = []) (w : Text) :
    ∀ c ∈ w.map f.letterCase, c.isUpper = false := by
  intro c hc
  obtain ⟨d, -, rfl⟩ := List.mem_map.mp hc
  rw [letterCase_of_camel hf]
  exact isUpper_toLower d

/-- **A camel format reads back what it spells**, if the first word is not empty and every other one
begins with a letter. -/
theorem words_spell_of_camel (hf : f.separator = []) {c : Char} {w : Text} {ws : List Text}
    (h : ∀ v ∈ ws, startsWithLetter v = true) :
    f.words (f.spell ((c :: w) :: ws)) = f.spelled ((c :: w) :: ws) := by
  have hfirst := isUpper_map_letterCase_of_camel hf w
  have hothers : ∀ v ∈ ws.map f.spellWord,
      ∃ d u, v = d :: u ∧ d.isUpper = true ∧ ∀ e ∈ u, e.isUpper = false := by
    intro v hv
    obtain ⟨u, hu, rfl⟩ := List.mem_map.mp hv
    cases u with
    | nil => exact absurd (h [] hu) Bool.false_ne_true
    | cons d u =>
      refine ⟨d.toUpper, u.map f.letterCase, ?_, ?_, isUpper_map_letterCase_of_camel hf u⟩
      · rw [spellWord_cons, headCase_of_camel hf]
      · rw [isUpper_toUpper]
        exact h _ hu
  have hspell : f.spell ((c :: w) :: ws) =
      f.firstCase c :: (w.map f.letterCase ++ (ws.map f.spellWord).flatten) := by
    rw [spell, spellFirst_cons, hf, List.flatMap_def]
    rfl
  rw [hspell, words_cons_of_camel hf, cutAt_append hfirst, cutAt_flatten_of_keep hothers,
    List.append_nil, spelled, spellFirst_cons]

/-! ## Respelling within a family of formats -/

/-- **Between delimited formats** a respelling is a map on characters. -/
theorem respell_of_separators (hf : f.separator = [p]) (hg : g.separator = [q]) (s : Text) :
    f.respell g s = s.map fun c => if c == p then q else g.letterCase c := by
  rw [respell, words_of_separator hf, spell, spellFirst_of_separator hg, hg,
    ← flatMap_cutAt_of_drop]
  simp only [spellWord_of_separator hg, List.singleton_append]

/-- The pieces of a text at its upper-case letters are its words in title case, up to the first. -/
theorem flatMap_cutAt_isUpper (hg : g.separator = []) (s : Text) :
    (cutAt Char.isUpper true s).first.map Char.toLower ++
      (cutAt Char.isUpper true s).others.flatMap g.spellWord = s := by
  induction s with
  | nil => rfl
  | cons c s ih =>
    cases hc : c.isUpper with
    | false =>
      rw [cutAt_cons_of_not hc, List.map_cons, List.cons_append, ih, toLower_eq_self_iff.mpr hc]
    | true =>
      -- The letter begins a word, and title case leaves it as it is.
      rw [cutAt_cons_of_keep hc, List.map_nil, List.nil_append, List.flatMap_cons, spellWord_cons,
        headCase_of_camel hg, letterCase_of_camel hg, toUpper_of_isUpper hc, List.cons_append, ih]

/-- **Between camel formats** only the first character can change. -/
theorem respell_of_camels (hf : f.separator = []) (hg : g.separator = []) (c : Char) (s : Text) :
    f.respell g (c :: s) = g.firstCase c :: s := by
  have h := flatMap_cutAt_isUpper hg s
  rw [respell, words_cons_of_camel hf, spell, spellFirst_cons, hg, letterCase_of_camel hg,
    List.cons_append]
  simp only [List.nil_append]
  rw [h]

theorem respell_nil (f g : CaseFormat) : f.respell g [] = [] := by
  rw [respell, words_nil, spell, spellFirst_nil, List.flatMap_nil, List.append_nil]

/-- The separator that a text already has need not be told apart by a change of case. -/
theorem map_ite_separator {h : Char → Char} (hh : IsCasing h) (hp : p.isAlpha = false) (s : Text) :
    (s.map fun c => if c == p then p else h c) = s.map h := by
  refine List.map_congr_left fun c _ => ?_
  split
  · next hc => rw [beq_iff_eq.mp hc, (hh.eq_iff hp).mpr rfl]
  · rfl

/-- Exchanging the separator comes before or together with a change of case. -/
theorem map_exchange {h : Char → Char} (hh : IsCasing h) (hq : q.isAlpha = false) (s : Text) :
    (s.map fun c => if c == p then q else c).map h = s.map fun c => if c == p then q else h c := by
  rw [List.map_map]
  refine List.map_congr_left fun c _ => ?_
  rw [Function.comp_apply, apply_ite h, (hh.eq_iff hq).mpr rfl]

/-! ## The shortcuts of a conversion -/

theorem value_replaceFromChar_single (p q : Char) (s : Text) :
    ((CharClass.single p : CharClass Empty).replaceFromChar s q).value =
      s.map fun c => if c == p then q else c := by
  rw [CharClass.replaceFromChar, CharClass.replaceFrom]
  split
  · rw [Edited.value, List.map_eq_flatMap]
    congr 1
    funext c
    split <;> rfl
  · next hp =>
    rw [Edited.value]
    refine (map_eq_self_iff.mpr fun c hc => if_neg fun heq => hp ?_).symm
    rw [List.contains_iff_mem, ← beq_iff_eq.mp heq]
    exact hc

theorem value_raiseCase (s : Text) : (raiseCase s).value = s.map Char.toUpper := by
  rw [raiseCase]
  split
  · rfl
  · next h =>
    simp only [List.any_eq_true, not_exists, not_and, Bool.not_eq_true] at h
    exact (map_eq_self_iff.mpr fun c hc => toUpper_eq_self_iff.mpr (h c hc)).symm

theorem value_lowerCase (s : Text) : (lowerCase s).value = s.map Char.toLower := by
  rw [lowerCase]
  split
  · rfl
  · next h =>
    simp only [List.any_eq_true, not_exists, not_and, Bool.not_eq_true] at h
    exact (map_eq_self_iff.mpr fun c hc => toLower_eq_self_iff.mpr (h c hc)).symm

theorem value_changeFirst (h : Char → Char) (c : Char) (s : Text) :
    (changeFirst h (c :: s)).value = h c :: s := by
  rw [changeFirst]
  split
  · next hc => rw [hc, Edited.value]
  · rfl

theorem convert_self (f : CaseFormat) (s : Text) : f.convert f s = .kept s := by
  cases f <;> rfl

/-- The two formats that have lower case throughout. -/
def isLowerDelimited : CaseFormat → Bool
  | lowerHyphen | lowerUnderscore => true
  | lowerCamel | upperCamel | upperUnderscore => false

/-- Between the two lower-case formats the separator is exchanged, and letters are left alone. -/
theorem value_convert_of_lower (hfg : f ≠ g) (hf : f.separator = [p]) (hg : g.separator = [q])
    (hfl : f.isLowerDelimited = true) (hgl : g.isLowerDelimited = true) (s : Text) :
    (f.convert g s).value = s.map fun c => if c == p then q else c := by
  cases s with
  | nil => cases f <;> cases g <;> rfl
  | cons c s =>
    cases f <;> cases g
    case lowerHyphen.lowerUnderscore =>
      cases hf
      cases hg
      exact value_replaceFromChar_single '-' '_' (c :: s)
    case lowerUnderscore.lowerHyphen =>
      cases hf
      cases hg
      exact value_replaceFromChar_single '_' '-' (c :: s)
    all_goals first
      | exact absurd rfl hfg
      | exact absurd hfl Bool.false_ne_true
      | exact absurd hgl Bool.false_ne_true

/-- **A conversion is a respelling**, unless both formats have lower case throughout and the text
does not. -/
theorem value_convert (hfg : f ≠ g) {s : Text}
    (h : f.isLowerDelimited = true → g.isLowerDelimited = true → ∀ c ∈ s, c.isUpper = false) :
    (f.convert g s).value = f.respell g s := by
  cases s with
  | nil =>
    rw [respell_nil]
    cases f <;> cases g <;> rfl
  | cons c s =>
    cases f <;> cases g
    -- Eight pairs have a shortcut; all others respell the text by definition.
    case lowerHyphen.lowerUnderscore | lowerUnderscore.lowerHyphen =>
      rw [value_convert_of_lower hfg rfl rfl rfl rfl, respell_of_separators rfl rfl]
      refine List.map_congr_left fun d hd => ?_
      rw [letterCase, toLower_eq_self_iff.mpr (h rfl rfl d hd)]
    case lowerHyphen.upperUnderscore | upperUnderscore.lowerHyphen =>
      rw [respell_of_separators rfl rfl, ← map_exchange (isCasing_letterCase _) rfl,
        ← value_replaceFromChar_single]
      rfl
    case lowerUnderscore.upperUnderscore =>
      rw [respell_of_separators rfl rfl, map_ite_separator (isCasing_letterCase _) rfl]
      exact value_raiseCase (c :: s)
    case upperUnderscore.lowerUnderscore =>
      rw [respell_of_separators rfl rfl, map_ite_separator (isCasing_letterCase _) rfl]
      exact value_lowerCase (c :: s)
    case lowerCamel.upperCamel =>
      rw [respell_of_camels rfl rfl]
      exact value_changeFirst Char.toUpper c s
    case upperCamel.lowerCamel =>
      rw [respell_of_camels rfl rfl]
      exact value_changeFirst Char.toLower c s
    all_goals first | exact absurd rfl hfg | rfl

theorem exists_separator_of_lower (h : f.isLowerDelimited = true) : ∃ p, f.separator = [p] := by
  cases f <;> first | exact ⟨_, rfl⟩ | exact absurd h Bool.false_ne_true

theorem letterCase_of_lower (h : f.isLowerDelimited = true) : f.letterCase = Char.toLower := by
  cases f <;> first | rfl | exact absurd h Bool.false_ne_true

/-- That is also the only way in which the two can differ: an upper-case letter is left alone by the
exchange of separators, and a respelling changes it. -/
theorem value_convert_eq_respell_iff (hfg : f ≠ g) (s : Text) :
    (f.convert g s).value = f.respell g s ↔
      (f.isLowerDelimited = true → g.isLowerDelimited = true → ∀ c ∈ s, c.isUpper = false) := by
  refine ⟨fun h hfl hgl c hc => ?_, value_convert hfg⟩
  obtain ⟨p, hf⟩ := exists_separator_of_lower hfl
  obtain ⟨q, hg⟩ := exists_separator_of_lower hgl
  rw [value_convert_of_lower hfg hf hg hfl hgl, respell_of_separators hf hg, List.map_inj_left] at h
  have hsame := h c hc
  cases hcp : c == p with
  | true =>
    -- A separator is no letter.
    have hp := isAlpha_of_separator hf
    rw [beq_iff_eq.mp hcp]
    exact Bool.eq_false_iff.mpr fun hupper =>
      Bool.eq_false_iff.mp hp (isAlpha_iff.mpr (Or.inl hupper))
  | false =>
    rw [hcp, if_neg Bool.false_ne_true, if_neg Bool.false_ne_true, letterCase_of_lower hgl] at hsame
    exact toLower_eq_self_iff.mp hsame.symm

/-- **The shortcuts** give what the general conversion gives, on every text. The two that only
exchange separators do so exactly on the texts without upper-case letters. -/
theorem shortcuts_respell (s : Text) :
    (lowerHyphen.convert upperUnderscore s).value = lowerHyphen.respell upperUnderscore s ∧
      (lowerUnderscore.convert upperUnderscore s).value =
        lowerUnderscore.respell upperUnderscore s ∧
      (lowerCamel.convert upperCamel s).value = lowerCamel.respell upperCamel s ∧
      (upperCamel.convert lowerCamel s).value = upperCamel.respell lowerCamel s ∧
      (upperUnderscore.convert lowerHyphen s).value = upperUnderscore.respell lowerHyphen s ∧
      (upperUnderscore.convert lowerUnderscore s).value =
        upperUnderscore.respell lowerUnderscore s ∧
      ((lowerHyphen.convert lowerUnderscore s).value = lowerHyphen.respell lowerUnderscore s ↔
        ∀ c ∈ s, c.isUpper = false) ∧
      ((lowerUnderscore.convert lowerHyphen s).value = lowerUnderscore.respell lowerHyphen s ↔
        ∀ c ∈ s, c.isUpper = false) := by
  have hagree (f g : CaseFormat) (hfg : f ≠ g)
      (h : f.isLowerDelimited = true → ¬ g.isLowerDelimited = true) :
      (f.convert g s).value = f.respell g s :=
    value_convert hfg fun hf hg => absurd hg (h hf)
  have hexchange (f g : CaseFormat) (hfg : f ≠ g) (hf : f.isLowerDelimited = true)
      (hg : g.isLowerDelimited = true) :
      (f.convert g s).value = f.respell g s ↔ ∀ c ∈ s, c.isUpper = false := by
    rw [value_convert_eq_respell_iff hfg]
    exact ⟨fun h => h hf hg, fun h _ _ => h⟩
  exact ⟨hagree _ _ (by decide) (by decide), hagree _ _ (by decide) (by decide),
    hagree _ _ (by decide) (by decide), hagree _ _ (by decide) (by decide),
    hagree _ _ (by decide) (by decide), hagree _ _ (by decide) (by decide),
    hexchange _ _ (by decide) rfl rfl, hexchange _ _ (by decide) rfl rfl⟩

example : (upperCamel.convert upperUnderscore ['H', 'T', 'T', 'P']).value =
    ['H', '_', 'T', '_', 'T', '_', 'P'] := by decide

end TextOps.CaseFormat
