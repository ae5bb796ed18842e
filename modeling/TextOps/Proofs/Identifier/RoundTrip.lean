import TextOps.Proofs.Identifier.Respell

/-!
# `TextOps/Proofs/Identifier/RoundTrip.lean` — what survives a conversion

Two questions are answered here. Which lists of words can be spelled in any format and read back
from it? Those of `WellFormed`, and for them a conversion is the spelling in the other format,
whatever the two formats are.

And which texts come back from a conversion and the one that undoes it? Between delimited and camel
formats there is an exact answer in either direction (`respell_respell_delimited_iff`,
`respell_respell_camel_iff`). That certain texts come back is by `words_spell_of_camel` and
`words_spell_of_separator`. That no others do: a text that came back is a text of the format that
wrote it last, which fixes its letters and its beginning; and that every separator has a letter
behind it follows by *counting words*, as the camel text has a word for each upper-case letter, and
only a word that starts with a letter puts one there.
-/

set_option autoImplicit false

namespace TextOps.CaseFormat

open Letter

variable {f g : CaseFormat} {p : Char}

/-! ## Lists of words -/

/-- A list of words that every format can spell so that it can be read back. -/
structure WellFormed (ws : List Text) : Prop where
  /-- There is a word. -/
  ne_nil : ws ≠ []
  /-- A word has characters, and none of them is an upper-case letter or a separator. -/
  word : ∀ w ∈ ws, w ≠ [] ∧ ∀ c ∈ w, c.isUpper = false ∧ c ≠ '-' ∧ c ≠ '_'
  /-- A word that is not the first begins with a lower-case letter. -/
  later : ∀ w ∈ ws.tail, ∃ c v, w = c :: v ∧ c.isLower = true

theorem WellFormed.not_mem {ws : List Text} (h : WellFormed ws) (hf : f.separator = [p]) :
    ∀ w ∈ ws, p ∉ w := by
  intro w hw hp
  obtain ⟨-, hhyphen, hunderscore⟩ := (h.word w hw).2 p hp
  cases f <;> cases hf
  · exact hhyphen rfl
  · exact hunderscore rfl
  · exact hunderscore rfl

theorem WellFormed.startsWithLetter {ws : List Text} (h : WellFormed ws) :
    ∀ w ∈ ws.tail, startsWithLetter w = true := by
  intro w hw
  obtain ⟨c, v, rfl, hc⟩ := h.later w hw
  exact isAlpha_iff.mpr (Or.inr hc)

theorem WellFormed.words_spell {ws : List Text} (h : WellFormed ws) (f : CaseFormat) :
    f.words (f.spell ws) = f.spelled ws := by
  cases ws with
  | nil => exact absurd rfl h.ne_nil
  | cons w ws =>
    rcases f.separator_cases with hf | ⟨p, hf⟩
    · cases w with
      | nil => exact absurd rfl (h.word [] List.mem_cons_self).1
      | cons c w => exact words_spell_of_camel hf h.startsWithLetter
    · exact words_spell_of_separator hf (h.not_mem hf)

/-! ## The letters of a delimited spelling -/

/-- The letters of a delimited spelling are in the case of the format. -/
theorem letterCase_of_mem_spell (hf : f.separator = [p]) (ws : List Text) :
    ∀ c ∈ f.spell ws, f.letterCase c = c := by
  have hcase := f.isCasing_letterCase
  have hword : ∀ w : Text, ∀ c ∈ w.map f.letterCase, f.letterCase c = c := by
    intro w c hc
    obtain ⟨d, -, rfl⟩ := List.mem_map.mp hc
    exact hcase.comp hcase d
  intro c hc
  cases ws with
  | nil => exact absurd hc List.not_mem_nil
  | cons w ws =>
    rw [spell, spellFirst_of_separator hf, hf] at hc
    rcases List.mem_append.mp hc with hc | hc
    · exact hword w c hc
    · obtain ⟨v, -, hc⟩ := List.mem_flatMap.mp hc
      rw [List.singleton_append, spellWord_of_separator hf] at hc
      rcases List.mem_cons.mp hc with rfl | hc
      · exact (hcase.eq_iff (isAlpha_of_separator hf)).mpr rfl
      · exact hword v c hc

theorem WellFormed.value_convert_spell {ws : List Text} (h : WellFormed ws) (f g : CaseFormat) :
    (f.convert g (f.spell ws)).value = g.spell ws := by
  by_cases hfg : f = g
  · rw [hfg, convert_self, Edited.value]
  · have hlower : f.isLowerDelimited = true → g.isLowerDelimited = true →
        ∀ c ∈ f.spell ws, c.isUpper = false := by
      intro hf _ c hc
      cases f
      case lowerHyphen | lowerUnderscore =>
        exact toLower_eq_self_iff.mp (letterCase_of_mem_spell rfl ws c hc)
      all_goals exact absurd hf Bool.false_ne_true
    rw [value_convert hfg hlower, respell, h.words_spell f, spell_spelled]

/-- **Converting a spelled list** spells it in the other format, and so does a converter. -/
theorem convert_spell {ws : List Text} (h : WellFormed ws) (f g : CaseFormat) :
    (f.convert g (f.spell ws)).value = g.spell ws ∧
      ((f.converterTo g).convert (f.spell ws)).value = g.spell ws :=
  ⟨h.value_convert_spell f g, h.value_convert_spell f g⟩

/-- Digits and letters that are not ASCII stand anywhere but at the start of a later word. -/
theorem convert_spell_naive :
    WellFormed [['2', 'é'], ['n', 'a', 'ï', '9'], ['v', 'É']] ∧
      (lowerCamel.convert upperUnderscore ['2', 'é', 'N', 'a', 'ï', '9', 'V', 'É']).value =
        ['2', 'é', '_', 'N', 'A', 'ï', '9', '_', 'V', 'É'] := by
  have h : WellFormed [['2', 'é'], ['n', 'a', 'ï', '9'], ['v', 'É']] :=
    ⟨by simp, by simp, by simp⟩
  exact ⟨h, (convert_spell h lowerCamel upperUnderscore).1⟩

/-! ## The words of texts without separators -/

theorem not_mem_words_of_separator (hf : f.separator = [p]) (s : Text) :
    ∀ w ∈ f.words s, p ∉ w := by
  obtain ⟨hfirst, hothers⟩ := not_test_of_mem_cutAt (· == p) s
  intro w hw hp
  rw [words_of_separator hf] at hw
  rcases List.mem_cons.mp hw with rfl | hw
  · exact absurd rfl (beq_eq_false_iff_ne.mp (hfirst p hp))
  · exact absurd rfl (beq_eq_false_iff_ne.mp (hothers w hw p hp))

theorem not_mem_words_of_camel (hg : g.separator = []) {s : Text} (h : p ∉ s) :
    ∀ w ∈ g.words s, p ∉ w := by
  intro w hw hp
  cases s with
  | nil =>
    rw [words_nil] at hw
    rw [List.mem_singleton.mp hw] at hp
    exact h hp
  | cons c s =>
    obtain ⟨hfirst, hothers⟩ := mem_of_mem_cutAt Char.isUpper true s
    rw [words_cons_of_camel hg] at hw
    rcases List.mem_cons.mp hw with rfl | hw
    · rcases List.mem_cons.mp hp with rfl | hp
      · exact h List.mem_cons_self
      · exact h (List.mem_cons_of_mem _ (hfirst p hp))
    · exact h (List.mem_cons_of_mem _ (hothers w hw p hp))

theorem not_mem_spell_of_camel (hg : g.separator = []) (hp : p.isAlpha = false) {ws : List Text}
    (h : ∀ w ∈ ws, p ∉ w) : p ∉ g.spell ws := by
  intro hps
  cases ws with
  | nil => exact absurd hps List.not_mem_nil
  | cons w ws =>
    rw [spell, hg] at hps
    rcases List.mem_append.mp hps with hps | hps
    · exact h w List.mem_cons_self ((mem_spellFirst_iff hp).mp hps)
    · obtain ⟨v, hv, hps⟩ := List.mem_flatMap.mp hps
      exact h v (List.mem_cons_of_mem _ hv) ((mem_spellWord_iff hp).mp hps)

/-! ## Words that begin with a letter -/

theorem countP_isUpper_map_letterCase (hg : g.separator = []) (w : Text) :
    (w.map g.letterCase).countP Char.isUpper = 0 := by
  rw [List.countP_eq_zero]
  intro c hc
  rw [isUpper_map_letterCase_of_camel hg w c hc]
  exact Bool.false_ne_true

/-- In a camel spelling there is an upper-case letter for each word that begins with a letter. -/
theorem countP_isUpper_flatMap (hg : g.separator = []) (ws : List Text) :
    (ws.flatMap g.spellWord).countP Char.isUpper = ws.countP startsWithLetter := by
  induction ws with
  | nil => rfl
  | cons w ws ih =>
    rw [List.flatMap_cons, List.countP_append, ih, List.countP_cons, Nat.add_comm]
    congr 1
    cases w with
    | nil => rw [spellWord_nil]; rfl
    | cons c w =>
      rw [spellWord_cons, List.countP_cons, countP_isUpper_map_letterCase hg, Nat.zero_add,
        headCase_of_camel hg, isUpper_toUpper]
      rfl

/-- Every `p` of a text has an ASCII letter right behind it. -/
def LetterBehind (p : Char) (s : Text) : Prop :=
  ∀ i, s[i]? = some p → ∃ c, s[i + 1]? = some c ∧ c.isAlpha = true

theorem letterBehind_nil (p : Char) : LetterBehind p [] := by
  intro i hi
  rw [List.getElem?_nil] at hi
  cases hi

theorem letterBehind_cons {d : Char} {s : Text} :
    LetterBehind p (d :: s) ↔ (d = p → s.head?.any Char.isAlpha = true) ∧ LetterBehind p s := by
  constructor
  · intro h
    refine ⟨?_, fun i hi => h (i + 1) hi⟩
    rintro rfl
    obtain ⟨c, hc, hletter⟩ := h 0 rfl
    rw [Option.any_eq_true, List.head?_eq_getElem?]
    exact ⟨c, hc, hletter⟩
  · rintro ⟨hhead, hlater⟩ i hi
    cases i with
    | zero =>
      have hany := hhead (Option.some.inj hi)
      rw [Option.any_eq_true, List.head?_eq_getElem?] at hany
      exact hany
    | succ i => exact hlater i hi

/-- The words behind the first begin with letters if every separator has a letter behind it. -/
theorem forall_startsWithLetter_iff (hp : p.isAlpha = false) (s : Text) :
    (∀ w ∈ (cutAt (· == p) false s).others, startsWithLetter w = true) ↔ LetterBehind p s := by
  have hletter : ∀ c, (c == p) = true → c.isAlpha = false := fun c hc => beq_iff_eq.mp hc ▸ hp
  induction s with
  | nil => exact iff_of_true (fun w hw => absurd hw List.not_mem_nil) (letterBehind_nil p)
  | cons d s ih =>
    refine Iff.trans ?_ (letterBehind_cons.trans (and_congr_right' ih.symm)).symm
    cases hd : d == p with
    | false =>
      rw [cutAt_cons_of_not (c := d) hd]
      exact (and_iff_right fun heq => absurd heq (beq_eq_false_iff_ne.mp hd)).symm
    | true =>
      rw [cutAt_cons_of_drop (c := d) hd, List.forall_mem_cons, startsWithLetter,
        any_head?_first_cutAt hletter]
      exact and_congr_left' (imp_iff_right (beq_iff_eq.mp hd)).symm

/-! ## From a delimited format to a camel format and back -/

section RoundTrip

variable (hf : f.separator = [p]) (hg : g.separator = [])
include hf hg

/-- A text whose separators stand right comes back with its letters in the case of the format. -/
theorem respell_respell_of_letterBehind {s : Text} (hhead : s.head? ≠ some p)
    (hbehind : LetterBehind p s) : g.respell f (f.respell g s) = s.map f.letterCase := by
  have hp := isAlpha_of_separator hf
  have hself : f.respell f s = s.map f.letterCase := by
    rw [respell_of_separators hf hf, map_ite_separator f.isCasing_letterCase hp]
  rw [← hself]
  cases s with
  | nil => rw [respell_nil, respell_nil, respell_nil]
  | cons c s =>
    have hc : (c == p) = false := beq_eq_false_iff_ne.mpr fun heq => hhead (congrArg some heq)
    have hothers := (forall_startsWithLetter_iff hp (c :: s)).mpr hbehind
    rw [cutAt_cons_of_not (c := c) hc] at hothers
    rw [respell, respell, respell, words_of_separator hf, cutAt_cons_of_not (c := c) hc,
      words_spell_of_camel hg hothers, spell_spelled]

theorem not_mem_respell (s : Text) : p ∉ f.respell g s :=
  not_mem_spell_of_camel hg (isAlpha_of_separator hf) (not_mem_words_of_separator hf s)

theorem head?_ne_of_respell_respell {s : Text} (h : g.respell f (f.respell g s) = s) :
    s.head? ≠ some p := by
  have hp := isAlpha_of_separator hf
  have hcamel := not_mem_respell hf hg s
  rw [← h]
  -- The camel text has no separator, and no change of case makes one.
  cases hcs : f.respell g s with
  | nil =>
    rw [respell_nil]
    exact (Option.some_ne_none p).symm
  | cons c t =>
    rw [respell, words_cons_of_camel hg, spell, spellFirst_cons, List.cons_append, List.head?_cons]
    intro heq
    rw [hcs] at hcamel
    rw [← (f.isCasing_firstCase.eq_iff hp).mp (Option.some.inj heq)] at hcamel
    exact hcamel List.mem_cons_self

theorem words_respell_of_camel {s : Text} (h : p ∉ s) :
    f.words (g.respell f s) = f.spelled (g.words s) := by
  have hwords := not_mem_words_of_camel hg h
  obtain ⟨w, ws, hws⟩ := g.exists_words_cons s
  rw [hws] at hwords
  rw [respell, hws, words_spell_of_separator hf hwords]

/-- A text that comes back has as many words as the camel text in between. -/
theorem length_words_of_respell_respell {s : Text} (h : g.respell f (f.respell g s) = s) :
    (f.words s).length = (g.words (f.respell g s)).length := by
  have hcamel := not_mem_respell hf hg s
  calc (f.words s).length
      = (f.words (g.respell f (f.respell g s))).length := by rw [h]
    _ = (f.spelled (g.words (f.respell g s))).length := by rw [words_respell_of_camel hf hg hcamel]
    _ = (g.words (f.respell g s)).length := f.length_spelled _

/-- The camel text has a word for each word that begins with a letter, besides the first. -/
theorem length_words_respell {c : Char} (hc : (c == p) = false) (s : Text) :
    (g.words (f.respell g (c :: s))).length =
      (cutAt (· == p) false s).others.countP startsWithLetter + 1 := by
  have hcamel : f.respell g (c :: s) = g.firstCase c ::
      ((cutAt (· == p) false s).first.map g.letterCase ++
        (cutAt (· == p) false s).others.flatMap g.spellWord) := by
    rw [respell, words_of_separator hf, cutAt_cons_of_not (c := c) hc, spell, spellFirst_cons, hg]
    rfl
  rw [hcamel, words_cons_of_camel hg, List.length_cons, length_others_cutAt, List.countP_append,
    countP_isUpper_map_letterCase hg, Nat.zero_add, countP_isUpper_flatMap hg]

theorem letterBehind_of_respell_respell {s : Text} (h : g.respell f (f.respell g s) = s) :
    LetterBehind p s := by
  have hhead := head?_ne_of_respell_respell hf hg h
  have hlength := length_words_of_respell_respell hf hg h
  rw [← forall_startsWithLetter_iff (isAlpha_of_separator hf)]
  cases s with
  | nil => exact fun w hw => absurd hw List.not_mem_nil
  | cons c s =>
    have hc : (c == p) = false := beq_eq_false_iff_ne.mpr fun heq => hhead (congrArg some heq)
    rw [length_words_respell hf hg hc, words_of_separator hf, List.length_cons] at hlength
    rw [cutAt_cons_of_not (c := c) hc] at hlength ⊢
    -- As many words begin with a letter as there are words: all of them do.
    exact List.countP_eq_length.mp (Nat.succ.inj hlength).symm

/-- **There and back from a delimited format.** -/
theorem respell_respell_delimited_iff (s : Text) :
    g.respell f (f.respell g s) = s ↔
      (∀ c ∈ s, f.letterCase c = c) ∧ s.head? ≠ some p ∧ LetterBehind p s := by
  constructor
  · intro h
    refine ⟨?_, head?_ne_of_respell_respell hf hg h, letterBehind_of_respell_respell hf hg h⟩
    have hletters := letterCase_of_mem_spell hf (g.words (f.respell g s))
    rwa [← respell, h] at hletters
  · rintro ⟨hletters, hhead, hbehind⟩
    rw [respell_respell_of_letterBehind hf hg hhead hbehind, map_eq_self_iff.mpr hletters]

/-- **There and back from a camel format.** -/
theorem respell_respell_camel_iff (s : Text) :
    f.respell g (g.respell f s) = s ↔ p ∉ s ∧ ∀ c, s.head? = some c → g.firstCase c = c := by
  have hback (hs : p ∉ s) : f.respell g (g.respell f s) = g.respell g s := by
    rw [respell, words_respell_of_camel hf hg hs, spell_spelled, ← respell]
  constructor
  · intro h
    have hs : p ∉ s := by
      rw [← h]
      exact not_mem_respell hf hg _
    refine ⟨hs, fun c hc => ?_⟩
    rw [hback hs] at h
    cases s with
    | nil => cases hc
    | cons d s =>
      rw [respell_of_camels hg hg] at h
      rw [← Option.some.inj hc]
      exact (List.cons.inj h).1
  · rintro ⟨hs, hhead⟩
    rw [hback hs]
    cases s with
    | nil => exact respell_nil g g
    | cons c s => rw [respell_of_camels hg hg, hhead c rfl]

end RoundTrip

/-! ## The exact conditions -/

theorem letterCase_eq_self_iff (hf : f.separator = [p]) {c : Char} :
    f.letterCase c = c ↔
      if f = upperUnderscore then c.isLower = false else c.isUpper = false := by
  cases f <;> cases hf
  · exact toLower_eq_self_iff
  · exact toLower_eq_self_iff
  · exact toUpper_eq_self_iff

theorem firstCase_eq_self_iff (hg : g.separator = []) {c : Char} :
    g.firstCase c = c ↔ if g = lowerCamel then c.isUpper = false else c.isLower = false := by
  cases g <;> cases hg
  · exact toLower_eq_self_iff
  · exact toUpper_eq_self_iff

/-- Conversions between delimited and camel formats have no shortcuts. -/
theorem value_convert_camel (hf : f.separator = [p]) (hg : g.separator = []) (s : Text) :
    (f.convert g s).value = f.respell g s ∧ (g.convert f s).value = g.respell f s := by
  have hfg : f ≠ g := by
    rintro rfl
    rw [hf] at hg
    cases hg
  have hlower : ¬g.isLowerDelimited = true := by cases g <;> cases hg <;> exact Bool.false_ne_true
  exact ⟨value_convert hfg fun _ h => absurd h hlower,
    value_convert hfg.symm fun h => absurd h hlower⟩

/-- **Which texts come back.** From a delimited format to a camel format and back: those that have
all letters in the case of the delimited format, do not begin with the separator, and have a letter
behind each separator. From a camel format to a delimited format and back: those that do not have
the separator and begin in the case of the camel format. -/
theorem convert_convert_eq_self_iff (hf : f.separator = [p]) (hg : g.separator = []) (s : Text) :
    ((g.convert f (f.convert g s).value).value = s ↔
      (∀ c ∈ s, if f = upperUnderscore then c.isLower = false else c.isUpper = false) ∧
        s.head? ≠ some p ∧ LetterBehind p s) ∧
    ((f.convert g (g.convert f s).value).value = s ↔
      p ∉ s ∧ ∀ c, s.head? = some c →
        if g = lowerCamel then c.isUpper = false else c.isLower = false) := by
  constructor
  · rw [(value_convert_camel hf hg s).1, (value_convert_camel hf hg _).2,
      respell_respell_delimited_iff hf hg]
    simp only [letterCase_eq_self_iff hf]
  · rw [(value_convert_camel hf hg s).2, (value_convert_camel hf hg _).1,
      respell_respell_camel_iff hf hg]
    simp only [firstCase_eq_self_iff hg]

/-- A word may begin with any character if it is the first one, and a text of camel words with any
character that has no other case. -/
theorem convert_convert_accents :
    (upperCamel.convert lowerUnderscore
      (lowerUnderscore.convert upperCamel ['é', '1', '_', 'x', '2']).value).value =
        ['é', '1', '_', 'x', '2'] ∧
      (lowerUnderscore.convert upperCamel
        (upperCamel.convert lowerUnderscore ['é', '1', 'X', 'Y']).value).value =
          ['é', '1', 'X', 'Y'] := by
  refine ⟨(convert_convert_eq_self_iff rfl rfl _).1.mpr ⟨by simp, by simp, ?_⟩,
    (convert_convert_eq_self_iff rfl rfl _).2.mpr ⟨by simp, ?_⟩⟩
  · simp only [letterBehind_cons, letterBehind_nil, and_true]
    decide
  · rintro c hc
    cases hc
    decide

end TextOps.CaseFormat
