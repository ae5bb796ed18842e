import TextOps.Escape.Xml
import TextOps.Proofs.Escape.Markup

/-!
# `TextOps/Proofs/Escape/Xml.lean` — escaped XML is well formed and loses only what XML forbids

Each of the three configurations extends the one before, and what it adds are references. So all
three are one base with a list of references on top (`Use.references`), and the facts about them are
proved once. The base lists the forbidden controls, takes everything up to U+FFFD for safe, and leaves
the two noncharacters just above to the fallback. What it does to a character is therefore what
`legalized` says: a character of XML stays, and any other becomes U+FFFD.

A reference for tab, newline or carriage return comes on top of a base that leaves these three alone.
No reference is for a forbidden character, and U+FFFD has none; so the character that is written, as
it is or by its reference, is always `legalized c`, and the reader finds that one.
-/

set_option autoImplicit false

namespace TextOps.Xml

/-! ## The characters of XML -/

/-- Whether XML 1.0 allows a character. -/
def isXmlChar (c : Char) : Bool :=
  c == '\t' || c == '\n' || c == '\r' || (0x20 ≤ c.toNat && c != '\uFFFE' && c != '\uFFFF')

theorem isXmlChar_iff {c : Char} : isXmlChar c = true ↔
    c = '\t' ∨ c = '\n' ∨ c = '\r' ∨ (0x20 ≤ c.toNat ∧ c ≠ '\uFFFE' ∧ c ≠ '\uFFFF') := by
  simp only [isXmlChar, Bool.or_eq_true, Bool.and_eq_true, beq_iff_eq, bne_iff_ne,
    decide_eq_true_iff, or_assoc, and_assoc]

/-- A character that XML allows, and U+FFFD for any other. -/
def legalized (c : Char) : Char := if isXmlChar c then c else '\uFFFD'

theorem isXmlChar_legalized (c : Char) : isXmlChar (legalized c) = true := by
  unfold legalized
  split
  · next h => exact h
  · decide

theorem mem_forbiddenControls_iff {c : Char} :
    c ∈ forbiddenControls ↔ c.toNat < 0x20 ∧ c ≠ '\t' ∧ c ≠ '\n' ∧ c ≠ '\r' := by
  have hcode : ∀ n < 0x20, (Char.ofNat n).toNat = n := by decide
  have hcontrol : c ∈ (List.range 0x20).map Char.ofNat ↔ c.toNat < 0x20 := by
    rw [List.mem_map]
    constructor
    · rintro ⟨n, hn, rfl⟩
      have hn := List.mem_range.mp hn
      rwa [hcode n hn]
    · intro hc
      exact ⟨c.toNat, List.mem_range.mpr hc, Char.ofNat_toNat c⟩
  rw [forbiddenControls, List.mem_filter, hcontrol]
  simp

/-- The characters that XML forbids are those controls and two noncharacters. -/
theorem isXmlChar_eq_false_iff {c : Char} :
    isXmlChar c = false ↔ c ∈ forbiddenControls ∨ c = '\uFFFE' ∨ c = '\uFFFF' := by
  rw [← Bool.not_eq_true, isXmlChar_iff, mem_forbiddenControls_iff]
  constructor
  · intro h
    by_cases hlow : c.toNat < 0x20
    · exact Or.inl ⟨hlow, fun ht => h (Or.inl ht), fun hn => h (Or.inr (Or.inl hn)),
        fun hr => h (Or.inr (Or.inr (Or.inl hr)))⟩
    · refine Or.inr (Decidable.byContradiction fun hne => h (Or.inr (Or.inr (Or.inr ?_))))
      exact ⟨by omega, fun he => hne (Or.inl he), fun hf => hne (Or.inr hf)⟩
  · rintro (⟨hlow, htab, hnewline, hreturn⟩ | rfl | rfl)
    · rintro (h | h | h | ⟨h, -⟩)
      · exact htab h
      · exact hnewline h
      · exact hreturn h
      · omega
    · decide
    · decide

/-! ## What the base does -/

def baseBuilder : Builder Char :=
  (Builder.new.safeRange '\x00' '\uFFFD').addAll forbiddenControls ['\uFFFD']

/-- **Listed, safe and beyond together**: exactly what XML forbids is replaced. -/
theorem resolve_base (c : Char) :
    resolve baseBuilder.mappings.pairs baseBuilder.low baseBuilder.high noncharacter c =
      if isXmlChar c then none else some ['\uFFFD'] := by
  have hlisted : latest? baseBuilder.mappings.pairs c =
      if c ∈ forbiddenControls then some ['\uFFFD'] else none :=
    latest?_addAll .empty forbiddenControls ['\uFFFD'] c
  cases hlegal : isXmlChar c with
  | false =>
    rcases isXmlChar_eq_false_iff.mp hlegal with hcontrol | rfl | rfl
    · rw [if_pos hcontrol] at hlisted
      rw [resolve, hlisted]
      rfl
    -- The two noncharacters are above the safe range, and the fallback knows them.
    · decide
    · decide
  | true =>
    have hallowed : ¬ (c ∈ forbiddenControls ∨ c = '\uFFFE' ∨ c = '\uFFFF') := by
      rw [← isXmlChar_eq_false_iff, hlegal]
      exact Bool.noConfusion
    have hfallback : noncharacter c = none := by
      rw [noncharacter, if_neg]
      simpa using fun h => hallowed (Or.inr h)
    rw [if_neg fun h => hallowed (Or.inl h)] at hlisted
    rw [resolve_of_not_listed hlisted, hfallback, ite_self, if_pos rfl]

/-! ## The three uses -/

def contentReferences : Markup.References :=
  [('&', "&amp;".toList), ('<', "&lt;".toList), ('>', "&gt;".toList)]

def generalReferences : Markup.References :=
  contentReferences ++ [('\x27', "&apos;".toList), ('\x22', "&quot;".toList)]

def attributeReferences : Markup.References :=
  generalReferences ++
    [('\t', "&#x9;".toList), ('\n', "&#xA;".toList), ('\r', "&#xD;".toList)]

/-- What a text is escaped for. -/
inductive Use where
  | content
  | general
  | attributeValue

namespace Use

def escaper : Use → RangeEscaper Char
  | content => contentEscaper
  | general => Xml.escaper
  | attributeValue => attributeEscaper

def references : Use → Markup.References
  | content => contentReferences
  | general => generalReferences
  | attributeValue => attributeReferences

theorem wellFormed_references (u : Use) : Markup.WellFormed u.references where
  ampersand := by cases u <;> decide
  opens := by cases u <;> decide
  prefixFree := by cases u <;> decide

/-- What has a reference is legal, and so is each character of a reference. -/
theorem isXmlChar_references (u : Use) :
    ∀ p ∈ u.references, isXmlChar p.1 = true ∧ p.2.all isXmlChar = true := by
  cases u <;> decide

theorem replacement_not_mem (u : Use) : '\uFFFD' ∉ u.references.map Prod.fst := by
  cases u <;> decide

/-- Each configuration is the base with its references on top. -/
theorem escaper_eq (u : Use) :
    u.escaper =
      ((u.references.foldl (fun b p => b.add p.1 p.2) baseBuilder).buildWith noncharacter).value := by
  cases u <;> rfl

theorem replace_escaper (u : Use) (c : Char) :
    u.escaper.replace c =
      (latest? u.references c).or (if isXmlChar c then none else some ['\uFFFD']) := by
  rw [escaper_eq, Builder.replace_buildWith, Builder.foldl_add, resolve_foldl_add]
  exact congrArg (latest? u.references c).or (resolve_base c)

/-- What is written for a character writes the character that XML makes of it. -/
theorem writes_replace (u : Use) (c : Char) :
    Markup.Writes u.references (legalized c) ((u.escaper.replace c).getD [c]) := by
  rw [replace_escaper]
  cases hlisted : latest? u.references c with
  | some r =>
    have hmem := mem_of_latest? hlisted
    rw [legalized, if_pos (u.isXmlChar_references _ hmem).1]
    exact .reference hmem
  | none =>
    cases hlegal : isXmlChar c with
    | true =>
      rw [legalized, if_pos hlegal]
      exact .itself (not_mem_of_latest? hlisted)
    | false =>
      rw [legalized, if_neg (Bool.eq_false_iff.mp hlegal)]
      exact .itself u.replacement_not_mem

theorem value_value_escape (u : Use) (s : Text) :
    (u.escaper.escape s).value.value = s.flatMap fun c => (u.escaper.replace c).getD [c] := by
  rw [RangeEscaper.value_value_escape, replaceEach]

theorem isXmlChar_of_mem_escape (u : Use) {s : Text} {d : Char}
    (hd : d ∈ (u.escaper.escape s).value.value) : isXmlChar d = true := by
  rw [value_value_escape] at hd
  obtain ⟨c, -, hd⟩ := List.mem_flatMap.mp hd
  rcases (u.writes_replace c).mem hd with ⟨rfl, -⟩ | ⟨p, hp, hd⟩
  · exact isXmlChar_legalized c
  · exact List.all_eq_true.mp (u.isXmlChar_references p hp).2 d hd

theorem not_mem_escape (u : Use) {d : Char} (hd : d ∈ u.references.map Prod.fst) (hne : d ≠ '&')
    (s : Text) : d ∉ (u.escaper.escape s).value.value := by
  rw [value_value_escape]
  exact Markup.not_mem_flatMap u.wellFormed_references u.writes_replace hd hne s

end Use

/-- **Escaping for XML is safe and loses only what XML forbids.** Whatever a text is escaped for, the
result has legal characters only and no angle bracket, every ampersand in it begins one of the
references for that use, and resolving these gives the text with U+FFFD for each forbidden character.
Quotation marks and apostrophes occur for content alone, and tabs and line breaks do not occur for
attributes. -/
theorem escape_legal :
    (∀ (u : Use) (s : Text),
      let t := (u.escaper.escape s).value.value
      (∀ c ∈ t, isXmlChar c = true) ∧ ('<' ∉ t ∧ '>' ∉ t) ∧
        Markup.AmpersandsRefer u.references t ∧
        Markup.unescape u.references t = s.map legalized) ∧
    (∀ s : Text,
      let t := (escaper.escape s).value.value
      '\x27' ∉ t ∧ '\x22' ∉ t) ∧
    (∀ s : Text,
      let t := (attributeEscaper.escape s).value.value
      ('\x27' ∉ t ∧ '\x22' ∉ t) ∧ '\t' ∉ t ∧ '\n' ∉ t ∧ '\r' ∉ t) := by
  refine ⟨fun u s => ⟨?legal, ?brackets, ?ampersands, ?resolved⟩, ?quotes, ?attributes⟩
  case legal => exact fun c hc => u.isXmlChar_of_mem_escape hc
  case brackets =>
    constructor
    all_goals exact u.not_mem_escape (by cases u <;> decide) (by decide) s
  case ampersands =>
    rw [u.value_value_escape]
    exact Markup.ampersandsRefer_flatMap u.wellFormed_references u.writes_replace s
  case resolved =>
    rw [u.value_value_escape]
    exact Markup.unescape_flatMap u.wellFormed_references u.writes_replace s
  case quotes =>
    intro s
    constructor
    all_goals exact Use.general.not_mem_escape (by decide) (by decide) s
  case attributes =>
    intro s
    refine ⟨⟨?_, ?_⟩, ?_, ?_, ?_⟩
    all_goals exact Use.attributeValue.not_mem_escape (by decide) (by decide) s

end TextOps.Xml
