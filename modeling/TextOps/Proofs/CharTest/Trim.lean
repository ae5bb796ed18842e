import TextOps.Proofs.CharClass.ShortCut

/-!
# `TextOps/Proofs/CharTest/Trim.lean` — what is left of a text without its ends

A text can be trimmed at one end and then at the other, in either order, or by two searches that come
towards each other. These ways could part where the ends meet: where all characters pass, where only
one is left, where the text is empty. What they all give is said by `Trimmed`, without an order:
passing characters in front, passing characters behind, and in between nothing or a text that begins
and ends with a failing one. There is only one such text (`Trimmed.eq_trimFrom`), and a text read
backwards has the same one backwards, which is all that there is to the order.

Trimming at one end gives the longest text of a kind. That is shown in front, and for the end it
follows by reading backwards once more.
-/

set_option autoImplicit false

namespace TextOps.CharTest

variable {p : CharTest} {s t : Text}

/-! ## Without the ends -/

/-- A text `t` is `s` without passing characters in front and behind, and has no more of them. -/
structure Trimmed (p : CharTest) (s t : Text) : Prop where
  ends : ∃ a b, s = a ++ t ++ b ∧ (∀ c ∈ a, p c = true) ∧ ∀ c ∈ b, p c = true
  /-- The first character fails, if there is one. -/
  first : ∀ c ∈ t.head?, p c = false
  /-- The last character fails, if there is one. -/
  last : ∀ c ∈ t.getLast?, p c = false

theorem Trimmed.reverse (h : p.Trimmed s t) : p.Trimmed s.reverse t.reverse := by
  obtain ⟨⟨a, b, rfl, ha, hb⟩, hfirst, hlast⟩ := h
  refine ⟨⟨b.reverse, a.reverse, ?split, ?front, ?back⟩, ?first, ?last⟩
  case split => rw [List.reverse_append, List.reverse_append, List.append_assoc]
  case front =>
    intro c hc
    exact hb c (List.mem_reverse.mp hc)
  case back =>
    intro c hc
    exact ha c (List.mem_reverse.mp hc)
  case first => rwa [List.head?_reverse]
  case last => rwa [List.getLast?_reverse]

theorem dropWhile_append_of_ends {a u : Text} (ha : ∀ c ∈ a, p c = true)
    (hu : ∀ c ∈ u.head?, p c = false) : (a ++ u).dropWhile p = u := by
  rw [List.dropWhile_append_of_pos ha, dropWhile_eq_self hu]

theorem rdropWhile_append_of_ends {u b : Text} (hb : ∀ c ∈ b, p c = true)
    (hu : ∀ c ∈ u.getLast?, p c = false) : (u ++ b).rdropWhile p = u := by
  have hb' : ∀ c ∈ b.reverse, p c = true := by
    intro c hc
    exact hb c (List.mem_reverse.mp hc)
  have hu' : ∀ c ∈ u.reverse.head?, p c = false := by rwa [List.head?_reverse]
  rw [List.rdropWhile, List.reverse_append, dropWhile_append_of_ends hb' hu', List.reverse_reverse]

/-- **There is one text without the ends.** -/
theorem Trimmed.eq_trimFrom (h : p.Trimmed s t) : t = p.trimFrom s := by
  obtain ⟨⟨a, b, rfl, ha, hb⟩, hfirst, hlast⟩ := h
  cases t with
  | nil =>
    -- There is no character at which the two ends could be told apart.
    have hall : ∀ c ∈ a ++ [] ++ b, p c = true := by simpa [or_imp, forall_and] using ⟨ha, hb⟩
    exact (trimFrom_of_all hall).symm
  | cons c t =>
    have hhead : ∀ d ∈ (c :: t ++ b).head?, p d = false := hfirst
    rw [trimFrom_eq, List.append_assoc, dropWhile_append_of_ends ha hhead,
      rdropWhile_append_of_ends hb hlast]

theorem trimmed_trimFrom (p : CharTest) (s : Text) : p.Trimmed s (p.trimFrom s) where
  ends := by
    refine ⟨s.takeWhile p, (s.dropWhile p).rtakeWhile p, ?split, ?front, ?back⟩
    case split =>
      rw [trimFrom_eq, List.append_assoc, List.rdropWhile_append_rtakeWhile,
        List.takeWhile_append_dropWhile]
    case front =>
      intro c hc
      exact List.mem_takeWhile_imp hc
    case back =>
      intro c hc
      exact List.mem_rtakeWhile_imp hc
  first := head?_trimFrom p s
  last := getLast?_trimFrom p s

theorem trimFrom_eq_nil_iff : p.trimFrom s = [] ↔ ∀ c ∈ s, p c = true := by
  constructor
  · intro hnil
    obtain ⟨a, b, hs, ha, hb⟩ := (p.trimmed_trimFrom s).ends
    rw [hs, hnil, List.append_nil]
    intro c hc
    rcases List.mem_append.mp hc with hc | hc
    · exact ha c hc
    · exact hb c hc
  · exact trimFrom_of_all

/-! ## The other ways to trim -/

/-- Trimming at the end first. -/
theorem trimmed_trimLeadingFrom_trimTrailingFrom (p : CharTest) (s : Text) :
    p.Trimmed s (p.trimLeadingFrom (p.trimTrailingFrom s)) := by
  -- Read backwards, that is trimming in front first.
  have h := (p.trimmed_trimFrom s.reverse).reverse
  rwa [List.reverse_reverse, trimFrom, trimTrailingFrom, List.reverse_reverse] at h

/-- Trims with two searches that come towards each other: one from the front for a failing character,
and one from the end, which goes no further than to the character that the first one has found. -/
def trimInward (p : CharTest) (s : Text) : Text :=
  match s.dropWhile p with
  | [] => []
  | c :: rest => c :: rest.rdropWhile p

theorem rdropWhile_cons_of_neg {c : Char} (hc : p c = false) (w : Text) :
    (c :: w).rdropWhile p = c :: w.rdropWhile p := by
  induction w using List.reverseRecOn with
  | nil =>
    -- The searches meet, and only one character is left.
    rw [List.rdropWhile_singleton, if_neg (by simp [hc]), List.rdropWhile_nil]
  | append_singleton w d ih =>
    rw [← List.cons_append]
    cases hd : p d with
    | true => rw [List.rdropWhile_concat_pos p _ d hd, ih, List.rdropWhile_concat_pos p w d hd]
    | false =>
      rw [List.rdropWhile_concat_neg p _ d (by simp [hd]),
        List.rdropWhile_concat_neg p w d (by simp [hd]), List.cons_append]

theorem trimInward_eq (p : CharTest) (s : Text) : p.trimInward s = p.trimFrom s := by
  have hhead := List.head?_dropWhile_not p s
  rw [trimInward, trimFrom_eq]
  cases hdrop : s.dropWhile p with
  | nil => rw [List.rdropWhile_nil]
  | cons c rest =>
    rw [hdrop] at hhead
    exact (rdropWhile_cons_of_neg hhead rest).symm

/-! ## Longest -/

/-- A text has a property, and no longer text has it. -/
structure IsLongest (Q : Text → Prop) (t : Text) : Prop where
  holds : Q t
  length_le : ∀ u, Q u → u.length ≤ t.length

/-- The longest text with a property, or the empty text if there is none. -/
def LongestOrEmpty (Q : Text → Prop) (t : Text) : Prop :=
  IsLongest Q t ∨ (∀ u, ¬ Q u) ∧ t = []

/-- The text read backwards. -/
theorem LongestOrEmpty.reverse {Q R : Text → Prop} (h : LongestOrEmpty Q t)
    (hQR : ∀ u, R u ↔ Q u.reverse) : LongestOrEmpty R t.reverse := by
  rcases h with ⟨hholds, hlength⟩ | ⟨hnone, rfl⟩
  · refine Or.inl ⟨?_, ?_⟩
    · rwa [hQR, List.reverse_reverse]
    · intro u hu
      have hle := hlength u.reverse ((hQR u).mp hu)
      rwa [List.length_reverse] at hle ⊢
  · refine Or.inr ⟨?_, rfl⟩
    intro u hu
    exact hnone u.reverse ((hQR u).mp hu)

/-- A back part of `s` that begins with a failing character. -/
def BackPart (p : CharTest) (s u : Text) : Prop := u <:+ s ∧ ∃ c ∈ u.head?, p c = false

/-- A front part of `s` that ends with a failing character. -/
def FrontPart (p : CharTest) (s u : Text) : Prop := u <+: s ∧ ∃ c ∈ u.getLast?, p c = false

theorem frontPart_iff {u : Text} : p.FrontPart s u ↔ p.BackPart s.reverse u.reverse := by
  rw [FrontPart, BackPart, List.reverse_suffix, List.head?_reverse]

/-- **Trimming in front leaves as much as there can be.** -/
theorem longest_trimLeadingFrom (p : CharTest) (s : Text) :
    LongestOrEmpty (p.BackPart s) (p.trimLeadingFrom s) := by
  rcases p.all_or_first_failing s with hall | ⟨before, c, after, rfl, hbefore, hc⟩
  · refine Or.inr ⟨?_, List.dropWhile_eq_nil_iff.mpr hall⟩
    rintro u ⟨hu, c, hhead, hc⟩
    have hpass := hall c (hu.subset (List.mem_of_mem_head? hhead))
    rw [hc] at hpass
    exact Bool.false_ne_true hpass
  · rw [trimLeadingFrom, dropWhile_append_cons hbefore hc]
    refine Or.inl ⟨⟨List.suffix_append before (c :: after), c, rfl, hc⟩, ?_⟩
    rintro u ⟨hu, d, hhead, hd⟩
    rcases List.suffix_or_suffix_of_suffix hu (List.suffix_append before (c :: after)) with
      hle | ⟨x, rfl⟩
    · exact hle.length_le
    · -- What the longer part has in front would be of what was trimmed.
      cases x with
      | nil => exact Nat.le_refl _
      | cons e x =>
        obtain ⟨y, hy⟩ := hu
        rw [← List.append_assoc] at hy
        obtain rfl : y ++ e :: x = before := List.append_cancel_right hy
        obtain rfl : e = d := by simpa using hhead
        rw [hbefore e (by simp)] at hd
        exact absurd hd.symm Bool.false_ne_true

theorem longest_trimTrailingFrom (p : CharTest) (s : Text) :
    LongestOrEmpty (p.FrontPart s) (p.trimTrailingFrom s) :=
  (p.longest_trimLeadingFrom s.reverse).reverse fun _ => frontPart_iff

end TextOps.CharTest

namespace TextOps.CharClass

variable {P : Type} [CharPredicate P]

/-- **Trimming** takes away what it can at both ends, and the order makes no difference: there is one
text without the ends, and it comes out of trimming at one end and then at the other, and of two
searches that come towards each other. At one end only, what is left is the longest back part that
begins with a character outside the class, and the longest front part that ends with one. Nothing is
left exactly if all characters are of the class. -/
theorem trimFrom_maximal (m : CharClass P) (s : Text) :
    (∀ t, m.test.Trimmed s t ↔ t = m.trimFrom s) ∧
      (m.test.trimTrailingFrom (m.test.trimLeadingFrom s) = m.trimFrom s ∧
        m.test.trimLeadingFrom (m.test.trimTrailingFrom s) = m.trimFrom s ∧
        m.test.trimInward s = m.trimFrom s) ∧
      (CharTest.LongestOrEmpty (m.test.BackPart s) (m.test.trimLeadingFrom s) ∧
        CharTest.LongestOrEmpty (m.test.FrontPart s) (m.test.trimTrailingFrom s)) ∧
      (m.trimFrom s = [] ↔ m.allIn s = true) ∧
      (m.test.trimLeadingFrom s = [] ↔ m.allIn s = true) ∧
      (m.test.trimTrailingFrom s = [] ↔ m.allIn s = true) := by
  rw [m.trimFrom_eq, m.allIn_eq, CharTest.allIn, List.all_eq_true]
  refine ⟨fun t => ⟨?only, ?trimmed⟩, ⟨rfl, ?trailingFirst, ?inward⟩, ⟨?leading, ?trailing⟩,
    CharTest.trimFrom_eq_nil_iff, List.dropWhile_eq_nil_iff, ?noTrailing⟩
  case only => exact CharTest.Trimmed.eq_trimFrom
  case trimmed =>
    rintro rfl
    exact m.test.trimmed_trimFrom s
  case trailingFirst => exact (m.test.trimmed_trimLeadingFrom_trimTrailingFrom s).eq_trimFrom
  case inward => exact m.test.trimInward_eq s
  case leading => exact m.test.longest_trimLeadingFrom s
  case trailing => exact m.test.longest_trimTrailingFrom s
  case noTrailing => exact List.rdropWhile_eq_nil_iff

end TextOps.CharClass
