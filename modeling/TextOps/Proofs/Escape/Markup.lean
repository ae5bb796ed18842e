import TextOps.Proofs.Escape.Resolution

/-!
# `TextOps/Proofs/Escape/Markup.lean` — references can be resolved

In markup a character can be written as a reference, which is an ampersand and a name up to a
semicolon. Whoever reads a text resolves the references from left to right (`unescape`) and leaves
alone whatever is none, a stray ampersand too. So text that looks like a reference must not get
through as it is: it would be resolved, although nobody wrote it for a character.

What keeps the reader in step is that an ampersand has a reference of its own, and that no reference
is the beginning of another one (`WellFormed`). If then each character is written as the reference to
it, or as it is for want of one (`Writes`), the reader finds exactly what was written, whatever
follows (`Writes.unescape_append`), every ampersand begins a reference, and no other character that
has a reference occurs at all. What is written for a character may be meant for another one, which
stands in for it (`image`); the reader then finds the latter.
-/

set_option autoImplicit false

namespace TextOps.Markup

/-- Characters, each with the reference to it. -/
abbrev References := List (Char × Text)

variable {refs : References}

/-! ## Reading -/

/-- Resolves references from left to right. The first `skip` characters belong to one that has been
resolved. -/
def unescapeFrom (refs : References) : (skip : Nat) → Text → Text
  | _, [] => []
  | skip + 1, _ :: rest => unescapeFrom refs skip rest
  | 0, c :: rest =>
    match refs.find? (·.2.isPrefixOf (c :: rest)) with
    | some p => p.1 :: unescapeFrom refs (p.2.length - 1) rest
    | none => c :: unescapeFrom refs 0 rest

/-- The text with each reference replaced by the character that it is for. -/
def unescape (refs : References) (t : Text) : Text := unescapeFrom refs 0 t

/-- Every ampersand of a text begins a reference. -/
def AmpersandsRefer (refs : References) (t : Text) : Prop :=
  ∀ before after, t = before ++ '&' :: after → ∃ p ∈ refs, p.2 <+: '&' :: after

/-- References that can be told apart, from each other and from other text. -/
structure WellFormed (refs : References) : Prop where
  /-- An ampersand has a reference. -/
  ampersand : '&' ∈ refs.map Prod.fst
  /-- A reference is an ampersand and characters that have no reference. -/
  opens : ∀ p ∈ refs, p.2.head? = some '&' ∧ p.2.tail.all fun c => c ∉ refs.map Prod.fst
  /-- No reference is the beginning of another one. -/
  prefixFree : ∀ p ∈ refs, ∀ q ∈ refs, p.2 <+: q.2 → p = q

namespace WellFormed

variable {p : Char × Text} {c : Char}

theorem exists_body (h : WellFormed refs) (hp : p ∈ refs) :
    ∃ body, p.2 = '&' :: body ∧ ∀ c ∈ body, c ∉ refs.map Prod.fst := by
  obtain ⟨hhead, htail⟩ := h.opens p hp
  obtain ⟨body, hbody⟩ := List.head?_eq_some_iff.mp hhead
  rw [hbody] at htail
  exact ⟨body, hbody, fun c hc => of_decide_eq_true (List.all_eq_true.mp htail c hc)⟩

theorem ne_ampersand (h : WellFormed refs) (hc : c ∉ refs.map Prod.fst) : c ≠ '&' := by
  rintro rfl
  exact hc h.ampersand

/-- In front of any text, a reference is found and no other one. -/
theorem find?_append (h : WellFormed refs) (hp : p ∈ refs) (rest : Text) :
    refs.find? (·.2.isPrefixOf (p.2 ++ rest)) = some p := by
  have hself : p.2.isPrefixOf (p.2 ++ rest) = true :=
    List.isPrefixOf_iff_prefix.mpr (List.prefix_append _ _)
  cases hfind : refs.find? (·.2.isPrefixOf (p.2 ++ rest)) with
  | none => exact absurd hself (List.find?_eq_none.mp hfind p hp)
  | some q =>
    have hq : q ∈ refs := List.mem_of_find?_eq_some hfind
    have hfound := List.find?_some hfind
    have hprefix : q.2 <+: p.2 ++ rest := List.isPrefixOf_iff_prefix.mp hfound
    rcases List.prefix_or_prefix_of_prefix hprefix (List.prefix_append p.2 rest) with hqp | hpq
    · rw [h.prefixFree q hq p hp hqp]
    · rw [h.prefixFree p hp q hq hpq]

/-- No reference begins with another character than an ampersand. -/
theorem find?_cons (h : WellFormed refs) (hc : c ≠ '&') (rest : Text) :
    refs.find? (·.2.isPrefixOf (c :: rest)) = none := by
  rw [List.find?_eq_none]
  intro p hp hprefix
  obtain ⟨body, hbody, -⟩ := h.exists_body hp
  rw [List.isPrefixOf_iff_prefix, hbody, List.cons_prefix_cons] at hprefix
  exact hc hprefix.1.symm

end WellFormed

theorem unescapeFrom_length (w rest : Text) :
    unescapeFrom refs w.length (w ++ rest) = unescape refs rest := by
  induction w with
  | nil => rfl
  | cons c w ih => exact ih

theorem unescape_reference (h : WellFormed refs) {p : Char × Text} (hp : p ∈ refs) (rest : Text) :
    unescape refs (p.2 ++ rest) = p.1 :: unescape refs rest := by
  obtain ⟨body, hbody, -⟩ := h.exists_body hp
  have hfind := h.find?_append hp rest
  rw [hbody, List.cons_append] at hfind ⊢
  rw [unescape, unescapeFrom, hfind]
  dsimp only
  rw [hbody, List.length_cons, Nat.add_sub_cancel, unescapeFrom_length]

theorem unescape_cons (h : WellFormed refs) {c : Char} (hc : c ≠ '&') (rest : Text) :
    unescape refs (c :: rest) = c :: unescape refs rest := by
  rw [unescape, unescapeFrom, h.find?_cons hc]
  rfl

/-! ## Writing one character -/

/-- A character is written as the reference to it, or as it is if it has none. -/
inductive Writes (refs : References) (c : Char) : Text → Prop where
  | reference {r : Text} (h : (c, r) ∈ refs) : Writes refs c r
  | itself (h : c ∉ refs.map Prod.fst) : Writes refs c [c]

theorem writes_latest? (refs : References) (c : Char) :
    Writes refs c ((latest? refs c).getD [c]) := by
  cases h : latest? refs c with
  | none => exact .itself (not_mem_of_latest? h)
  | some r => exact .reference (mem_of_latest? h)

namespace Writes

variable {c d : Char} {w : Text}

theorem unescape_append (h : WellFormed refs) (hw : Writes refs c w) (rest : Text) :
    unescape refs (w ++ rest) = c :: unescape refs rest := by
  cases hw with
  | reference hr => exact unescape_reference h hr rest
  | itself hc => exact unescape_cons h (h.ne_ampersand hc) rest

/-- What is written is the character or belongs to a reference. -/
theorem mem (hw : Writes refs c w) (hd : d ∈ w) :
    (d = c ∧ c ∉ refs.map Prod.fst) ∨ ∃ p ∈ refs, d ∈ p.2 := by
  cases hw with
  | reference hr => exact Or.inr ⟨_, hr, hd⟩
  | itself hc => exact Or.inl ⟨List.mem_singleton.mp hd, hc⟩

/-- In front of a text whose ampersands all begin references, a written character adds at most one
ampersand, and that begins a reference too. -/
theorem ampersandsRefer_append (h : WellFormed refs) (hw : Writes refs c w) {t : Text}
    (ht : AmpersandsRefer refs t) : AmpersandsRefer refs (w ++ t) := by
  intro before after heq
  rcases List.append_eq_append_iff.mp heq with ⟨front, -, hfront⟩ | ⟨back, hback, hafter⟩
  · exact ht front after hfront
  · cases back with
    | nil => exact ht [] after hafter.symm
    | cons d back =>
      -- The ampersand is one of the written characters.
      obtain ⟨rfl, rfl⟩ := List.cons.inj hafter
      cases hw with
      | itself hc =>
        have hmem : '&' ∈ [c] := hback ▸ List.mem_append_right _ List.mem_cons_self
        exact absurd (List.mem_singleton.mp hmem).symm (h.ne_ampersand hc)
      | reference hr =>
        obtain ⟨body, hbody, hfree⟩ := h.exists_body hr
        cases before with
        | nil => exact ⟨_, hr, ⟨t, by rw [hback]; rfl⟩⟩
        | cons e before =>
          obtain ⟨-, hbody⟩ := List.cons.inj (hbody.symm.trans hback)
          exact absurd h.ampersand
            (hfree '&' (hbody ▸ List.mem_append_right _ List.mem_cons_self))

end Writes

/-! ## Writing a text -/

section Texts

variable {write : Char → Text} {image : Char → Char}

/-- **The reader finds what was written.** -/
theorem unescape_flatMap (h : WellFormed refs) (hw : ∀ c, Writes refs (image c) (write c))
    (s : Text) : unescape refs (s.flatMap write) = s.map image := by
  induction s with
  | nil => rfl
  | cons c s ih => rw [List.flatMap_cons, (hw c).unescape_append h, ih, List.map_cons]

theorem ampersandsRefer_flatMap (h : WellFormed refs) (hw : ∀ c, Writes refs (image c) (write c))
    (s : Text) : AmpersandsRefer refs (s.flatMap write) := by
  induction s with
  | nil => exact fun before after heq => absurd heq (by simp)
  | cons c s ih =>
    rw [List.flatMap_cons]
    exact (hw c).ampersandsRefer_append h ih

/-- A character with a reference is not written as it is, unless it is the ampersand. -/
theorem not_mem_flatMap (h : WellFormed refs) (hw : ∀ c, Writes refs (image c) (write c))
    {d : Char} (hd : d ∈ refs.map Prod.fst) (hne : d ≠ '&') (s : Text) : d ∉ s.flatMap write := by
  intro hmem
  obtain ⟨c, -, hmem⟩ := List.mem_flatMap.mp hmem
  rcases (hw c).mem hmem with ⟨rfl, hfree⟩ | ⟨p, hp, hmem⟩
  · exact hfree hd
  · obtain ⟨body, hbody, hfree⟩ := h.exists_body hp
    rw [hbody] at hmem
    rcases List.mem_cons.mp hmem with rfl | hmem
    · exact hne rfl
    · exact hfree d hmem hd

end Texts

end TextOps.Markup
