import Mathlib.Data.List.SplitBy
import TextOps.Proofs.Identifier.Pieces

/-!
# `TextOps/Proofs/Identifier/Split.lean` — the words of an identifier, as lists are split

Any list can be split, and `cutAt` is two ways to do it. To drop the characters at which a text is
cut is `List.splitOn`. To keep them in front is `List.splitBy`, for the relation which says that the
second of two neighbours does not pass: in a longest piece of that kind only the first character can
pass, and where it ends the next one begins with a character that does.

So the words of an identifier can be told without offsets, for delimited and for camel formats
(`pieces`, `words_eq_pieces`).
-/

set_option autoImplicit false

namespace TextOps.CaseFormat

/-! ## Characters that are dropped -/

theorem splitOn_eq (p : Char) (s : Text) :
    s.splitOn p = (cutAt (· == p) false s).first :: (cutAt (· == p) false s).others := by
  rw [List.splitOn]
  induction s with
  | nil => rfl
  | cons c s ih =>
    rw [List.splitOnP_cons_eq_if_modifyHead, ih]
    cases hc : c == p with
    | false =>
      rw [cutAt_cons_of_not (c := c) hc]
      rfl
    | true =>
      rw [cutAt_cons_of_drop (c := c) hc]
      rfl

/-! ## Characters that are kept -/

section Keep

variable (test : Char → Bool)

/-- Pieces that keep the character in front of which they are cut make up the text. -/
theorem flatten_cutAt_of_keep (s : Text) :
    (cutAt test true s).first ++ (cutAt test true s).others.flatten = s := by
  induction s with
  | nil => rfl
  | cons c s ih =>
    cases hc : test c with
    | false => rw [cutAt_cons_of_not hc, List.cons_append, ih]
    | true => rw [cutAt_cons_of_keep hc, List.nil_append, List.flatten_cons, List.cons_append, ih]

/-- Such a piece has that character in front, and no other one like it. -/
theorem test_iff_head_of_mem_cutAt (s : Text) :
    (∀ c ∈ (cutAt test true s).first, test c = false) ∧
      ∀ w ∈ (cutAt test true s).others,
        ∃ c v, w = c :: v ∧ test c = true ∧ ∀ d ∈ v, test d = false := by
  induction s with
  | nil => exact ⟨fun c hc => absurd hc List.not_mem_nil, fun w hw => absurd hw List.not_mem_nil⟩
  | cons d s ih =>
    obtain ⟨hfirst, hothers⟩ := ih
    cases hd : test d with
    | false =>
      rw [cutAt_cons_of_not hd]
      exact ⟨List.forall_mem_cons.mpr ⟨hd, hfirst⟩, hothers⟩
    | true =>
      rw [cutAt_cons_of_keep hd]
      exact ⟨fun c hc => absurd hc List.not_mem_nil,
        List.forall_mem_cons.mpr ⟨⟨d, _, rfl, hd, hfirst⟩, hothers⟩⟩

variable {test} in
theorem isChain_cons_of_not (c : Char) {w : Text} (h : ∀ d ∈ w, test d = false) :
    (c :: w).IsChain fun _ d => (!test d) = true := by
  have hpass : ∀ d ∈ w, (!test d) = true := fun d hd => by rw [h d hd, Bool.not_false]
  refine (List.pairwise_cons.mpr ⟨hpass, ?_⟩).isChain
  exact List.pairwise_of_forall_mem_list fun _ _ d hd => hpass d hd

/-- To cut in front of the characters that pass, the first one excepted, is to take the longest
pieces in which no character behind the first passes. -/
theorem splitBy_eq (c : Char) (s : Text) :
    (c :: s).splitBy (fun _ d => !test d) =
      (c :: (cutAt test true s).first) :: (cutAt test true s).others := by
  obtain ⟨hfirst, hothers⟩ := test_iff_head_of_mem_cutAt test s
  have hflatten : ((c :: (cutAt test true s).first) :: (cutAt test true s).others).flatten =
      c :: s := by rw [List.flatten_cons, List.cons_append, flatten_cutAt_of_keep]
  -- Wherever a piece ends, the next one begins with a character that passes.
  have hends : ∀ v : Text, v ≠ [] → ∀ w ∈ (cutAt test true s).others,
      ∃ (_ : v ≠ []) (hw : w ≠ []), (!test (w.head hw)) = false := by
    intro v hv w hw
    obtain ⟨d, u, rfl, hd, -⟩ := hothers w hw
    exact ⟨hv, List.cons_ne_nil d u, by simp [hd]⟩
  have hne : ∀ w ∈ (cutAt test true s).others, w ≠ [] := by
    intro w hw
    obtain ⟨d, u, rfl, -, -⟩ := hothers w hw
    exact List.cons_ne_nil d u
  rw [← hflatten]
  apply List.splitBy_flatten
  · intro hnil
    rcases List.mem_cons.mp hnil with hnil | hnil
    · cases hnil
    · exact hne [] hnil rfl
  · refine List.forall_mem_cons.mpr ⟨isChain_cons_of_not c hfirst, fun w hw => ?_⟩
    obtain ⟨d, u, rfl, -, hu⟩ := hothers w hw
    exact isChain_cons_of_not d hu
  · refine (List.pairwise_cons.mpr ⟨hends _ (List.cons_ne_nil _ _), ?_⟩).isChain
    exact List.pairwise_of_forall_mem_list fun v hv w hw => hends v (hne v hv) w hw

end Keep

/-! ## Words -/

/-- The words of an identifier, without offsets: between the separators of a delimited format, and
in a camel format cut in front of every upper-case letter but the first character. -/
def pieces (f : CaseFormat) (s : Text) : List Text :=
  match f.separator with
  | [] => if s = [] then [[]] else s.splitBy fun _ d => !d.isUpper
  | p :: _ => s.splitOn p

/-- **The words of an identifier are its pieces.** -/
theorem words_eq_pieces (f : CaseFormat) (s : Text) : f.words s = f.pieces s := by
  rcases f.separator_cases with hf | ⟨p, hf⟩
  · rw [pieces, hf]
    cases s with
    | nil => exact f.words_nil
    | cons c s =>
      rw [words_cons_of_camel hf, ← splitBy_eq]
      rfl
  · rw [pieces, hf, words_of_separator hf, ← splitOn_eq]

/-- A leading capital makes no empty first word. -/
example : upperCamel.pieces ['F', 'o', 'É', 'B', '_'] = [['F', 'o', 'É'], ['B', '_']] := by decide

end TextOps.CaseFormat
