import TextOps.Proofs.CharTest.Edit

/-!
# `TextOps/Proofs/CharTest/Slice.lean` — keeping and replacing by octet offsets

An edit that finds a character to touch copies the octets in front of it and works on the octets from
there on, or from behind it on. The offset of a character is one number and its width is another, and
their sum has to be the offset of the next character; an offset that is none would take a character
apart, or leave the text. Here the two edits are done with offsets and with slices that may not exist
(`retainSliced?`, `replaceSliced?`). Every slice that they ask for exists, and the outcome is that of
the edits on characters.

Both begin with the same search, and what it finds is said once (`sliced_cases`): nothing, or the
split of the text at the character that is found, with the three slices around it.
-/

set_option autoImplicit false

namespace TextOps.CharTest

open Offset

/-- The first passing character of a text, with its offset. -/
def locateFirst? (p : CharTest) (s : Text) : Option (Nat × Char) :=
  (locate Char.utf8Size 0 s).find? fun x => p x.2

/-- Keeps the passing characters. The text is sliced in front of the first one that fails, and behind
it; nothing if one of the slices does not exist. -/
def retainSliced? (p : CharTest) (s : Text) : Option (Edited Text) :=
  match locateFirst? (fun c => !p c) s with
  | none => some (.kept s)
  | some (i, c) => do
    let front ← slice? Char.utf8Size s 0 i
    let rest ← slice? Char.utf8Size s (i + c.utf8Size) (extent Char.utf8Size s)
    return .built (front ++ rest.filter p)

/-- Replaces the passing characters. The text is sliced in front of the first one. -/
def replaceSliced? (p : CharTest) (s r : Text) : Option (Edited Text) :=
  if r.isEmpty then retainSliced? (fun c => !p c) s
  else match locateFirst? p s with
    | none => some (.kept s)
    | some (i, _) => do
      let front ← slice? Char.utf8Size s 0 i
      let rest ← slice? Char.utf8Size s i (extent Char.utf8Size s)
      return .built (front ++ p.substitute r rest)

/-- **What a search by offsets finds.** Either no character passes; or the text is split at the first
one, whose offset and width give the parts as slices. -/
theorem sliced_cases (p : CharTest) (s : Text) :
    (locateFirst? p s = none ∧ s.dropWhile (fun c => !p c) = []) ∨
      ∃ before c after i, locateFirst? p s = some (i, c) ∧
        s.takeWhile (fun c => !p c) = before ∧ s.dropWhile (fun c => !p c) = c :: after ∧
        slice? Char.utf8Size s 0 i = some before ∧
        slice? Char.utf8Size s i (extent Char.utf8Size s) = some (c :: after) ∧
        slice? Char.utf8Size s (i + c.utf8Size) (extent Char.utf8Size s) = some after := by
  rcases none_or_first p s with hnone | ⟨before, c, after, rfl, hbefore, hc⟩
  · have hpass : ∀ c ∈ s, (!p c) = true := by
      intro c hc
      simp [hnone c hc]
    refine Or.inl ⟨?_, List.dropWhile_eq_nil_iff.mpr hpass⟩
    rw [locateFirst?, ← List.append_nil s, find?_locate_append 0 hnone]
    rfl
  · have hpass : ∀ d ∈ before, (!p d) = true := by
      intro d hd
      simp [hbefore d hd]
    have hstop : (!p c) = false := by simp [hc]
    have hfind : locateFirst? p (before ++ c :: after) =
        some (extent Char.utf8Size before, c) := by
      rw [locateFirst?, find?_locate_append 0 hbefore, Nat.zero_add, locate_cons,
        List.find?_cons_of_pos (by simpa using hc)]
    have hfront := slice?_append Char.utf8Size_pos [] before (c :: after)
    have hfrom := slice?_append Char.utf8Size_pos before (c :: after) []
    have hbehind := slice?_append Char.utf8Size_pos (before ++ [c]) after []
    simp only [List.nil_append, List.append_nil, List.append_assoc, List.singleton_append,
      extent_nil, extent_append, extent_cons, Nat.zero_add, Nat.add_zero] at hfront hfrom hbehind
    refine Or.inr ⟨before, c, after, _, hfind, takeWhile_append_cons hpass hstop after,
      dropWhile_append_cons hpass hstop after, hfront, ?_, ?_⟩
    · rw [extent_append, extent_cons]
      exact hfrom
    · rw [extent_append, extent_cons, ← Nat.add_assoc]
      exact hbehind

theorem retainSliced?_eq (p : CharTest) (s : Text) : p.retainSliced? s = some (p.retainFrom s) := by
  have hcases := sliced_cases (fun c => !p c) s
  simp only [Bool.not_not] at hcases
  rw [retainSliced?, retainFrom]
  rcases hcases with ⟨hfind, hdrop⟩ | ⟨before, c, after, i, hfind, htake, hdrop, hfront, -, hbehind⟩
  · rw [hfind, hdrop]
  · rw [hfind, htake, hdrop]
    dsimp only
    rw [hfront, hbehind]
    rfl

theorem replaceSliced?_eq (p : CharTest) (s r : Text) :
    p.replaceSliced? s r = some (p.replaceFrom s r) := by
  rw [replaceSliced?, replaceFrom]
  split
  · exact retainSliced?_eq _ s
  · rcases sliced_cases p s with
      ⟨hfind, hdrop⟩ | ⟨before, c, after, i, hfind, htake, hdrop, hfront, hfrom, -⟩
    · rw [hfind, hdrop]
    · rw [hfind, htake, hdrop]
      dsimp only
      rw [hfront, hfrom]
      rfl

end TextOps.CharTest
