import Mathlib.Data.List.SplitBy
import TextOps.Proofs.CharTest.Edit

/-!
# `TextOps/Proofs/CharTest/Stretch.lean` — a text as runs and the parts between them

A test cuts a text into *stretches*, its longest pieces in which all characters answer alike. A
stretch of passing characters is a run, and a stretch of failing ones is a part. Here a text is read
in stretches and not in characters: `collapsed` puts one character for each run, `parts` leaves the
runs out, and `stretch_induction` builds a text from its end by one stretch at a time.

The stretches are those of `List.splitBy`, and one fact about it is used. A piece whose characters
answer alike is the first stretch if the rest of the text begins with the other answer, or is empty
(`stretches_append`). What `collapsed` and `parts` do with a run and with a part follows at once.
-/

set_option autoImplicit false

namespace TextOps.CharTest

/-- The longest pieces of a text in which all characters answer alike. -/
def stretches (p : CharTest) (s : Text) : List Text := s.splitBy fun c d => p c == p d

/-- A text with a single `r` for each run. -/
def collapsed (p : CharTest) (r : Char) (s : Text) : Text :=
  (p.stretches s).flatMap fun w => if w.any p then [r] else w

/-- The stretches of a text between its runs. -/
def parts (p : CharTest) (s : Text) : List Text := (p.stretches s).filter fun w => !w.any p

/-- In front of `s` the text `w` is a whole stretch, and its characters answer `b`. -/
structure Stretch (p : CharTest) (b : Bool) (w s : Text) : Prop where
  ne_nil : w ≠ []
  alike : ∀ c ∈ w, p c = b
  /-- The stretch is not continued. -/
  ends : ∀ c ∈ s.head?, p c = !b

variable {p : CharTest} {b : Bool} {r : Char} {w s : Text}

/-! ## The first stretch -/

theorem Stretch.stretches_append (h : p.Stretch b w s) :
    p.stretches (w ++ s) = w :: p.stretches s := by
  have hcut : ∀ c ∈ w.getLast?, ∀ d ∈ s.head?, (p c == p d) = false := by
    intro c hc d hd
    rw [h.alike c (List.mem_of_mem_getLast? hc), h.ends d hd]
    cases b <;> rfl
  have hchain : w.IsChain fun c d => (p c == p d) = true := by
    refine (List.pairwise_of_forall_mem_list fun c hc d hd => ?_).isChain
    rw [h.alike c hc, h.alike d hd, beq_self_eq_true]
  rw [stretches, List.splitBy_append hcut, List.splitBy_of_isChain h.ne_nil hchain]
  rfl

theorem exists_stretch (p : CharTest) (c : Char) (s : Text) :
    ∃ w t, c :: s = w ++ t ∧ p.Stretch (p c) w t := by
  refine ⟨c :: s.takeWhile (p · == p c), s.dropWhile (p · == p c), ?_, List.cons_ne_nil _ _, ?_, ?_⟩
  · rw [List.cons_append, List.takeWhile_append_dropWhile]
  · intro d hd
    rcases List.mem_cons.mp hd with rfl | hd
    · rfl
    · exact beq_iff_eq.mp (List.mem_takeWhile_imp (p := (p · == p c)) hd)
  · intro d hd
    have hstop := List.head?_dropWhile_not (p · == p c) s
    rw [Option.mem_def.mp hd] at hstop
    exact Bool.eq_not_of_ne (beq_eq_false_iff_ne.mp hstop)

/-- **Induction on the stretches of a text.** -/
theorem stretch_induction (p : CharTest) {motive : Text → Prop} (nil : motive [])
    (run : ∀ w s, p.Stretch true w s → motive s → motive (w ++ s))
    (part : ∀ w s, p.Stretch false w s → motive s → motive (w ++ s)) (s : Text) : motive s := by
  induction hn : s.length using Nat.strongRecOn generalizing s with
  | ind n ih =>
    cases s with
    | nil => exact nil
    | cons c s =>
      obtain ⟨w, t, hwt, hw⟩ := p.exists_stretch c s
      have hlt : t.length < n := by
        have hpos := List.length_pos_iff.mpr hw.ne_nil
        rw [← hn, hwt, List.length_append]
        omega
      rw [hwt]
      cases hc : p c with
      | true => exact run w t (hc ▸ hw) (ih t.length hlt t rfl)
      | false => exact part w t (hc ▸ hw) (ih t.length hlt t rfl)

/-! ## Runs and parts -/

theorem Stretch.any_eq (h : p.Stretch b w s) : w.any p = b := by
  cases b with
  | true =>
    obtain ⟨c, hc⟩ := List.exists_mem_of_ne_nil w h.ne_nil
    exact List.any_eq_true.mpr ⟨c, hc, h.alike c hc⟩
  | false => exact List.any_eq_false.mpr fun c hc => by simp [h.alike c hc]

@[simp] theorem collapsed_nil : p.collapsed r [] = [] := rfl

theorem collapsed_run (h : p.Stretch true w s) : p.collapsed r (w ++ s) = r :: p.collapsed r s := by
  rw [collapsed, h.stretches_append, List.flatMap_cons, if_pos h.any_eq]
  rfl

theorem collapsed_part (h : p.Stretch false w s) :
    p.collapsed r (w ++ s) = w ++ p.collapsed r s := by
  rw [collapsed, h.stretches_append, List.flatMap_cons, if_neg (by simp [h.any_eq])]
  rfl

/-- The passing characters of a collapsed text are replacements. -/
theorem eq_of_mem_collapsed {c : Char} (hmem : c ∈ p.collapsed r s) (hc : p c = true) : c = r := by
  obtain ⟨w, -, hw⟩ := List.mem_flatMap.mp hmem
  split at hw
  · exact List.mem_singleton.mp hw
  · next hpart => exact absurd (List.any_eq_true.mpr ⟨c, hw, hc⟩) hpart

@[simp] theorem parts_nil : p.parts [] = [] := rfl

theorem parts_run (h : p.Stretch true w s) : p.parts (w ++ s) = p.parts s := by
  rw [parts, h.stretches_append, List.filter_cons_of_neg (by simp [h.any_eq])]
  rfl

theorem parts_part (h : p.Stretch false w s) : p.parts (w ++ s) = w :: p.parts s := by
  rw [parts, h.stretches_append, List.filter_cons_of_pos (by simp [h.any_eq])]
  rfl

/-- A part has a character, which lies in no run. -/
theorem parts_ne_nil {c : Char} (hmem : c ∈ s) (hc : p c = false) : p.parts s ≠ [] := by
  induction s using p.stretch_induction with
  | nil => exact absurd hmem List.not_mem_nil
  | run w s h ih =>
    rw [parts_run h]
    rcases List.mem_append.mp hmem with hw | hs
    · simp [h.alike c hw] at hc
    · exact ih hs
  | part w s h =>
    rw [parts_part h]
    exact List.cons_ne_nil _ _

/-! ## Passing characters at the ends -/

theorem Stretch.head?_append (h : p.Stretch b w s) : ∀ c ∈ (w ++ s).head?, p c = b := by
  obtain ⟨d, w, rfl⟩ := List.exists_cons_of_ne_nil h.ne_nil
  rintro c ⟨⟩
  exact h.alike d List.mem_cons_self

theorem parts_cons_of_pos {c : Char} (hc : p c = true) (s : Text) :
    p.parts (c :: s) = p.parts s := by
  induction s using p.stretch_induction with
  | nil =>
    have hw : p.Stretch true [c] [] := ⟨List.cons_ne_nil _ _, by simp [hc], by simp⟩
    exact parts_run hw
  | run w s h =>
    have hw : p.Stretch true (c :: w) s :=
      ⟨List.cons_ne_nil _ _, List.forall_mem_cons.mpr ⟨hc, h.alike⟩, h.ends⟩
    rw [← List.cons_append, parts_run hw, parts_run h]
  | part w s h =>
    have hw : p.Stretch true [c] (w ++ s) := ⟨List.cons_ne_nil _ _, by simp [hc], h.head?_append⟩
    exact parts_run hw

theorem parts_concat_of_pos {c : Char} (hc : p c = true) (s : Text) :
    p.parts (s ++ [c]) = p.parts s := by
  induction s using p.stretch_induction with
  | nil => exact parts_cons_of_pos hc []
  | run w s h ih =>
    rw [List.append_assoc, parts_run h, ← ih]
    cases s with
    | nil =>
      -- The character goes on the run.
      have hw : p.Stretch true (w ++ [c]) [] :=
        ⟨by simp, by simpa [hc, or_imp, forall_and] using h.alike, by simp⟩
      rw [List.nil_append, parts_cons_of_pos hc, ← List.append_nil (w ++ [c]), parts_run hw]
    | cons d s =>
      have hw : p.Stretch true w (d :: s ++ [c]) := ⟨h.ne_nil, h.alike, h.ends⟩
      exact parts_run hw
  | part w s h ih =>
    have hw : p.Stretch false w (s ++ [c]) := by
      refine ⟨h.ne_nil, h.alike, ?_⟩
      cases s with
      | nil => simp [hc]
      | cons d s => exact h.ends
    rw [List.append_assoc, parts_part hw, ih, parts_part h]

theorem parts_dropWhile (p : CharTest) (s : Text) : p.parts (s.dropWhile p) = p.parts s := by
  induction s with
  | nil => rfl
  | cons c s ih =>
    cases hc : p c with
    | true => rw [List.dropWhile_cons_of_pos hc, ih, parts_cons_of_pos hc]
    | false => rw [List.dropWhile_cons_of_neg (by simp [hc])]

theorem parts_rdropWhile (p : CharTest) (s : Text) : p.parts (s.rdropWhile p) = p.parts s := by
  induction s using List.reverseRecOn with
  | nil => rfl
  | append_singleton s c ih =>
    cases hc : p c with
    | true => rw [List.rdropWhile_concat_pos p s c hc, ih, parts_concat_of_pos hc]
    | false => rw [List.rdropWhile_concat_neg p s c (by simp [hc])]

theorem parts_trimFrom (p : CharTest) (s : Text) : p.parts (p.trimFrom s) = p.parts s := by
  rw [trimFrom_eq, parts_rdropWhile, parts_dropWhile]

end TextOps.CharTest
