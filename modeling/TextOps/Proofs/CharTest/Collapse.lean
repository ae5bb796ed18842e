import TextOps.CharTest.Collapse
import TextOps.Proofs.CharClass.ShortCut
import TextOps.Proofs.CharTest.Stretch

/-!
# `TextOps/Proofs/CharTest/Collapse.lean` — collapsing, read in runs

Collapsing goes through a text in two phases. As long as every run is a lone `r` nothing has to be
written (`splitAtRun?`); from the first other run on, the rest is written anew (`collapseRest`).
`splitAtRun?_cases` says once what the first phase can find. Either way the text that comes out is
the one that the second phase would have written from the start, and that is the text with a single
`r` for each run (`collapseRest_eq`).

A text is rebuilt only if it changes. The run at which writing begins is either another character
than `r`, or it goes on behind its first character; and then the rest of the text begins with a
passing character, while what is written for it does not (`startsIn_collapseRest`). The same lemma
shows that nothing is left to collapse afterwards, also if `r` itself passes: behind a written `r`
there is never a second passing character.

After trimming a text neither begins nor ends with a run, and the runs inside it stand between two
parts each: what is written are the parts, joined by `r`.
-/

set_option autoImplicit false

namespace TextOps.CharTest

variable {p : CharTest} {r : Char}

/-! ## Writing the rest of a text -/

theorem startsIn_eq_false {s : Text} (h : ∀ c ∈ s.head?, p c = false) : p.startsIn s = false := by
  cases s with
  | nil => rfl
  | cons c s => exact h c rfl

theorem collapseRest_cons_of_not {c : Char} (h : p c = false) (inRun : Bool) (s : Text) :
    p.collapseRest r inRun (c :: s) = c :: p.collapseRest r false s := by
  rw [collapseRest, if_neg (by simp [h])]

theorem collapseRest_cons_in {c : Char} (h : p c = true) (s : Text) :
    p.collapseRest r true (c :: s) = p.collapseRest r true s := by
  rw [collapseRest, if_pos h, if_pos rfl]

theorem collapseRest_cons_out {c : Char} (h : p c = true) (s : Text) :
    p.collapseRest r false (c :: s) = r :: p.collapseRest r true s := by
  rw [collapseRest, if_pos h, if_neg Bool.false_ne_true]

/-- Where no run goes on, it does not matter whether one went before. -/
theorem collapseRest_true_of_not {s : Text} (h : p.startsIn s = false) :
    p.collapseRest r true s = p.collapseRest r false s := by
  cases s with
  | nil => rfl
  | cons c s => rw [collapseRest_cons_of_not h, collapseRest_cons_of_not h]

/-- Inside a run, what is written begins behind the run. -/
theorem startsIn_collapseRest (p : CharTest) (r : Char) (s : Text) :
    p.startsIn (p.collapseRest r true s) = false := by
  induction s with
  | nil => rfl
  | cons c s ih =>
    cases hc : p c with
    | true => rw [collapseRest_cons_in hc, ih]
    | false =>
      rw [collapseRest_cons_of_not hc]
      exact hc

/-! ## Stretch by stretch -/

theorem collapseRest_part {w : Text} (h : ∀ c ∈ w, p c = false) (s : Text) :
    p.collapseRest r false (w ++ s) = w ++ p.collapseRest r false s := by
  induction w with
  | nil => rfl
  | cons c w ih =>
    rw [List.cons_append, collapseRest_cons_of_not (h c List.mem_cons_self),
      ih fun d hd => h d (List.mem_cons_of_mem _ hd), List.cons_append]

theorem collapseRest_run_in {w : Text} (h : ∀ c ∈ w, p c = true) (s : Text) :
    p.collapseRest r true (w ++ s) = p.collapseRest r true s := by
  induction w with
  | nil => rfl
  | cons c w ih =>
    rw [List.cons_append, collapseRest_cons_in (h c List.mem_cons_self),
      ih fun d hd => h d (List.mem_cons_of_mem _ hd)]

/-- **The rest of a text is written with a single `r` for each run.** -/
theorem collapseRest_eq (p : CharTest) (r : Char) (s : Text) :
    p.collapseRest r false s = p.collapsed r s := by
  induction s using p.stretch_induction with
  | nil => rfl
  | run w s h ih =>
    obtain ⟨c, w, rfl⟩ := List.exists_cons_of_ne_nil h.ne_nil
    have hc : p c = true := h.alike c List.mem_cons_self
    have hw : ∀ d ∈ w, p d = true := fun d hd => h.alike d (List.mem_cons_of_mem _ hd)
    -- One `r` is written at the first character, and nothing for the others.
    rw [List.cons_append, collapseRest_cons_out hc, collapseRest_run_in hw,
      collapseRest_true_of_not (startsIn_eq_false h.ends), ih, ← collapsed_run h, List.cons_append]
  | part w s h ih => rw [collapseRest_part h.alike, ih, ← collapsed_part h]

/-! ## The first run that is not collapsed -/

/-- What the first phase finds. Either every run is a lone `r`; or there is a first run that is not,
and then it has another character or a second one. -/
theorem splitAtRun?_cases (p : CharTest) (r : Char) (s : Text) :
    (p.splitAtRun? r s = none ∧ p.collapseRest r false s = s) ∨
      ∃ before c rest, s = before ++ c :: rest ∧ p.splitAtRun? r s = some (before, rest) ∧
        (c = r → p.startsIn rest = true) ∧
        p.collapseRest r false s = before ++ r :: p.collapseRest r true rest := by
  induction s with
  | nil => exact Or.inl ⟨rfl, rfl⟩
  | cons d s ih =>
    by_cases hstop : (p d && !(d == r && !p.startsIn s)) = true
    · -- The run begins here.
      obtain ⟨hd, hrun⟩ := Bool.and_eq_true_iff.mp hstop
      refine Or.inr ⟨[], d, s, rfl, ?_, ?_, ?_⟩
      · rw [splitAtRun?, if_pos hstop]
      · rintro rfl
        simpa using hrun
      · rw [collapseRest_cons_out hd, List.nil_append]
    · -- The character stays: it fails, or it is a lone `r`.
      have hstay : p.collapseRest r false (d :: s) = d :: p.collapseRest r false s := by
        cases hd : p d with
        | false => exact collapseRest_cons_of_not hd false s
        | true =>
          obtain ⟨rfl, hs⟩ : d = r ∧ p.startsIn s = false := by simpa [hd] using hstop
          rw [collapseRest_cons_out hd, collapseRest_true_of_not hs]
      rw [splitAtRun?, if_neg hstop, hstay]
      rcases ih with ⟨hnone, hself⟩ | ⟨before, c, rest, rfl, hsome, hrun, heq⟩
      · exact Or.inl ⟨by rw [hnone, Option.map_none], by rw [hself]⟩
      · refine Or.inr ⟨d :: before, c, rest, rfl, by rw [hsome, Option.map_some], hrun, ?_⟩
        rw [heq, List.cons_append]

/-- What was written has nothing left to collapse. -/
theorem splitAtRun?_collapseRest (p : CharTest) (r : Char) (inRun : Bool) (s : Text) :
    p.splitAtRun? r (p.collapseRest r inRun s) = none := by
  induction s generalizing inRun with
  | nil => rfl
  | cons c s ih =>
    cases hc : p c with
    | false =>
      rw [collapseRest_cons_of_not hc, splitAtRun?, if_neg (by simp [hc]), ih, Option.map_none]
    | true =>
      cases inRun with
      | true => rw [collapseRest_cons_in hc, ih]
      | false =>
        -- A written `r` is a lone one.
        rw [collapseRest_cons_out hc, splitAtRun?,
          if_neg (by simp [startsIn_collapseRest]), ih, Option.map_none]

/-! ## Collapsing -/

theorem value_collapseFrom (p : CharTest) (s : Text) (r : Char) :
    (p.collapseFrom s r).value = p.collapsed r s := by
  rw [← collapseRest_eq, collapseFrom]
  rcases p.splitAtRun?_cases r s with ⟨hnone, hself⟩ | ⟨before, c, rest, -, hsome, -, heq⟩
  · rw [hnone, hself]
    rfl
  · rw [hsome, heq]
    rfl

theorem isKept_collapseFrom_iff (p : CharTest) (s : Text) (r : Char) :
    (p.collapseFrom s r).isKept = true ↔ p.collapsed r s = s := by
  rw [← collapseRest_eq, collapseFrom]
  rcases p.splitAtRun?_cases r s with ⟨hnone, hself⟩ | ⟨before, c, rest, hs, hsome, hrun, heq⟩
  · rw [hnone]
    exact iff_of_true rfl hself
  · rw [hsome]
    refine iff_of_false Bool.false_ne_true fun hself => ?_
    rw [heq, hs] at hself
    obtain ⟨rfl, hrest⟩ := List.cons.inj (List.append_cancel_left hself)
    -- The run would go on behind its first character, in a text that begins behind the run.
    have hstarts := hrun rfl
    rw [← hrest, startsIn_collapseRest] at hstarts
    exact Bool.false_ne_true hstarts

theorem collapseFrom_collapsed (p : CharTest) (r : Char) (s : Text) :
    p.collapseFrom (p.collapsed r s) r = .kept (p.collapsed r s) := by
  rw [← collapseRest_eq, collapseFrom, splitAtRun?_collapseRest]

/-- **Collapsing** puts a single `r` for each run and leaves all other characters where they are. A
text is handed back exactly if that is what it was already, and so is every text that comes out. All
this holds of a class as well, which collapses as its test does. -/
theorem collapseFrom_runs {P : Type} [CharPredicate P] (p : CharTest) (m : CharClass P) (s : Text)
    (r : Char) :
    (p.collapseFrom s r).value = p.collapsed r s ∧
      ((p.collapseFrom s r).isKept = true ↔ (p.collapseFrom s r).value = s) ∧
      p.collapseFrom (p.collapseFrom s r).value r = .kept (p.collapseFrom s r).value ∧
      m.answer (.collapseFrom s r) = .edited (m.test.collapseFrom s r) := by
  rw [value_collapseFrom]
  exact ⟨rfl, isKept_collapseFrom_iff p s r, collapseFrom_collapsed p r s, rfl⟩

/-- Runs at either end, and a lone replacement between two parts. -/
example : CharTest.collapsed (· == '-') '_' ['-', '-', 'x', '-', 'y', '-', '-', '-'] =
    ['_', 'x', '_', 'y', '_'] := by decide

/-! ## Between the ends of a text -/

theorem Stretch.startsIn_append {b : Bool} {w s : Text} (h : p.Stretch b w s) :
    p.startsIn (w ++ s) = b := by
  obtain ⟨c, w, rfl⟩ := List.exists_cons_of_ne_nil h.ne_nil
  exact h.alike c List.mem_cons_self

/-- A text that does not end in a run is its parts, joined by what is written for the runs between
them; and something is written for a run in front as well. -/
theorem collapsed_eq_intercalate {s : Text} (hlast : ∀ c ∈ s.getLast?, p c = false) :
    p.collapsed r s =
      if p.startsIn s then r :: [r].intercalate (p.parts s) else [r].intercalate (p.parts s) := by
  induction s using p.stretch_induction with
  | nil => rfl
  | run w s h ih =>
    have hs : ∀ c ∈ s.getLast?, p c = false := fun c hc =>
      hlast c (List.mem_getLast?_append_of_mem_getLast? hc)
    rw [collapsed_run h, parts_run h, ih hs, startsIn_eq_false h.ends, h.startsIn_append]
    rfl
  | part w s h ih =>
    rw [collapsed_part h, parts_part h, h.startsIn_append, if_neg Bool.false_ne_true]
    cases s with
    | nil => rw [collapsed_nil, parts_nil, List.append_nil, List.intercalate_singleton]
    | cons d s =>
      have hs : ∀ c ∈ (d :: s).getLast?, p c = false := fun c hc =>
        hlast c (List.mem_getLast?_append_of_mem_getLast? hc)
      have hd : p.startsIn (d :: s) = true := h.ends d rfl
      -- The text does not end in the run that begins here, so that a part is still to come.
      have hend := hs _ (List.getLast?_eq_some_getLast (List.cons_ne_nil d s))
      obtain ⟨v, vs, hvs⟩ := List.exists_cons_of_ne_nil (parts_ne_nil (List.getLast_mem _) hend)
      rw [ih hs, if_pos hd, hvs, List.intercalate_cons_cons, List.append_assoc,
        List.singleton_append]

/-- What is written for a text behind another one depends only on whether a run goes on. -/
theorem exists_collapseRest_append (p : CharTest) (r : Char) (inRun : Bool) (s : Text) :
    ∃ inRun', ∀ t, p.collapseRest r inRun (s ++ t) =
      p.collapseRest r inRun s ++ p.collapseRest r inRun' t := by
  induction s generalizing inRun with
  | nil => exact ⟨inRun, fun t => rfl⟩
  | cons c s ih =>
    obtain ⟨after, hafter⟩ := ih (p c)
    refine ⟨after, fun t => ?_⟩
    cases hc : p c with
    | false =>
      rw [hc] at hafter
      rw [List.cons_append, collapseRest_cons_of_not hc, collapseRest_cons_of_not hc, hafter,
        List.cons_append]
    | true =>
      rw [hc] at hafter
      cases inRun with
      | true => rw [List.cons_append, collapseRest_cons_in hc, collapseRest_cons_in hc, hafter]
      | false =>
        rw [List.cons_append, collapseRest_cons_out hc, collapseRest_cons_out hc, hafter,
          List.cons_append]

/-! ## Trimming what was collapsed -/

section Passing

variable (hr : p r = true)
include hr

theorem dropWhile_collapseRest (inRun : Bool) (s : Text) :
    (p.collapseRest r inRun s).dropWhile p = p.collapseRest r false (s.dropWhile p) := by
  induction s generalizing inRun with
  | nil => rfl
  | cons c s ih =>
    cases hc : p c with
    | false =>
      rw [collapseRest_cons_of_not hc, List.dropWhile_cons_of_neg (by simp [hc]),
        List.dropWhile_cons_of_neg (by simp [hc]), collapseRest_cons_of_not hc]
    | true =>
      rw [List.dropWhile_cons_of_pos hc]
      cases inRun with
      | true => rw [collapseRest_cons_in hc, ih]
      | false => rw [collapseRest_cons_out hc, List.dropWhile_cons_of_pos hr, ih]

theorem rdropWhile_collapseRest (inRun : Bool) (s : Text) :
    (p.collapseRest r inRun s).rdropWhile p = p.collapseRest r inRun (s.rdropWhile p) := by
  induction s using List.reverseRecOn with
  | nil => rfl
  | append_singleton s c ih =>
    obtain ⟨after, hafter⟩ := p.exists_collapseRest_append r inRun s
    cases hc : p c with
    | false =>
      rw [List.rdropWhile_concat_neg p s c (by simp [hc]), hafter, collapseRest_cons_of_not hc]
      exact List.rdropWhile_concat_neg p _ c (by simp [hc])
    | true =>
      rw [List.rdropWhile_concat_pos p s c hc, hafter, ← ih]
      cases after with
      | true => rw [collapseRest_cons_in hc, collapseRest, List.append_nil]
      | false =>
        rw [collapseRest_cons_out hc]
        exact List.rdropWhile_concat_pos p _ r hr

/-- If the replacement itself passes, trimming takes away what was written for the runs at the ends:
it makes no difference whether a text is trimmed before it is collapsed or afterwards. -/
theorem trimFrom_collapsed (s : Text) :
    p.trimFrom (p.collapsed r s) = p.collapsed r (p.trimFrom s) := by
  rw [← collapseRest_eq, ← collapseRest_eq, trimFrom_eq, trimFrom_eq, dropWhile_collapseRest hr,
    rdropWhile_collapseRest hr]

end Passing

theorem trimFrom_collapsed_trimFrom (p : CharTest) (r : Char) (s : Text) :
    p.trimFrom (p.collapsed r (p.trimFrom s)) = p.collapsed r (p.trimFrom s) := by
  cases hr : p r with
  | true => rw [trimFrom_collapsed hr, trimFrom_trimFrom]
  | false =>
    refine trimFrom_of_none fun c hmem => ?_
    by_contra hc
    have hpass : p c = true := by simpa using hc
    rw [eq_of_mem_collapsed hmem hpass, hr] at hpass
    exact Bool.false_ne_true hpass

/-! ## Trimming and collapsing -/

theorem value_trimAndCollapseFrom (p : CharTest) (s : Text) (r : Char) :
    (p.trimAndCollapseFrom s r).value = p.collapsed r (p.trimFrom s) :=
  value_collapseFrom p (p.trimFrom s) r

/-- **The parts of a text, joined.** -/
theorem collapsed_trimFrom (p : CharTest) (r : Char) (s : Text) :
    p.collapsed r (p.trimFrom s) = [r].intercalate (p.parts s) := by
  rw [collapsed_eq_intercalate (getLast?_trimFrom p s), startsIn_eq_false (head?_trimFrom p s),
    parts_trimFrom]
  rfl

theorem trimAndCollapseFrom_again (p : CharTest) (s : Text) (r : Char) :
    p.trimAndCollapseFrom (p.collapsed r (p.trimFrom s)) r =
      .kept (p.collapsed r (p.trimFrom s)) := by
  rw [trimAndCollapseFrom, trimFrom_collapsed_trimFrom, collapseFrom_collapsed]

end TextOps.CharTest

namespace TextOps.CharClass

variable {P : Type} [CharPredicate P]

theorem trimAndCollapseFrom_eq (m : CharClass P) (s : Text) (r : Char) :
    m.trimAndCollapseFrom s r = m.test.trimAndCollapseFrom s r := by
  rw [trimAndCollapseFrom, trimFrom_eq]
  rfl

/-- **Trimming and collapsing** leaves the parts between the runs, joined by single `r`s. The text
without its ends is handed back exactly if that is what it was already, and so is every text that
comes out. If `r` is of the class, it does not matter which of the two is done first. -/
theorem trimAndCollapseFrom_parts (m : CharClass P) (s : Text) (r : Char) :
    (m.trimAndCollapseFrom s r).value = [r].intercalate (m.test.parts s) ∧
      ((m.trimAndCollapseFrom s r).isKept = true ↔
        (m.trimAndCollapseFrom s r).value = m.trimFrom s) ∧
      m.trimAndCollapseFrom (m.trimAndCollapseFrom s r).value r =
        .kept (m.trimAndCollapseFrom s r).value ∧
      (m.accepts r = true →
        (m.trimAndCollapseFrom s r).value = m.trimFrom (m.test.collapseFrom s r).value) := by
  rw [trimAndCollapseFrom_eq, trimAndCollapseFrom_eq, trimFrom_eq, trimFrom_eq,
    CharTest.value_trimAndCollapseFrom, CharTest.value_collapseFrom]
  refine ⟨CharTest.collapsed_trimFrom m.test r s, CharTest.isKept_collapseFrom_iff _ _ r,
    CharTest.trimAndCollapseFrom_again m.test s r, fun hr => ?_⟩
  exact (CharTest.trimFrom_collapsed hr s).symm

/-- A replacement of the class itself, and runs of both of its characters. -/
theorem trimAndCollapseFrom_parts_pair :
    (pair '-' '_' : CharClass Empty).accepts '_' = true ∧
      ((pair '-' '_' : CharClass Empty).trimAndCollapseFrom
          ['-', '_', 'x', '-', '-', 'y', '-'] '_').value =
        (pair '-' '_' : CharClass Empty).trimFrom
          ((pair '-' '_' : CharClass Empty).test.collapseFrom
            ['-', '_', 'x', '-', '-', 'y', '-'] '_').value :=
  ⟨rfl, (trimAndCollapseFrom_parts _ _ _).2.2.2 rfl⟩

end TextOps.CharClass
