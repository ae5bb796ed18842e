import TextOps.Proofs.Identifier.Respell
import TextOps.Proofs.Identifier.Split

/-!
# `TextOps/Proofs/Identifier/Pass.lean` — the general conversion by offsets

The words of an identifier are cut out by octet offsets, and an offset may be out of order, beyond
the end, or inside a character. Between two such offsets there is no text (`Offset.slice?`). Here it
is shown that no such offset is ever used.

The same conversion can be done in a single pass over the boundary characters, with no more to
remember than what is written and the offset at which the unfinished word began (`pass`). As long as
that is zero, the unfinished word is the first one. At an upper-case letter at the very start of a
camel identifier an empty first word is written; the next word begins at zero again, so that it
counts as the first, and what was written is dropped.

The boundaries of an identifier cut it into words that are slices of it (`exists_cuts`). From there
the words (`mapM_slice?_spans`) and the pass (`run_of_cuts`) are one induction each, without
characters.
-/

set_option autoImplicit false

namespace TextOps.CaseFormat

open Offset

/-! ## The words are slices -/

theorem mapM_slice?_of_cuts {skip start : Nat} {s w : Text} {js : List Nat} {ws : List Text}
    (h : Cuts skip s start js w ws) :
    (spansFrom skip (extent Char.utf8Size s) start js).mapM
      (fun span => slice? Char.utf8Size s span.1 span.2) = some (w :: ws) := by
  induction h with
  | last hw =>
    rw [spansFrom, List.mapM_cons, hw]
    rfl
  | next hj hw _ ih =>
    rw [spansFrom, if_neg hj, List.mapM_cons, hw, ih]
    rfl
  | stay hskip _ ih => rw [spansFrom, if_pos (by rw [hskip]), ih]

/-- **The words of an identifier are slices of its text**: each of them stands between two
boundaries in the right order. -/
theorem mapM_slice?_spans (f : CaseFormat) (s : Text) :
    (f.spans s).mapM (fun span => slice? Char.utf8Size s span.1 span.2) = some (f.words s) := by
  obtain ⟨w, ws, hwords, hcuts⟩ := f.exists_cuts s
  rw [hwords]
  exact mapM_slice?_of_cuts hcuts

/-! ## The conversion in one pass -/

/-- Where a pass stands. -/
structure Pass where
  written : Text
  /-- The offset at which the unfinished word begins. As long as it is zero this is the first word,
  whatever is written. -/
  start : Nat

namespace Pass

/-- The step at the boundary with offset `j`: the unfinished word ends there. -/
def meet (source target : CaseFormat) (s : Text) (st : Pass) (j : Nat) : Option Pass := do
  let front ←
    if st.start = 0 then (slice? Char.utf8Size s 0 j).map target.spellFirst
    else (slice? Char.utf8Size s st.start j).map fun w => st.written ++ target.spellWord w
  return ⟨front ++ target.separator, j + extent Char.utf8Size source.separator⟩

/-- The end of the text: the unfinished word is the last. -/
def finish (target : CaseFormat) (s : Text) (st : Pass) : Option Text :=
  if st.start = 0 then some (target.spellFirst s)
  else (slice? Char.utf8Size s st.start (extent Char.utf8Size s)).map fun w =>
    st.written ++ target.spellWord w

/-- What is written in the end, from where the pass stands and the boundaries that are left. -/
def run (source target : CaseFormat) (s : Text) (st : Pass) (js : List Nat) : Option Text := do
  let st ← js.foldlM (meet source target s) st
  st.finish target s

end Pass

/-- The general conversion in one pass; nothing if it asks for a slice that does not exist. -/
def pass (source target : CaseFormat) (s : Text) : Option Text :=
  Pass.run source target s ⟨[], 0⟩ (source.boundaryOffsets s)

namespace Pass

variable {source target : CaseFormat} {s w : Text} {st : Pass}

/-- What is written in the end if the unfinished word is `w` and the words `ws` follow. -/
def completed (target : CaseFormat) (st : Pass) (w : Text) (ws : List Text) : Text :=
  (if st.start = 0 then target.spellFirst w else st.written ++ target.spellWord w) ++
    ws.flatMap fun v => target.separator ++ target.spellWord v

/-- A word that ends is written, and the one behind it is not the first. -/
theorem completed_next {n : Nat} (hn : n ≠ 0) (st : Pass) (w v : Text) (vs : List Text) :
    completed target ⟨completed target st w [] ++ target.separator, n⟩ v vs =
      completed target st w (v :: vs) := by
  rw [completed, if_neg hn, completed, completed, List.flatMap_nil, List.append_nil,
    List.flatMap_cons, List.append_assoc, List.append_assoc, List.append_assoc]

theorem meet_eq {j : Nat} (h : slice? Char.utf8Size s st.start j = some w) :
    meet source target s st j = some ⟨completed target st w [] ++ target.separator,
      j + extent Char.utf8Size source.separator⟩ := by
  rw [meet, completed, List.flatMap_nil, List.append_nil]
  by_cases hstart : st.start = 0
  · rw [hstart] at h
    rw [if_pos hstart, if_pos hstart, h]
    rfl
  · rw [if_neg hstart, if_neg hstart, h]
    rfl

theorem finish_eq (h : slice? Char.utf8Size s st.start (extent Char.utf8Size s) = some w) :
    finish target s st = some (completed target st w []) := by
  rw [finish, completed, List.flatMap_nil, List.append_nil]
  by_cases hstart : st.start = 0
  · -- From zero to the end is the whole text.
    have hwhole := slice?_pending [] s []
    rw [List.nil_append, List.append_nil] at hwhole
    rw [hstart] at h
    rw [if_pos hstart, if_pos hstart, Option.some.inj (h.symm.trans hwhole)]
  · rw [if_neg hstart, if_neg hstart, h]
    rfl

theorem run_cons {st' : Pass} {j : Nat} (h : meet source target s st j = some st') (js : List Nat) :
    run source target s st (j :: js) = run source target s st' js := by
  rw [run, List.foldlM_cons, h]
  rfl

/-- **A pass over boundaries that cut the text** writes the words that they cut out. -/
theorem run_of_cuts {start : Nat} {js : List Nat} {ws : List Text}
    (h : Cuts (extent Char.utf8Size source.separator) s start js w ws) (written : Text) :
    run source target s ⟨written, start⟩ js = some (completed target ⟨written, start⟩ w ws) := by
  induction h generalizing written with
  | last hw => exact finish_eq hw
  | next hj hw _ ih => rw [run_cons (meet_eq hw), ih, completed_next hj]
  | stay hskip _ ih =>
    -- An empty first word is written, and does not count: the pass still stands at zero.
    rw [run_cons (meet_eq (slice?_pending [] [] s)), hskip]
    exact ih _

end Pass

theorem pass_eq (f g : CaseFormat) (s : Text) : f.pass g s = some (f.respell g s) := by
  obtain ⟨w, ws, hwords, hcuts⟩ := f.exists_cuts s
  rw [pass, Pass.run_of_cuts hcuts, respell, hwords]
  rfl

/-- **The general conversion** writes the pieces of a text: the first one as a first word, and each
other one behind the separator. It cuts them out as slices that exist, and so does the pass over the
boundaries, which writes the same. -/
theorem respell_pieces (f g : CaseFormat) (s : Text) :
    f.pass g s = some (f.respell g s) ∧
      (f.spans s).mapM (fun span => slice? Char.utf8Size s span.1 span.2) = some (f.pieces s) ∧
      ∃ w ws, f.pieces s = w :: ws ∧
        f.respell g s = g.spellFirst w ++ ws.flatMap fun v => g.separator ++ g.spellWord v := by
  rw [← words_eq_pieces]
  refine ⟨pass_eq f g s, mapM_slice?_spans f s, ?_⟩
  obtain ⟨w, ws, hws⟩ := f.exists_words_cons s
  refine ⟨w, ws, hws, ?_⟩
  rw [respell, hws, spell]

end TextOps.CaseFormat
