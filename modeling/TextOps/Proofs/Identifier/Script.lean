import TextOps.Identifier.Converter
import TextOps.Proofs.Identifier.RoundTrip
import TextOps.Proofs.SelfDelimiting

/-!
# `TextOps/Proofs/Identifier/Script.lean` — where a script of conversions stands

A script has three things in hand: the converter that it began with, the current one, and the text of
the latest conversion. The first never changes, the second is changed by two kinds of steps in a way
that can be read off them, and the third is read off what has been reported (`runScript_state`). So
each conversion that is reported is one with the converter that the steps before it lead to
(`of_converted`).

To turn the converter round, take a new target and convert once more is to go on from the format that
the text is in (`hop`). A list of words that every format can spell is never lost that way, however
many formats it is carried through (`runScript_hops`).
-/

set_option autoImplicit false

namespace TextOps

/-! ## Converters -/

namespace CaseFormat

theorem mem_all (f : CaseFormat) : f ∈ all := by
  cases f <;> decide

theorem name_injective : Function.Injective name := by
  have hall : ∀ f ∈ all, ∀ g ∈ all, f.name = g.name → f = g := by decide
  intro f g h
  exact hall f f.mem_all g g.mem_all h

/-- No name has the point that follows it in a description. -/
theorem not_mem_name (f : CaseFormat) : '.' ∉ f.name.toList := by
  cases f <;> decide

end CaseFormat

namespace Converter

@[simp] theorem reverse_reverse (c : Converter) : c.reverse.reverse = c := rfl

/-- **A description tells which converter it describes.** -/
theorem description_injective : Function.Injective description := by
  intro c d h
  have hlist : ∀ c : Converter, c.description.toList =
      c.source.name.toList ++ '.' :: ("converter_to(".toList ++ c.target.name.toList ++ [')']) := by
    intro c
    simp [description]
  have htext := congrArg String.toList h
  rw [hlist, hlist] at htext
  have hname := eq_of_append_cons_eq c.source.not_mem_name d.source.not_mem_name htext
  have hsource : c.source = d.source :=
    CaseFormat.name_injective (String.toList_inj.mp hname)
  rw [hname, List.append_cancel_left_eq, List.cons.injEq, List.append_cancel_right_eq,
    List.append_cancel_left_eq] at htext
  have htarget : c.target = d.target := CaseFormat.name_injective (String.toList_inj.mp htext.2)
  cases c
  cases d
  obtain rfl := hsource
  obtain rfl := htarget
  rfl

/-! ## Steps -/

/-- The current converter after a step. -/
def Step.change : Step → Converter → Converter
  | .reverse, c => c.reverse
  | .retarget f, c => c.source.converterTo f
  | _, c => c

/-- The current converter after some steps. -/
def currentAfter (c : Converter) (steps : List Step) : Converter :=
  steps.foldl (fun c s => s.change c) c

/-- The text of a reported conversion. -/
def Outcome.text? : Outcome → Option Text
  | .converted r => some r.value
  | _ => none

/-- The text of the latest conversion that has been reported, or `t` if there has been none. -/
def latestText (t : Text) (outcomes : List Outcome) : Text :=
  outcomes.foldl (fun t o => o.text?.getD t) t

/-- **What a step does** to what is in hand. -/
theorem Step.run_state (st : State) (s : Step) :
    (s.run st).1 = ⟨st.first, s.change st.current, (s.run st).2.text?.getD st.last⟩ := by
  cases s <;> rfl

/-- **What a script does** to what is in hand. -/
theorem runScript_state (st : State) (steps : List Step) :
    (runScript st steps).1 =
      ⟨st.first, currentAfter st.current steps, latestText st.last (runScript st steps).2⟩ := by
  induction steps generalizing st with
  | nil => rfl
  | cons s steps ih =>
    have hfirst : (s.run st).1.first = st.first := by rw [s.run_state]
    have hcurrent : (s.run st).1.current = s.change st.current := by rw [s.run_state]
    have hlast : (s.run st).1.last = (s.run st).2.text?.getD st.last := by rw [s.run_state]
    show (runScript (s.run st).1 steps).1 = _
    rw [ih, hfirst, hcurrent, hlast]
    rfl

theorem runScript_append (st : State) (steps more : List Step) :
    (runScript st (steps ++ more)).1 = (runScript (runScript st steps).1 more).1 := by
  have happend : runScript st (steps ++ more) = _ := runSteps_append st steps more
  rw [happend]
  rfl

/-- A step that reports a conversion converts a text of its own or the latest one. -/
theorem Step.of_converted {st : State} {s : Step} {r : Edited Text}
    (h : (s.run st).2 = .converted r) :
    ∃ t, r = st.current.convert t ∧ (s = .convert t ∨ s = .convertLast ∧ t = st.last) := by
  cases s with
  | convert t => exact ⟨t, (Outcome.converted.inj h).symm, Or.inl rfl⟩
  | convertLast => exact ⟨st.last, (Outcome.converted.inj h).symm, Or.inr ⟨rfl, rfl⟩⟩
  | reverse | retarget | source | target | describe | isFirst => exact nomatch h

/-- **Each reported conversion** is one with the converter that the steps before it lead to, of a text
that is named or of the one that was converted last before it. -/
theorem of_converted {st : State} {steps : List Step} {n : Nat} {r : Edited Text}
    (h : (runScript st steps).2[n]? = some (.converted r)) :
    ∃ t, r = (currentAfter st.current (steps.take n)).convert t ∧
      (steps[n]? = some (.convert t) ∨
        steps[n]? = some .convertLast ∧
          t = latestText st.last (runScript st (steps.take n)).2) := by
  obtain ⟨s, hs, hrun⟩ := Option.map_eq_some_iff.mp ((getElem?_runSteps st steps n).symm.trans h)
  obtain ⟨t, hr, htext⟩ := Step.of_converted hrun
  have hstate := runScript_state st (steps.take n)
  have hcurrent := congrArg State.current hstate
  have hlast := congrArg State.last hstate
  refine ⟨t, hr.trans (congrArg (·.convert t) hcurrent), ?_⟩
  rw [hs]
  rcases htext with rfl | ⟨rfl, ht⟩
  · exact Or.inl rfl
  · exact Or.inr ⟨rfl, ht.trans hlast⟩

/-- **A script knows its first converter** by what it shows: the question whether the current converter
is the first one is answered as if the two descriptions were compared. -/
theorem isFirst_runScript (c : Converter) (steps : List Step) :
    (Step.isFirst.run (runScript (.start c) steps).1).2 =
      .flag (decide ((currentAfter c steps).description = c.description)) := by
  have hflag : (currentAfter c steps == c) =
      decide ((currentAfter c steps).description = c.description) := by
    rw [Bool.eq_iff_iff, beq_iff_eq, decide_eq_true_iff]
    exact description_injective.eq_iff.symm
  rw [runScript_state, ← hflag]
  rfl

/-! ## From format to format -/

section Hops

open CaseFormat

variable {ws : List Text}

/-- The steps that go on to the format `f` from the one that the latest text is in. -/
def hop (f : CaseFormat) : List Step := [.reverse, .retarget f, .convertLast]

/-- The latest text is the spelling of the words in the target format. -/
def State.Spells (st : State) (ws : List Text) : Prop := st.last = st.current.target.spell ws

theorem runScript_hop {st : State} (hws : WellFormed ws) (h : st.Spells ws) (f : CaseFormat) :
    (runScript st (hop f)).1.Spells ws ∧ (runScript st (hop f)).1.current.target = f := by
  refine ⟨?_, rfl⟩
  show (st.current.target.convert f st.last).value = f.spell ws
  rw [h]
  exact hws.value_convert_spell st.current.target f

/-- **A list of words that every format can spell is never lost**: carried through any formats, it
ends as the spelling in the last of them. -/
theorem runScript_hops (hws : WellFormed ws) (fs : List CaseFormat) {st : State}
    (h : st.Spells ws) :
    (runScript st (fs.flatMap hop)).1.Spells ws ∧
      (runScript st (fs.flatMap hop)).1.current.target = fs.getLast?.getD st.current.target := by
  induction fs generalizing st with
  | nil => exact ⟨h, rfl⟩
  | cons f fs ih =>
    obtain ⟨hspells, htarget⟩ := runScript_hop hws h f
    rw [List.flatMap_cons, runScript_append, List.getLast?_cons, Option.getD_some, ← htarget]
    exact ih hspells

/-- From a spelling in its source format, a converter starts a script that carries the words on. -/
theorem last_runScript_hops (hws : WellFormed ws) (c : Converter) (fs : List CaseFormat) :
    (runScript (.start c) (.convert (c.source.spell ws) :: fs.flatMap hop)).1.last =
      (fs.getLast?.getD c.target).spell ws := by
  have hstart : (Step.run (.start c) (.convert (c.source.spell ws))).1.Spells ws :=
    hws.value_convert_spell c.source c.target
  obtain ⟨hspells, htarget⟩ := runScript_hops hws fs hstart
  exact hspells.trans (congrArg (CaseFormat.spell · ws) htarget)

end Hops

end Converter

end TextOps
