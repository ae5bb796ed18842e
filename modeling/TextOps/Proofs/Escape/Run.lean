import TextOps.Escape.Logged

/-!
# `TextOps/Proofs/Escape/Run.lean` — a run in two parts, and two runs side by side

A run of steps gives a last state, a report for each step, and the events on the way. To run two
scripts one after the other is to run the first and then the second from where the first ended: the
reports and the events are those of the two, in order. And two runs of one script from states that
every step takes in the same way are the same run, as far as anyone can tell from outside.
-/

set_option autoImplicit false

namespace TextOps.Logged

variable {σ ι ρ : Type} {step : σ → ι → Logged (σ × ρ)}

theorem ext {α : Type} {m m' : Logged α} (hvalue : m.value = m'.value)
    (hevents : m.events = m'.events) : m = m' := by
  cases m
  cases m'
  obtain rfl := hvalue
  obtain rfl := hevents
  rfl

theorem value_runSteps_cons (st : σ) (i : ι) (is : List ι) :
    (runSteps step st (i :: is)).value =
      ((runSteps step (step st i).value.1 is).value.1,
        (step st i).value.2 :: (runSteps step (step st i).value.1 is).value.2) := rfl

theorem events_runSteps_cons (st : σ) (i : ι) (is : List ι) :
    (runSteps step st (i :: is)).events =
      (step st i).events ++ (runSteps step (step st i).value.1 is).events := by
  rw [runSteps, events_bind, events_bind, events_pure, List.append_nil]

theorem runSteps_pair {f g : σ → σ} {i j : ι} {a b : ρ} (hi : ∀ st, step st i = pure (f st, a))
    (hj : ∀ st, step st j = pure (g st, b)) (st : σ) :
    runSteps step st [i, j] = pure (g (f st), [a, b]) := by
  simp only [runSteps, hi, hj]
  rfl

/-! ## One script after another -/

theorem value_runSteps_append (st : σ) (is js : List ι) :
    (runSteps step st (is ++ js)).value =
      ((runSteps step (runSteps step st is).value.1 js).value.1,
        (runSteps step st is).value.2 ++
          (runSteps step (runSteps step st is).value.1 js).value.2) := by
  induction is generalizing st with
  | nil => rfl
  | cons i is ih =>
    rw [List.cons_append, value_runSteps_cons, ih, value_runSteps_cons]
    rfl

theorem events_runSteps_append (st : σ) (is js : List ι) :
    (runSteps step st (is ++ js)).events =
      (runSteps step st is).events ++ (runSteps step (runSteps step st is).value.1 js).events := by
  induction is generalizing st with
  | nil => rfl
  | cons i is ih =>
    rw [List.cons_append, events_runSteps_cons, ih, events_runSteps_cons, value_runSteps_cons,
      List.append_assoc]

theorem length_reports (st : σ) (is : List ι) :
    (runSteps step st is).value.2.length = is.length := by
  induction is generalizing st with
  | nil => rfl
  | cons i is ih => rw [value_runSteps_cons, List.length_cons, ih, List.length_cons]

/-- What each step preserves, a run preserves. -/
theorem runSteps_induction {I : List ι → σ → Prop} {st : σ} (hstart : I [] st)
    (hstep : ∀ past st i, I past st → I (i :: past) (step st i).value.1) (is : List ι) :
    I is.reverse (runSteps step st is).value.1 := by
  -- The past is read with its latest step first, so it grows in front of any earlier one.
  suffices h : ∀ past st, I past st → I (is.reverse ++ past) (runSteps step st is).value.1 by
    have h := h [] st hstart
    rwa [List.append_nil] at h
  intro past st hpast
  induction is generalizing past st with
  | nil => exact hpast
  | cons i is ih =>
    rw [value_runSteps_cons, List.reverse_cons, List.append_assoc]
    exact ih _ _ (hstep past st i hpast)

/-! ## Two runs of one script -/

/-- Two steps from different states that look the same: equal reports, equal events, and related
states again. -/
structure Alike (R : σ → σ → Prop) (m m' : Logged (σ × ρ)) : Prop where
  state : R m.value.1 m'.value.1
  reports : m.value.2 = m'.value.2
  events : m.events = m'.events

/-- Seen from outside, by the reports and the events, they are the same. -/
theorem Alike.map_snd_eq {R : σ → σ → Prop} {m m' : Logged (σ × ρ)} (h : Alike R m m') :
    Prod.snd <$> m = Prod.snd <$> m' := by
  have hvalue : (Prod.snd <$> m).value = (Prod.snd <$> m').value := h.reports
  have hevents : (Prod.snd <$> m).events = (Prod.snd <$> m').events := by
    rw [events_map, events_map, h.events]
  exact ext hvalue hevents

theorem Alike.append {R : σ → σ → Prop} {st st' : σ} {is is' js js' : List ι}
    (h : Alike R (runSteps step st is) (runSteps step st' is'))
    (hnext : ∀ st st', R st st' → Alike R (runSteps step st js) (runSteps step st' js')) :
    Alike R (runSteps step st (is ++ js)) (runSteps step st' (is' ++ js')) := by
  have hnext := hnext _ _ h.state
  constructor
  · rw [value_runSteps_append, value_runSteps_append]
    exact hnext.state
  · rw [value_runSteps_append, value_runSteps_append, h.reports, hnext.reports]
  · rw [events_runSteps_append, events_runSteps_append, h.events, hnext.events]

theorem Alike.runSteps {R : σ → σ → Prop}
    (hstep : ∀ st st' i, R st st' → Alike R (step st i) (step st' i)) {st st' : σ} (h : R st st')
    (is : List ι) : Alike R (runSteps step st is) (Logged.runSteps step st' is) := by
  induction is generalizing st st' with
  | nil => exact ⟨h, rfl, rfl⟩
  | cons i is ih =>
    have hfirst := hstep st st' i h
    have hrest := ih hfirst.state
    constructor
    · exact hrest.state
    · rw [value_runSteps_cons, value_runSteps_cons, hfirst.reports, hrest.reports]
    · rw [events_runSteps_cons, events_runSteps_cons, hfirst.events, hrest.events]

/-- Nothing that a script reports tells which of the two steps comes first. -/
def Exchangeable (step : σ → ι → Logged (σ × ρ)) (st : σ) (i j : ι) : Prop :=
  ∀ before after, Prod.snd <$> runSteps step st (before ++ ([i, j] ++ after)) =
    Prod.snd <$> runSteps step st (before ++ ([j, i] ++ after))

theorem Alike.exchangeable {R : σ → σ → Prop}
    (hstep : ∀ st st' i, R st st' → Alike R (step st i) (step st' i)) {st : σ} (hst : R st st)
    {i j : ι}
    (h : ∀ st st', R st st' →
      Alike R (Logged.runSteps step st [i, j]) (Logged.runSteps step st' [j, i])) :
    Exchangeable step st i j := by
  intro before after
  have hafter : ∀ st st', R st st' → Alike R (Logged.runSteps step st ([i, j] ++ after))
      (Logged.runSteps step st' ([j, i] ++ after)) :=
    fun st st' hst => .append (h st st' hst) fun _ _ hst => .runSteps hstep hst after
  exact (Alike.append (.runSteps hstep hst before) hafter).map_snd_eq

end TextOps.Logged
