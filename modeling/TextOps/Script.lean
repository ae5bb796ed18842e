/-!
# `TextOps/Script.lean` — running steps one after the other

A script is a list of steps. Each step takes the state before it to the state after it and reports
something; the whole script gives the last state and all the reports, in order.

A run of two scripts one after the other is the run of the first and then that of the second, from
where the first ended. So a report belongs to one step, and depends on the steps before it only by
the state that they lead to (`getElem?_runSteps`).
-/

set_option autoImplicit false

namespace TextOps

variable {σ ι ρ : Type}

/-- Runs steps from a given state: the state at the end, and what the steps report. -/
def runSteps (step : σ → ι → σ × ρ) : σ → List ι → σ × List ρ
  | st, [] => (st, [])
  | st, i :: is =>
    let next := step st i
    let rest := runSteps step next.1 is
    (rest.1, next.2 :: rest.2)

variable {step : σ → ι → σ × ρ}

/-- What each step preserves, a script preserves. -/
theorem runSteps_invariant {I : σ → Prop} (hstep : ∀ st i, I st → I (step st i).1) {st : σ}
    (h : I st) (is : List ι) : I (runSteps step st is).1 := by
  induction is generalizing st with
  | nil => exact h
  | cons i is ih => exact ih (hstep st i h)

theorem runSteps_append (st : σ) (is js : List ι) :
    runSteps step st (is ++ js) =
      ((runSteps step (runSteps step st is).1 js).1,
        (runSteps step st is).2 ++ (runSteps step (runSteps step st is).1 js).2) := by
  induction is generalizing st with
  | nil => rfl
  | cons i is ih =>
    rw [List.cons_append, runSteps, ih]
    rfl

/-- **Each report is that of its step**, taken where the steps before it lead. -/
theorem getElem?_runSteps (st : σ) (is : List ι) (n : Nat) :
    (runSteps step st is).2[n]? =
      is[n]?.map fun i => (step (runSteps step st (is.take n)).1 i).2 := by
  induction is generalizing st n with
  | nil => rfl
  | cons i is ih =>
    cases n with
    | zero => rfl
    | succ n => exact ih (step st i).1 n

end TextOps
