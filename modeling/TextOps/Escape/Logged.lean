import TextOps.Escape.Event

/-!
# `TextOps/Escape/Logged.lean` — values with the events on the way to them

`Logged` is a value together with the events that were reported before it was reached, in order.
Computations are put in sequence by `bind`, which appends the events of the second to those of the
first; so the events of a run are the events of its parts, one after the other, and that is a
consequence of the monad laws rather than a convention.
-/

set_option autoImplicit false

namespace TextOps

/-- A value, and the events on the way to it. -/
structure Logged (α : Type) where
  value : α
  /-- The events, in order. -/
  events : List Event

namespace Logged

variable {α β σ ι ρ : Type}

instance : Monad Logged where
  pure a := ⟨a, []⟩
  bind m f := ⟨(f m.value).value, m.events ++ (f m.value).events⟩

def report (e : Event) : Logged Unit := ⟨(), [e]⟩

/-! ## The value and the events of each construction -/

@[simp] theorem value_pure (a : α) : (pure a : Logged α).value = a := rfl

@[simp] theorem events_pure (a : α) : (pure a : Logged α).events = [] := rfl

@[simp] theorem value_bind (m : Logged α) (f : α → Logged β) :
    (m >>= f).value = (f m.value).value := rfl

@[simp] theorem events_bind (m : Logged α) (f : α → Logged β) :
    (m >>= f).events = m.events ++ (f m.value).events := rfl

@[simp] theorem value_map (f : α → β) (m : Logged α) : (f <$> m).value = f m.value := rfl

@[simp] theorem events_map (f : α → β) (m : Logged α) : (f <$> m).events = m.events :=
  List.append_nil _

@[simp] theorem events_report (e : Event) : (report e).events = [e] := rfl

/-! ## Steps one after the other -/

/-- Runs steps from a given state: the state at the end, and what the steps report. -/
def runSteps (step : σ → ι → Logged (σ × ρ)) : σ → List ι → Logged (σ × List ρ)
  | st, [] => pure (st, [])
  | st, i :: is => do
    let next ← step st i
    let rest ← runSteps step next.1 is
    return (rest.1, next.2 :: rest.2)

end Logged

end TextOps
