import TextOps.Escape.Workbench
import TextOps.Proofs.Escape.Run

/-!
# `TextOps/Proofs/Escape/Lineage.lean` — which changes made a builder what it is

A builder on a workbench is changed, replaced by a new one, put aside, and taken back. Its *lineage*
are the changes that are in it: those since it was new, and for a builder that was taken back, those
that were in it when it was put aside. The lineage is read off the past, from the latest effect
backwards, and without any builder (`lineage`): a reset ends it, and a restore goes on before the
latest save that no restore has taken yet (`beforeSave?`).

`Follows` ties a workbench to a past: the builder reflects the lineage, and the copies put aside
reflect the lineages that a restore would find, the first, the second, and so on. There is one lemma
for each thing that can be done to a workbench. Nothing here knows what a builder is, or when it
reflects its changes.
-/

set_option autoImplicit false

namespace TextOps.Workbench

variable {κ β ε : Type}

/-- What a step does to the builder. -/
inductive Effect (κ : Type) where
  | change (k : κ)
  /-- A new builder takes its place. -/
  | reset
  | save
  | restore
  /-- It is used and stays as it is. -/
  | look

/-! ## The past -/

/-- What lies before the save that a restore takes, in a past with the latest effect first. The
restores met on the way have taken as many later saves, and so have the `taken` ones behind them. -/
def beforeSave? : (taken : Nat) → List (Effect κ) → Option (List (Effect κ))
  | _, [] => none
  | 0, .save :: past => some past
  -- This one has been taken already.
  | n + 1, .save :: past => beforeSave? n past
  | n, .restore :: past => beforeSave? (n + 1) past
  | n, .change _ :: past => beforeSave? n past
  | n, .reset :: past => beforeSave? n past
  | n, .look :: past => beforeSave? n past

section BeforeSave

variable (n : Nat) (past : List (Effect κ))

@[simp] theorem beforeSave?_restore :
    beforeSave? n (.restore :: past) = beforeSave? (n + 1) past := by
  cases n <;> rfl

@[simp] theorem beforeSave?_change (k : κ) :
    beforeSave? n (.change k :: past) = beforeSave? n past := by
  cases n <;> rfl

@[simp] theorem beforeSave?_reset : beforeSave? n (.reset :: past) = beforeSave? n past := by
  cases n <;> rfl

@[simp] theorem beforeSave?_look : beforeSave? n (.look :: past) = beforeSave? n past := by
  cases n <;> rfl

end BeforeSave

theorem length_lt_of_beforeSave? {n : Nat} {past earlier : List (Effect κ)}
    (h : beforeSave? n past = some earlier) : earlier.length < past.length := by
  induction past generalizing n with
  | nil => exact absurd h (by simp [beforeSave?])
  | cons e past ih =>
    rw [List.length_cons]
    cases e with
    | save =>
      cases n with
      | zero =>
        obtain rfl := Option.some.inj h
        exact Nat.lt_succ_self _
      | succ n => exact Nat.lt_succ_of_lt (ih h)
    | restore => exact Nat.lt_succ_of_lt (ih (beforeSave?_restore n past ▸ h))
    | change k => exact Nat.lt_succ_of_lt (ih (beforeSave?_change n past k ▸ h))
    | reset => exact Nat.lt_succ_of_lt (ih (beforeSave?_reset n past ▸ h))
    | look => exact Nat.lt_succ_of_lt (ih (beforeSave?_look n past ▸ h))

/-- The changes that are in the builder, the latest one last, after a past with the latest effect
first. -/
def lineage : List (Effect κ) → List κ
  | [] => []
  | .change k :: past => lineage past ++ [k]
  | .reset :: _ => []
  | .save :: past => lineage past
  | .look :: past => lineage past
  | .restore :: past =>
    match h : beforeSave? 0 past with
    | some earlier =>
      have : earlier.length < past.length := length_lt_of_beforeSave? h
      lineage earlier
    | none => lineage past
termination_by past => past.length
decreasing_by all_goals simp only [List.length_cons]; omega

theorem lineage_restore_of_some {past earlier : List (Effect κ)}
    (h : beforeSave? 0 past = some earlier) : lineage (.restore :: past) = lineage earlier := by
  rw [lineage]
  split
  · next h' => rw [Option.some.inj (h.symm.trans h')]
  · next h' => exact absurd (h.symm.trans h') (Option.some_ne_none _)

theorem lineage_restore_of_none {past : List (Effect κ)} (h : beforeSave? 0 past = none) :
    lineage (.restore :: past) = lineage past := by
  rw [lineage]
  split
  · next h' => exact absurd (h'.symm.trans h) (Option.some_ne_none _)
  · rfl

/-! ## Following a past -/

theorem builder_restore (w : Workbench β ε) : w.restore.builder = w.saved[0]?.getD w.builder := by
  unfold Workbench.restore
  cases w.saved <;> rfl

theorem getElem?_saved_restore (w : Workbench β ε) (n : Nat) :
    w.restore.saved[n]? = w.saved[n + 1]? := by
  unfold Workbench.restore
  cases h : w.saved with
  | nil => rw [h]; rfl
  | cons b rest => rfl

theorem built_restore (w : Workbench β ε) : w.restore.built = w.built := by
  unfold Workbench.restore
  split <;> rfl

/-- The builder reflects the lineage, and so does each copy put aside the lineage that a restore
would find. -/
structure Follows (Reflects : β → List κ → Prop) (w : Workbench β ε) (past : List (Effect κ)) :
    Prop where
  builder : Reflects w.builder (lineage past)
  saved : ∀ n, Option.Rel (fun b earlier => Reflects b (lineage earlier)) w.saved[n]?
    (beforeSave? n past)

namespace Follows

variable {Reflects : β → List κ → Prop} {w : Workbench β ε} {past : List (Effect κ)} {b : β}

theorem start (hb : Reflects b []) : Follows Reflects (start b : Workbench β ε) [] where
  builder := by
    rw [lineage]
    exact hb
  saved _ := .none

theorem change (h : Follows Reflects w past) {k : κ} (hb : Reflects b (lineage past ++ [k])) :
    Follows Reflects (w.set b) (.change k :: past) where
  builder := by
    rw [lineage]
    exact hb
  saved n := by
    rw [beforeSave?_change]
    exact h.saved n

theorem reset (h : Follows Reflects w past) (hb : Reflects b []) :
    Follows Reflects (w.set b) (.reset :: past) where
  builder := by
    rw [lineage]
    exact hb
  saved n := by
    rw [beforeSave?_reset]
    exact h.saved n

theorem look (h : Follows Reflects w past) : Follows Reflects w (.look :: past) where
  builder := by
    rw [lineage]
    exact h.builder
  saved n := by
    rw [beforeSave?_look]
    exact h.saved n

theorem keep (h : Follows Reflects w past) (e : ε) : Follows Reflects (w.keep e) (.look :: past) :=
  ⟨h.look.builder, h.look.saved⟩

/-- The copy that is put aside is the first that a restore would find, and the others move up. -/
theorem save (h : Follows Reflects w past) : Follows Reflects w.save (.save :: past) where
  builder := by
    rw [lineage]
    exact h.builder
  saved n := by
    cases n with
    | zero => exact .some h.builder
    | succ n => exact h.saved n

/-- The builder becomes the first copy, if there is one, and the others move down. -/
theorem restore (h : Follows Reflects w past) : Follows Reflects w.restore (.restore :: past) where
  builder := by
    have hfirst := h.saved 0
    rw [builder_restore]
    generalize w.saved[0]? = first at hfirst
    cases hearlier : beforeSave? 0 past with
    | none =>
      rw [hearlier] at hfirst
      cases hfirst
      rw [lineage_restore_of_none hearlier]
      exact h.builder
    | some earlier =>
      rw [hearlier] at hfirst
      rw [lineage_restore_of_some hearlier]
      cases hfirst with
      | some hb => exact hb
  saved n := by
    rw [beforeSave?_restore, getElem?_saved_restore]
    exact h.saved (n + 1)

/-- If each step does no more to the builder than its effect, a run follows its past. -/
theorem runSteps {ι ρ : Type} {step : Workbench β ε → ι → Logged (Workbench β ε × ρ)}
    {effect : ι → Effect κ}
    (hstep : ∀ w past i, Follows Reflects w past →
      Follows Reflects (step w i).value.1 (effect i :: past))
    (hb : Reflects b []) (is : List ι) :
    Follows Reflects (Logged.runSteps step (Workbench.start b) is).value.1
      (is.reverse.map effect) :=
  Logged.runSteps_induction (I := fun past w => Follows Reflects w (past.map effect)) (start hb)
    (fun past w i h => hstep w (past.map effect) i h) is

end Follows

end TextOps.Workbench
