import TextOps.Escape.Request

/-!
# `TextOps/Escape/Workbench.lean` — sequences of steps on a builder

A workbench holds the current builder, the copies of it that were put aside, and the escapers built
so far, which are numbered in the order in which they were built. Steps change the builder, put it
aside or take it back, build, and call what has been built. Whatever is done to the builder, an
escaper that has been built stays as it is.
-/

set_option autoImplicit false

namespace TextOps

/-- A builder at work. -/
structure Workbench (β ε : Type) where
  builder : β
  /-- The copies put aside, the latest one first. -/
  saved : List β
  /-- The escapers built so far, the first one first. -/
  built : List ε

namespace Workbench

variable {β ε : Type}

/-- A workbench with a new builder. -/
def start (builder : β) : Workbench β ε := ⟨builder, [], []⟩

/-- Puts another builder in the place of the current one. -/
def set (w : Workbench β ε) (builder : β) : Workbench β ε := { w with builder := builder }

/-- Puts a copy of the builder aside. -/
def save (w : Workbench β ε) : Workbench β ε := { w with saved := w.builder :: w.saved }

/-- Takes the latest copy back as the builder. -/
def restore (w : Workbench β ε) : Workbench β ε :=
  match w.saved with
  | [] => w
  | b :: rest => { w with builder := b, saved := rest }

def keep (w : Workbench β ε) (e : ε) : Workbench β ε := { w with built := w.built ++ [e] }

end Workbench

/-- What a step reports. -/
inductive StepReport (U : Type) where
  | done
  /-- An escaper was built, and has this number. -/
  | built (n : Nat)
  | replied (a : Reply U)

section

variable {U : Type} [EscapeUnit U] [DecidableEq U]

/-- A step with a builder of escapers with a safe range. -/
inductive Builder.Step (U : Type) where
  | add (u : U) (r : List U)
  | addAll (us : List U) (r : List U)
  | safeRange (low high : U)
  | replaceOthers (r : Option (List U))
  | reset
  | save
  | restore
  | build
  | buildWith (fallback : U → Option (List U))
  | call (n : Nat) (q : Request U)

/-- Runs a step: the workbench after it and what it reports. -/
def Builder.Step.run (w : Workbench (Builder U) (RangeEscaper U)) :
    Builder.Step U → Logged (Workbench (Builder U) (RangeEscaper U) × StepReport U)
  | .add u r => pure (w.set (w.builder.add u r), .done)
  | .addAll us r => pure (w.set (w.builder.addAll us r), .done)
  | .safeRange low high => pure (w.set (w.builder.safeRange low high), .done)
  | .replaceOthers r => pure (w.set (w.builder.replaceOthers r), .done)
  | .reset => pure (w.set .new, .done)
  | .save => pure (w.save, .done)
  | .restore => pure (w.restore, .done)
  | .build => do return (w.keep (← w.builder.build), .built w.built.length)
  | .buildWith fallback => do
    return (w.keep (← w.builder.buildWith fallback), .built w.built.length)
  | .call n q =>
    match w.built[n]? with
    | some e => do return (w, .replied (← e.reply q))
    | none => pure (w, .replied .unsupported)

/-- Runs steps from the given workbench: the workbench at the end, and what the steps report. -/
def Builder.runScript : Workbench (Builder U) (RangeEscaper U) → List (Builder.Step U) →
    Logged (Workbench (Builder U) (RangeEscaper U) × List (StepReport U)) :=
  Logged.runSteps Builder.Step.run

end

/-- A step with mappings of octets, from which escapers of two kinds can be built. -/
inductive Mappings.Step where
  | add (b : UInt8) (r : Bytes)
  | addAll (bs : Bytes) (r : Bytes)
  | reset
  | save
  | restore
  | build
  /-- Makes an escaper with a safe range on the table of the mappings. -/
  | buildRange (low high : UInt8) (fallback : UInt8 → Option Bytes)
  | table (q : TableQuery UInt8)
  | call (n : Nat) (q : Request UInt8)

/-- Runs a step: the workbench after it and what it reports. -/
def Mappings.Step.run (w : Workbench (Mappings UInt8) ByteEscaper) :
    Mappings.Step → Logged (Workbench (Mappings UInt8) ByteEscaper × StepReport UInt8)
  | .add b r => pure (w.set (w.builder.add b r), .done)
  | .addAll bs r => pure (w.set (w.builder.addAll bs r), .done)
  | .reset => pure (w.set .empty, .done)
  | .save => pure (w.save, .done)
  | .restore => pure (w.restore, .done)
  | .build => do return (w.keep (.table (← w.builder.toEscaper)), .built w.built.length)
  | .buildRange low high fallback =>
    pure (w.keep (.range (.make w.builder.toTable low high fallback)), .built w.built.length)
  | .table q => pure (w, .replied (w.builder.toTable.reply q))
  | .call n q =>
    match w.built[n]? with
    | some e => do return (w, .replied (← e.reply q))
    | none => pure (w, .replied .unsupported)

/-- Runs steps from the given workbench: the workbench at the end, and what the steps report. -/
def Mappings.runScript : Workbench (Mappings UInt8) ByteEscaper → List Mappings.Step →
    Logged (Workbench (Mappings UInt8) ByteEscaper × List (StepReport UInt8)) :=
  Logged.runSteps Mappings.Step.run

end TextOps
