import TextOps.CharClass.Description
import TextOps.CharClass.Expr
import TextOps.CharClass.Query
import TextOps.Script

/-!
# `TextOps/CharClass/Script.lean` — sequences of steps on numbered classes

A script makes classes one after the other and asks about them. Each class that is made goes into
the next register, and later steps refer to it by number. A predicate is tagged with the number of
the register it is made for, which no other predicate of the script can have; copies and combined
classes carry the tag along. So equality of classes is identity on predicates.
-/

set_option autoImplicit false

namespace TextOps.CharClass

variable {Q : Type} [CharPredicate Q]

/-- One step of a script; numbers are register numbers. -/
inductive Step (Q : Type) where
  | make (a : Atom Q)
  | copy (i : Nat)
  | negate (i : Nat)
  | and (i j : Nat)
  | or (i j : Nat)
  | equal (i j : Nat)
  | describe (i : Nat)
  | ask (i : Nat) (q : Query)

/-- What a step reports. -/
inductive Outcome where
  /-- A class was made: its description and its register. -/
  | made (description : Text) (register : Nat)
  | equal (b : Bool)
  | described (description : Text)
  | answered (a : Answer)
  /-- A register was named that holds nothing. -/
  | noRegister

/-- The classes made so far, the first one first. -/
abbrev Registers (Q : Type) := List (CharClass (Shared Q))

/-- The class that a step makes, if it makes one and its operands are there. -/
def Step.made? (regs : Registers Q) : Step Q → Option (CharClass (Shared Q))
  | .make a => some (a.map (Shared.mk regs.length)).build
  | .copy i => regs[i]?
  | .negate i => regs[i]?.map (·.negate)
  | .and i j => do return (← regs[i]?).and (← regs[j]?)
  | .or i j => do return (← regs[i]?).or (← regs[j]?)
  | _ => none

/-- What a step that makes no class reports. -/
def Step.reported [DecidableEq Q] (regs : Registers Q) : Step Q → Option Outcome
  | .equal i j => do return .equal ((← regs[i]?) == (← regs[j]?))
  | .describe i => regs[i]?.map fun m => .described m.description
  | .ask i q => regs[i]?.map fun m => .answered (m.answer q)
  | _ => none

/-- Runs a step: the registers after it and what it reports. -/
def Step.run [DecidableEq Q] (regs : Registers Q) (st : Step Q) : Registers Q × Outcome :=
  match st.made? regs with
  | some m => (regs ++ [m], .made m.description regs.length)
  | none => (regs, (st.reported regs).getD .noRegister)

/-- Runs a script from the given registers: the registers at the end, and what the steps report. -/
def runScript [DecidableEq Q] : Registers Q → List (Step Q) → Registers Q × List Outcome :=
  runSteps Step.run

end TextOps.CharClass
