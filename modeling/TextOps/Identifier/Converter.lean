import TextOps.Identifier.Convert
import TextOps.Script

/-!
# `TextOps/Identifier/Converter.lean` — conversions as values

A `Converter` is a pair of formats that can be kept, turned round and shown. A script works on one
*current* converter and remembers the text it converted last, so that a conversion can be followed
by another one of its result.
-/

set_option autoImplicit false

namespace TextOps

/-- A conversion between two formats. -/
structure Converter where
  /-- The format that texts are read in. -/
  source : CaseFormat
  /-- The format that texts are written in. -/
  target : CaseFormat
deriving DecidableEq, Repr

def CaseFormat.converterTo (source target : CaseFormat) : Converter := ⟨source, target⟩

namespace Converter

def convert (c : Converter) (s : Text) : Edited Text := c.source.convert c.target s

def reverse (c : Converter) : Converter := c.target.converterTo c.source

def description (c : Converter) : String :=
  c.source.name ++ ".converter_to(" ++ c.target.name ++ ")"

/-- One step of a script. -/
inductive Step where
  | convert (s : Text)
  | convertLast
  | reverse
  /-- Keeps the source format and takes a new target. -/
  | retarget (f : CaseFormat)
  | source
  | target
  | describe
  /-- Asks whether the current converter is the one the script began with. -/
  | isFirst

/-- What a step reports. -/
inductive Outcome where
  | converted (r : Edited Text)
  | described (description : String)
  | format (f : CaseFormat)
  | flag (b : Bool)

/-- Where a script stands. -/
structure State where
  /-- The converter that the script began with. -/
  first : Converter
  current : Converter
  /-- The text of the latest conversion; nothing at the beginning. -/
  last : Text

/-- The beginning of a script. -/
def State.start (c : Converter) : State := ⟨c, c, []⟩

/-- Converts a text with the current converter and remembers the outcome. -/
def State.convert (st : State) (s : Text) : State × Outcome :=
  let r := st.current.convert s
  (⟨st.first, st.current, r.value⟩, .converted r)

/-- Makes a converter the current one and shows it. -/
def State.use (st : State) (c : Converter) : State × Outcome :=
  (⟨st.first, c, st.last⟩, .described c.description)

/-- Runs a step: the state after it and what it reports. -/
def Step.run (st : State) : Step → State × Outcome
  | .convert s => st.convert s
  | .convertLast => st.convert st.last
  | .reverse => st.use st.current.reverse
  | .retarget f => st.use (st.current.source.converterTo f)
  | .source => (st, .format st.current.source)
  | .target => (st, .format st.current.target)
  | .describe => (st, .described st.current.description)
  | .isFirst => (st, .flag (st.current == st.first))

/-- Runs a script from the given state: the state at the end, and what the steps report. -/
def runScript : State → List Step → State × List Outcome := runSteps Step.run

end Converter

end TextOps
