import TextOps.Quoted

/-!
# `TextOps/Escape/Event.lean` — what escapers and their builders report while they work

An `Event` is a cause with its data; its level, its message and its fields are functions of it.
-/

set_option autoImplicit false

namespace TextOps

/-- How much attention an event asks for. -/
inductive Level where
  | trace
  | debug
  | warn
deriving DecidableEq, Repr

def Level.name : Level → String
  | trace => "TRACE"
  | debug => "DEBUG"
  | warn => "WARN"

/-- Something worth reporting. -/
inductive Event where
  /-- An escaper began to edit an input of `length` octets at the offset `start`. -/
  | slowPath (start length : Nat)
  /-- A percent escaper was refused because of a character that is safe anyway. -/
  | alphanumericListed (c : Char) (safe : Text)
  /-- A percent escaper was refused because space was both safe and written as a plus sign. -/
  | spaceListed (safe : Text)
  | buildingPercent (safe : Text) (plusForSpace : Bool)
  | buildingChars (mappings : Nat) (low high : Char)
  | buildingBytes (mappings : Nat) (low high : UInt8)
  /-- An escaper of octets without a safe range is being built. -/
  | buildingByteTable (mappings : Nat)
deriving DecidableEq

/-- The value of a field of an event. -/
inductive FieldValue where
  | number (n : Nat)
  | flag (b : Bool)
  | text (s : Text)
deriving DecidableEq

namespace Event

def level : Event → Level
  | slowPath .. => .trace
  | alphanumericListed .. | spaceListed .. => .warn
  | buildingPercent .. | buildingChars .. | buildingBytes .. | buildingByteTable .. => .debug

def message : Event → String
  | slowPath .. => "escape slow path"
  | alphanumericListed .. => "alphanumeric listed as percent-escaper safe"
  | spaceListed .. => "space listed as safe with plus_for_space"
  | buildingPercent .. => "building percent escaper"
  | buildingChars .. => "building char escaper"
  | buildingBytes .. => "building byte escaper"
  | buildingByteTable .. => "building byte table escaper"

/-- The fields of an event, by name. -/
def fields : Event → List (String × FieldValue)
  | slowPath start length => [("start", .number start), ("len", .number length)]
  | alphanumericListed c safe => [("c", .text (quoted c)), ("safe", .text safe)]
  | spaceListed safe => [("safe", .text safe)]
  | buildingPercent safe plus => [("safe", .text safe), ("plus_for_space", .flag plus)]
  | buildingChars mappings low high =>
    [("mappings", .number mappings), ("safe_min", .text (quoted low)),
      ("safe_max", .text (quoted high))]
  | buildingBytes mappings low high =>
    [("mappings", .number mappings), ("safe_min", .number low.toNat),
      ("safe_max", .number high.toNat)]
  | buildingByteTable mappings => [("mappings", .number mappings)]

/-- What an event looks like to those who read it. -/
structure Shows (e : Event) (level : Level) (message : String)
    (fields : List (String × FieldValue)) : Prop where
  level_eq : e.level = level
  message_eq : e.message = message
  fields_eq : e.fields = fields

theorem slowPath_shows (start length : Nat) :
    (slowPath start length).Shows .trace "escape slow path"
      [("start", .number start), ("len", .number length)] := ⟨rfl, rfl, rfl⟩

theorem buildingChars_shows (mappings : Nat) (low high : Char) :
    (buildingChars mappings low high).Shows .debug "building char escaper"
      [("mappings", .number mappings), ("safe_min", .text (quoted low)),
        ("safe_max", .text (quoted high))] := ⟨rfl, rfl, rfl⟩

theorem buildingBytes_shows (mappings : Nat) (low high : UInt8) :
    (buildingBytes mappings low high).Shows .debug "building byte escaper"
      [("mappings", .number mappings), ("safe_min", .number low.toNat),
        ("safe_max", .number high.toNat)] := ⟨rfl, rfl, rfl⟩

theorem buildingByteTable_shows (mappings : Nat) :
    (buildingByteTable mappings).Shows .debug "building byte table escaper"
      [("mappings", .number mappings)] := ⟨rfl, rfl, rfl⟩

end Event

end TextOps
