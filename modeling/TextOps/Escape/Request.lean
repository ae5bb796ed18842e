import TextOps.Escape.Builder
import TextOps.Escape.Percent

/-!
# `TextOps/Escape/Request.lean` — calls on escapers as data

A `Request` names one call on an escaper or on its table, and a `Reply` is what a call gives. What
an escaper reports while it answers is part of the answer (`Logged`), so the events of a session
are the events of its calls, one after the other.

An escaper that has no such call replies `unsupported`. A call through a reference to an escaper, or
through an owner of one, is handed on as it is, so there is no request of its own for it.
-/

set_option autoImplicit false

namespace TextOps

/-- A question to a table. -/
inductive TableQuery (U : Type) where
  | size
  | isEmpty
  | get (u : U)

/-- A call on an escaper. -/
inductive Request (U : Type) where
  | escape (s : Text)
  | escapeUnit (u : U)
  | escapeUnits (us : List U)
  | escapeSlow (us : List U) (start : Nat)
  | isSafe (u : U)
  | table (q : TableQuery U)
  | describe

/-- The answer to a call. -/
inductive Reply (U : Type) where
  | text (r : Edited Text)
  | units (r : Edited (List U))
  | replacement (r : Option (List U))
  | flag (b : Bool)
  | count (n : Nat)
  | described (description : String)
  | fault (f : Fault)
  | unsupported

namespace Reply

variable {U : Type}

/-- The reply to a call that gives units or fails. -/
def ofUnits : Except Fault (Edited (List U)) → Reply U
  | .ok r => units r
  | .error f => fault f

end Reply

def Table.reply {U : Type} [EscapeUnit U] (t : Table U) : TableQuery U → Reply U
  | .size => .count t.size
  | .isEmpty => .flag t.isEmpty
  | .get u => .replacement (t.get? u)

section

variable {U : Type} [EscapeUnit U]

def RangeEscaper.reply (e : RangeEscaper U) : Request U → Logged (Reply U)
  | .escape s => .text <$> e.escape s
  | .escapeUnit u => pure (.replacement (e.replace u))
  | .escapeUnits us => .units <$> e.escapeUnits us
  | .table q => pure (e.table.reply q)
  | _ => pure .unsupported

def TableEscaper.reply (e : TableEscaper U) : Request U → Logged (Reply U)
  | .escape s => .text <$> e.escape s
  | .escapeUnit u => pure (.replacement (e.replace u))
  | .escapeUnits us => .units <$> e.escapeUnits us
  | _ => pure .unsupported

/-- The answer of an escaper by function; `description` is what it shows of itself. -/
def FunctionEscaper.reply (description : String) (e : FunctionEscaper U) :
    Request U → Logged (Reply U)
  | .escape s => .text <$> e.escape s
  | .escapeUnits us => .units <$> e.escapeUnits us
  | .escapeSlow us start => .ofUnits <$> e.escapeSlow us start
  | .describe => pure (.described description)
  | _ => pure .unsupported

def PercentEscaper.reply (e : PercentEscaper) : Request Char → Logged (Reply Char)
  | .escape s => .text <$> e.escape s
  | .escapeUnit c => pure (.replacement (e.replace c))
  | .isSafe c => pure (.flag (e.isSafe c))
  | _ => pure .unsupported

end

inductive CharEscaper where
  /-- Leaves every text alone. -/
  | identity
  | percent (e : PercentEscaper)
  | function (e : FunctionEscaper Char)
  | range (e : RangeEscaper Char)

def CharEscaper.reply : CharEscaper → Request Char → Logged (Reply Char)
  | identity, .escape s => pure (.text (.kept s))
  | identity, _ => pure .unsupported
  | percent e, q => e.reply q
  | function e, q => e.reply "runes::Escaper(..)" q
  | range e, q => e.reply q

inductive ByteEscaper where
  | function (e : FunctionEscaper UInt8)
  | range (e : RangeEscaper UInt8)
  | table (e : TableEscaper UInt8)

def ByteEscaper.reply : ByteEscaper → Request UInt8 → Logged (Reply UInt8)
  | function e, q => e.reply "bytes::Escaper(..)" q
  | range e, q => e.reply q
  | table e, q => e.reply q

/-- The answers to several calls, in order. -/
def replies {U : Type} (reply : Request U → Logged (Reply U)) :
    List (Request U) → Logged (List (Reply U))
  | [] => pure []
  | q :: qs => do
    let a ← reply q
    return a :: (← replies reply qs)

/-- Makes an escaper and calls it, which is all that a caller from outside does. An escaper that
cannot be made ends the session. -/
def session {ε E U : Type} (make : Logged (Except ε E))
    (reply : E → Request U → Logged (Reply U)) (qs : List (Request U)) :
    Logged (Except ε (List (Reply U))) := do
  match ← make with
  | .ok e => Except.ok <$> replies (reply e) qs
  | .error err => return .error err

end TextOps
