import TextOps.Escape.Event
import TextOps.Escape.Fault
import TextOps.Proofs.Numeral
import TextOps.Proofs.Unicode.Lookup

/-!
# `TextOps/Proofs/Quoted.lean` — what is shown of an event or a fault tells which one it is

A character in quotation marks stands for itself, or is one letter behind a backslash, or is named by
its code point. The length tells which of the three it is, so the character can be read back
(`readBody_quotedBody`). Faults and events show texts, numbers and flags besides, which are not
changed. So the wording of a fault tells the fault (`Fault.eq_of_message?`), and the message and the
fields of an event tell the event (`Event.eq_of_shows`): no two different refusals, and no two
different events, look the same to those who read them.

Whether a character may stand for itself is looked up in two tables of ranges, which are in order
(`isPrintable_iff`).
-/

set_option autoImplicit false

namespace TextOps

/-! ## Printable characters -/

namespace Unicode

theorem ascending_glyphlessRanges : Ascending glyphlessRanges := by decide +kernel

theorem ascending_extenderRanges : Ascending extenderRanges := by decide +kernel

/-- A character is printable if it lies in none of the ranges. -/
theorem isPrintable_iff {c : Char} :
    isPrintable c = true ↔ ∀ r, r ∈ glyphlessRanges ∨ r ∈ extenderRanges →
      ¬ (r.1 ≤ c.toNat ∧ c.toNat ≤ r.2) := by
  rw [isPrintable, Bool.and_eq_true, Bool.not_eq_true', Bool.not_eq_true', ← Bool.not_eq_true,
    ← Bool.not_eq_true, inRanges_iff ascending_glyphlessRanges,
    inRanges_iff ascending_extenderRanges]
  constructor
  · rintro ⟨hglyphless, hextender⟩ r (hr | hr) hc
    · exact hglyphless ⟨r, hr, hc⟩
    · exact hextender ⟨r, hr, hc⟩
  · intro h
    constructor
    · rintro ⟨r, hr, hc⟩
      exact h r (Or.inl hr) hc
    · rintro ⟨r, hr, hc⟩
      exact h r (Or.inr hr) hc

end Unicode

/-! ## Quoted characters -/

/-- The character that a letter behind a backslash stands for. -/
def longEscape? (e : Char) : Option Char :=
  if e = '0' then some '\x00'
  else if e = 't' then some '\t'
  else if e = 'r' then some '\r'
  else if e = 'n' then some '\n'
  else if e = '\x5c' || e = '\x27' then some e
  else none

/-- Reads what stands between quotation marks. -/
def readBody : Text → Option Char
  | [] => none
  | [c] => some c
  | [_, e] => longEscape? e
  | _ :: _ :: _ :: digits =>
    some (Char.ofNat (Numeral.ofUpperHex (digits.dropLast.map Char.toUpper)))

theorem longEscape?_of_shortEscape? {c e : Char} (h : shortEscape? c = some e) :
    longEscape? e = some c := by
  simp only [shortEscape?] at h
  split_ifs at h with hnul htab hreturn hline hself
  · cases h
    rw [hnul]
    rfl
  · cases h
    rw [htab]
    rfl
  · cases h
    rw [hreturn]
    rfl
  · cases h
    rw [hline]
    rfl
  · cases h
    simp only [Bool.or_eq_true, decide_eq_true_eq] at hself
    rcases hself with rfl | rfl
    · rfl
    · rfl

theorem readBody_named (ds : List Char) :
    readBody (['\x5c', 'u', '\x7b'] ++ ds ++ ['\x7d']) =
      some (Char.ofNat (Numeral.ofUpperHex (ds.map Char.toUpper))) := by
  show some (Char.ofNat (Numeral.ofUpperHex ((ds ++ ['\x7d']).dropLast.map Char.toUpper))) = _
  rw [List.dropLast_concat]

@[simp] theorem readBody_quotedBody (c : Char) : readBody (quotedBody c) = some c := by
  unfold quotedBody
  split
  · next e he => exact longEscape?_of_shortEscape? he
  · split
    · rfl
    · -- The digits are in lower case, and an upper-case numeral is just those digits raised.
      have hraised : (Numeral.lowerHex c.toNat).map Char.toUpper = Numeral.upperHex c.toNat := rfl
      rw [readBody_named, hraised, Numeral.ofUpperHex_upperHex, Char.ofNat_toNat]

/-- **A character can be told from its quotation.** -/
theorem quoted_injective : Function.Injective quoted := by
  intro c d h
  have hbody : quotedBody c = quotedBody d :=
    List.append_cancel_left (List.append_cancel_right h)
  have hread := congrArg readBody hbody
  rw [readBody_quotedBody, readBody_quotedBody] at hread
  exact Option.some.inj hread

@[simp] theorem quoted_inj {c d : Char} : quoted c = quoted d ↔ c = d :=
  quoted_injective.eq_iff

/-! ## Faults -/

namespace ConfigError

theorem head?_message_alphanumericSafe (c : Char) :
    (alphanumericSafe c).message.head? = some 'a' := rfl

theorem head?_message_plusForSafeSpace : plusForSafeSpace.message.head? = some 'p' := rfl

theorem message_alphanumericSafe_ne (c : Char) :
    (alphanumericSafe c).message ≠ plusForSafeSpace.message := by
  intro h
  have hfirst := congrArg List.head? h
  rw [head?_message_alphanumericSafe, head?_message_plusForSafeSpace] at hfirst
  exact absurd hfirst (by decide)

theorem message_injective : Function.Injective message := by
  intro e f h
  cases e with
  | alphanumericSafe c =>
    cases f with
    | alphanumericSafe d => rw [quoted_injective (List.append_cancel_left h)]
    | plusForSafeSpace => exact absurd h (message_alphanumericSafe_ne c)
  | plusForSafeSpace =>
    cases f with
    | alphanumericSafe d => exact absurd h.symm (message_alphanumericSafe_ne d)
    | plusForSafeSpace => rfl

end ConfigError

namespace Fault

theorem message?_refused_ne (e : ConfigError) (start : Nat) :
    (refused e).message? ≠ (startOutOfRange start).message? := by
  intro h
  have hfirst : e.message.head? = some 'e' := congrArg List.head? (Option.some.inj h)
  cases e with
  | alphanumericSafe c =>
    rw [ConfigError.head?_message_alphanumericSafe] at hfirst
    exact absurd hfirst (by decide)
  | plusForSafeSpace =>
    rw [ConfigError.head?_message_plusForSafeSpace] at hfirst
    exact absurd hfirst (by decide)

/-- **The wording of a fault tells the fault**, if it has a wording of its own. -/
theorem eq_of_message? {f g : Fault} {m : Text} (hf : f.message? = some m)
    (hg : g.message? = some m) : f = g := by
  have h : f.message? = g.message? := hf.trans hg.symm
  cases f with
  | refused e =>
    cases g with
    | refused d => rw [ConfigError.message_injective (Option.some.inj h)]
    | startOutOfRange start => exact absurd h (message?_refused_ne e start)
    | startOffBoundary => exact nomatch hg
  | startOutOfRange start =>
    cases g with
    | refused e => exact absurd h.symm (message?_refused_ne e start)
    | startOutOfRange stop =>
      rw [Numeral.decimal_injective (List.append_cancel_left (Option.some.inj h))]
    | startOffBoundary => exact nomatch hg
  | startOffBoundary => exact nomatch hf

end Fault

/-! ## Events -/

namespace Event

/-- The seven messages differ, so the fields are left to compare for events of one kind only. -/
theorem eq_of_fields_eq {e f : Event} (hmessage : e.message = f.message)
    (hfields : e.fields = f.fields) : e = f := by
  cases e with
  | slowPath start length =>
    cases f with
    | slowPath start' length' => simpa [fields] using hfields
    | _ => simp [message] at hmessage
  | alphanumericListed c safe =>
    cases f with
    | alphanumericListed c' safe' => simpa [fields] using hfields
    | _ => simp [message] at hmessage
  | spaceListed safe =>
    cases f with
    | spaceListed safe' => simpa [fields] using hfields
    | _ => simp [message] at hmessage
  | buildingPercent safe plus =>
    cases f with
    | buildingPercent safe' plus' => simpa [fields] using hfields
    | _ => simp [message] at hmessage
  | buildingChars mappings low high =>
    cases f with
    | buildingChars mappings' low' high' => simpa [fields] using hfields
    | _ => simp [message] at hmessage
  | buildingBytes mappings low high =>
    cases f with
    | buildingBytes mappings' low' high' => simpa [fields, UInt8.toNat_inj] using hfields
    | _ => simp [message] at hmessage
  | buildingByteTable mappings =>
    cases f with
    | buildingByteTable mappings' => simpa [fields] using hfields
    | _ => simp [message] at hmessage

/-- **What is shown of an event tells the event.** -/
theorem eq_of_shows {e f : Event} {level : Level} {message : String}
    {shown : List (String × FieldValue)} (he : e.Shows level message shown)
    (hf : f.Shows level message shown) : e = f :=
  eq_of_fields_eq (he.message_eq.trans hf.message_eq.symm) (he.fields_eq.trans hf.fields_eq.symm)

end Event

end TextOps
