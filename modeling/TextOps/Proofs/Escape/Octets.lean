import TextOps.Proofs.Escape.Resolution
import TextOps.Proofs.Utf8.Ascii

/-!
# `TextOps/Proofs/Escape/Octets.lean` — octets of a text, escaped and read as a text again

An escaper of octets replaces each octet on its own, and what it has written is read as a text. If the
octets are the encoding of a text, that text is what is read. They need not be: a lead may be left
without its tails, a tail without its lead, and the octets of two replacements may join into a
sequence that was in neither. What can be relied on even then is ASCII (`Utf8.filter_isAscii_decode`).

A function that treats all octets above ASCII alike keeps characters whole: it leaves each of their
octets, or replaces each by the encoding of a text (`WritesValid`).
-/

set_option autoImplicit false

namespace TextOps

/-- A function on octets that writes encodings of texts only, and that replaces all octets above
ASCII if it replaces any. -/
structure WritesValid (f : UInt8 → Option Bytes) : Prop where
  ascii : ∀ b < 0x80, ∀ r, f b = some r → Utf8.Valid r
  others : (∀ b, 0x80 ≤ b → f b = none) ∨ ∀ b, 0x80 ≤ b → ∃ r, f b = some r ∧ Utf8.Valid r

/-- What is made of the octets of a character is the encoding of a text. -/
theorem WritesValid.replaceEach_encodeChar {f : UInt8 → Option Bytes} (hf : WritesValid f)
    (c : Char) : Utf8.Valid (replaceEach f (String.utf8EncodeChar c)) := by
  by_cases hc : c.toNat < 0x80
  · have hvalid := Utf8.valid_encodeChar c
    have hoctet : UInt8.ofNat c.toNat < 0x80 := by
      rw [UInt8.lt_iff_toNat_lt, Utf8.toNat_ascii hc]
      exact hc
    rw [Utf8.encodeChar_of_ascii hc] at hvalid ⊢
    cases hr : f (UInt8.ofNat c.toNat) with
    | none => simpa [replaceEach, hr] using hvalid
    | some r => simpa [replaceEach, hr] using hf.ascii _ hoctet r hr
  · have hoctets := Utf8.le_of_mem_encodeChar (c := c) (by omega)
    rcases hf.others with hnone | hsome
    · rw [replaceEach_eq_self fun b hb => hnone b (hoctets b hb)]
      exact Utf8.valid_encodeChar c
    · apply Utf8.Valid.flatMap
      intro b hb
      obtain ⟨r, hr, hvalid⟩ := hsome b (hoctets b hb)
      simpa [hr] using hvalid

theorem WritesValid.replaceEach_encode {f : UInt8 → Option Bytes} (hf : WritesValid f) (s : Text) :
    Utf8.Valid (replaceEach f (Utf8.encode s)) := by
  rw [replaceEach, Utf8.encode, List.flatMap_assoc]
  apply Utf8.Valid.flatMap
  intro c _
  exact hf.replaceEach_encodeChar c

/-- What an escaper of octets makes of the octets of a text, and what it makes of the text, if single
octets are replaced by a given function. -/
structure ReadsOctets (f : UInt8 → Option Bytes) (s : Text) (octets : Edited Bytes)
    (text : Edited Text) : Prop where
  isKept_iff : text.isKept = true ↔ ∀ b ∈ Utf8.encode s, f b = none
  isKept_eq : text.isKept = octets.isKept
  /-- Octets that are the encoding of a text are read as that text. -/
  decoded : ∀ t, Utf8.encode t = octets.value → text.value = t
  /-- Whatever the octets are, the ASCII characters of the text are those of the octets. -/
  ascii : text.value.filter Unicode.isAscii = Utf8.asciiOf octets.value
  valid : WritesValid f → Utf8.Valid octets.value

/-- A text that is handed back is what its octets are read as. -/
theorem value_onto_decode {r : Edited Bytes} {s : Text}
    (h : r.isKept = true → r.value = Utf8.encode s) :
    (r.onto s Utf8.decode).value = Utf8.decode r.value := by
  cases r with
  | kept bs =>
    obtain rfl : bs = Utf8.encode s := h rfl
    simp [Edited.onto, Edited.value]
  | built bs => rfl

theorem readsOctets_function (f : UInt8 → Option Bytes) (s : Text) :
    ReadsOctets f s ((FunctionEscaper.mk f).escapeUnits (Utf8.encode s)).value
      ((FunctionEscaper.mk f).escape s).value := by
  have hoctets := FunctionEscaper.value_escapeUnits f (Utf8.encode s)
  have hiff := isKept_replacedAfter (f := f) [] (Utf8.encode s)
  rw [← hoctets] at hiff
  have hkept : ((FunctionEscaper.mk f).escape s).value.isKept =
      ((FunctionEscaper.mk f).escapeUnits (Utf8.encode s)).value.isKept := isKept_escapeText _ s
  have htext : ((FunctionEscaper.mk f).escape s).value.value =
      Utf8.decode ((FunctionEscaper.mk f).escapeUnits (Utf8.encode s)).value.value := by
    apply value_onto_decode
    intro h
    have hnone : ∀ b ∈ Utf8.encode s, f b = none := hiff.mp h
    show ((FunctionEscaper.mk f).escapeUnits (Utf8.encode s)).value.value = Utf8.encode s
    rw [hoctets, value_replacedAfter, List.nil_append, replaceEach_eq_self hnone]
  constructor
  · rw [hkept, hiff]
  · exact hkept
  · intro t ht
    rw [htext, ← ht, Utf8.decode_encode]
  · rw [htext, Utf8.filter_isAscii_decode]
  · intro hf
    rw [hoctets, value_replacedAfter]
    exact hf.replaceEach_encode s

/-- **Escaping octets, as a text.** Whatever the octets are replaced by, the text is handed back
exactly if no octet of it has a replacement; octets that spell a text are read as that text; and the
ASCII characters of the text are the ASCII octets, in order. If all octets above ASCII are treated
alike and encodings of texts are written, the octets spell a text. This holds of escapers by function,
by table and range, and by table alone. -/
theorem escape_readsOctets :
    (∀ (f : UInt8 → Option Bytes) (s : Text),
      ReadsOctets f s ((FunctionEscaper.mk f).escapeUnits (Utf8.encode s)).value
        ((FunctionEscaper.mk f).escape s).value) ∧
    (∀ (pairs : List (UInt8 × Bytes)) (low high : UInt8) (fallback : UInt8 → Option Bytes)
      (s : Text),
      ReadsOctets (resolve pairs low high fallback) s
        ((RangeEscaper.make (.ofPairs pairs) low high fallback).escapeUnits (Utf8.encode s)).value
        ((RangeEscaper.make (.ofPairs pairs) low high fallback).escape s).value) ∧
    (∀ (pairs : List (UInt8 × Bytes)) (s : Text),
      ReadsOctets (latest? pairs) s
        ((TableEscaper.mk (.ofPairs pairs)).escapeUnits (Utf8.encode s)).value
        ((TableEscaper.mk (.ofPairs pairs)).escape s).value) := by
  refine ⟨readsOctets_function, ?range, ?table⟩
  case range =>
    intro pairs low high fallback s
    rw [RangeEscaper.value_escapeUnits_make, RangeEscaper.value_escape_make]
    exact readsOctets_function _ s
  case table =>
    intro pairs s
    rw [TableEscaper.value_escapeUnits_ofPairs, TableEscaper.value_escape_ofPairs]
    exact readsOctets_function _ s

/-- A question mark for each octet above ASCII, so that nothing is broken. -/
theorem escape_readsOctets_question_mark :
    let e : FunctionEscaper UInt8 := ⟨fun b => if 0x80 ≤ b then some [0x3F] else none⟩
    let s : Text := ['a', 'é']
    WritesValid e.replace ∧ Utf8.Valid (e.escapeUnits (Utf8.encode s)).value.value ∧
      Utf8.encode ['a', '?', '?'] = (e.escapeUnits (Utf8.encode s)).value.value ∧
      (e.escape s).value.value = ['a', '?', '?'] := by
  intro e s
  have hvalid : WritesValid e.replace := by
    constructor
    · intro b hb r hr
      exact absurd (hr.symm.trans (if_neg (UInt8.not_le.mpr hb))) nofun
    · refine Or.inr fun b hb => ⟨[0x3F], if_pos hb, ['?'], by decide⟩
  have hoctets : Utf8.encode ['a', '?', '?'] = (e.escapeUnits (Utf8.encode s)).value.value := by
    decide
  have hreads := escape_readsOctets.1 e.replace s
  exact ⟨hvalid, hreads.valid hvalid, hoctets, hreads.decoded _ hoctets⟩

/-- A lead that has lost its tail is read as U+FFFD, and the octet behind it as itself. -/
example :
    ((FunctionEscaper.mk fun b : UInt8 => if b = 0xA9 then some [0x21] else none).escape
      ['a', '©', 'b']).value = .built ['a', '\uFFFD', '!', 'b'] := by decide

end TextOps
