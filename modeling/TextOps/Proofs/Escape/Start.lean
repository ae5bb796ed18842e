import TextOps.Proofs.Escape.Resolution

/-!
# `TextOps/Proofs/Escape/Start.lean` — where the slow path may begin, and what it does from there

The slow path can be told where to begin, for a caller who knows that nothing before that needs a
replacement. It does not check what it is told beyond the one thing that it depends on: the offset
must be a boundary of the input. For octets every offset up to the end is one (`isBoundary_octets`).
For a text it is an offset at which no tail stands (`isBoundary_characters`), so a text can be asked
for its boundaries without being decoded.

From a boundary on, the slow path is escaping of what lies behind it: the octets before it stay, be
there a replacement for them or not.
-/

set_option autoImplicit false

namespace TextOps

/-! ## Boundaries of octets -/

theorem encode_octets (bs : Bytes) : EscapeUnit.encode bs = bs := List.flatMap_singleton' bs

theorem extent_octets (bs : Bytes) : Offset.extent EscapeUnit.width bs = bs.length := by
  rw [EscapeUnit.extent_width, encode_octets]

theorem isBoundary_octets (input : Bytes) (start : Nat) :
    Offset.isBoundary EscapeUnit.width input start = true ↔ start ≤ input.length := by
  rw [Offset.isBoundary_iff]
  constructor
  · rintro ⟨before, after, rfl, rfl⟩
    simp [extent_octets]
  · intro hstart
    refine ⟨input.take start, input.drop start, (List.take_append_drop _ _).symm, ?_⟩
    rw [extent_octets, List.length_take, Nat.min_eq_left hstart]

/-! ## Boundaries of texts -/

namespace Utf8

/-- The first octet of a character is no tail, and all others are. -/
theorem exists_octets (c : Char) :
    ∃ b bs, String.utf8EncodeChar c = b :: bs ∧ isTail b = false ∧ bs.all isTail = true := by
  by_cases hc : c.toNat < 0x80
  · refine ⟨_, [], encodeChar_of_ascii hc, ?_, rfl⟩
    rw [← Bool.not_eq_true, isTail_iff, toNat_ascii hc]
    omega
  · obtain ⟨lead, tails, hoctets, hlead, htails⟩ := exists_lead (c := c) (by omega)
    refine ⟨lead, tails, hoctets, ?_, htails⟩
    have hlead : 192 ≤ lead.toNat := UInt8.le_iff_toNat_le.mp hlead
    rw [← Bool.not_eq_true, isTail_iff]
    omega

theorem any_head?_encode (s : Text) : (encode s).head?.any isTail = false := by
  cases s with
  | nil => rfl
  | cons c s =>
    obtain ⟨b, bs, hoctets, hb, -⟩ := exists_octets c
    simp [hoctets, hb]

/-- An offset of a text is the length of a part of it if it does not lie behind the end and no tail
stands there. -/
theorem exists_split_iff (s : Text) (start : Nat) :
    (∃ before after, s = before ++ after ∧ (encode before).length = start) ↔
      start ≤ (encode s).length ∧ (encode s)[start]?.any isTail = false := by
  constructor
  · rintro ⟨before, after, rfl, rfl⟩
    rw [encode_append, List.getElem?_append_right (Nat.le_refl _), Nat.sub_self,
      ← List.head?_eq_getElem?, List.length_append]
    exact ⟨Nat.le_add_right _ _, any_head?_encode after⟩
  · induction s generalizing start with
    | nil =>
      rintro ⟨hstart, -⟩
      exact ⟨[], [], rfl, (Nat.le_zero.mp hstart).symm⟩
    | cons c s ih =>
      rintro ⟨hstart, htail⟩
      obtain ⟨b, bs, hoctets, -, hbs⟩ := exists_octets c
      rw [encode_cons] at hstart htail
      rw [List.length_append] at hstart
      by_cases hzero : start = 0
      · exact ⟨[], c :: s, rfl, hzero.symm⟩
      by_cases hinside : start < (String.utf8EncodeChar c).length
      · -- Behind the first octet of a character there are only tails.
        rw [List.getElem?_append_left hinside, hoctets] at htail
        obtain ⟨n, rfl⟩ := Nat.exists_eq_succ_of_ne_zero hzero
        have hn : n < bs.length := by simpa [hoctets] using hinside
        have htail' := List.all_eq_true.mp hbs bs[n] (List.getElem_mem hn)
        simp [hn, htail'] at htail
      · rw [List.getElem?_append_right (by omega)] at htail
        obtain ⟨before, after, rfl, hbefore⟩ :=
          ih (start - (String.utf8EncodeChar c).length) ⟨by omega, htail⟩
        refine ⟨c :: before, after, rfl, ?_⟩
        rw [encode_cons, List.length_append, hbefore]
        omega

end Utf8

theorem isBoundary_characters (s : Text) (start : Nat) :
    Offset.isBoundary EscapeUnit.width s start = true ↔
      start ≤ (Utf8.encode s).length ∧ (Utf8.encode s)[start]?.any Utf8.isTail = false := by
  rw [Offset.isBoundary_iff, ← Utf8.exists_split_iff]
  simp only [EscapeUnit.extent_width]
  rfl

/-! ## The slow path -/

section SlowPath

variable {U : Type} [EscapeUnit U] {f : U → Option (List U)}

theorem value_escapeSlow_of_not_boundary {us : List U} {start : Nat}
    (h : Offset.isBoundary EscapeUnit.width us start = false) :
    (escapeSlow f us start).value = .error (EscapeUnit.badStart U start) := by
  rw [escapeSlow, if_neg (by simp [h]), Logged.value_pure]

/-- The slow path fails if it is told to begin elsewhere than at a boundary, and only then. -/
theorem exists_fault_iff [LawfulUnit U] (us : List U) (start : Nat) :
    (∃ fault, (escapeSlow f us start).value = .error fault) ↔
      Offset.isBoundary EscapeUnit.width us start = false := by
  cases h : Offset.isBoundary EscapeUnit.width us start with
  | false => simp [value_escapeSlow_of_not_boundary h]
  | true =>
    obtain ⟨before, after, rfl, rfl⟩ := Offset.isBoundary_iff.mp h
    simp [value_escapeSlow]

end SlowPath

namespace FunctionEscaper

variable (f : UInt8 → Option Bytes)

theorem value_escapeSlow_octets {input : Bytes} {start : Nat} (hstart : start ≤ input.length) :
    ((FunctionEscaper.mk f).escapeSlow input start).value =
      .ok (replacedAfter f (input.take start) (input.drop start)) := by
  have h := TextOps.value_escapeSlow (f := f) (input.take start) (input.drop start)
  rw [List.take_append_drop, extent_octets, List.length_take, Nat.min_eq_left hstart] at h
  exact h

theorem value_value_escapeUnits (input : Bytes) :
    ((FunctionEscaper.mk f).escapeUnits input).value.value = replaceEach f input := by
  rw [value_escapeUnits, value_replacedAfter, List.nil_append]

theorem eq_none_of_mem_take {input : Bytes} {start : Nat}
    (h : start ≤ input.findIdx fun b => (f b).isSome) : ∀ b ∈ input.take start, f b = none := by
  intro b hb
  obtain ⟨i, hi, rfl⟩ := List.mem_take_iff_getElem.mp hb
  have hbefore := List.not_of_lt_findIdx (show i < input.findIdx fun b => (f b).isSome by omega)
  simpa using hbefore

/-- **The slow path on octets** fails for a start behind the end, which it names. From any other start
it keeps the octets before and escapes those behind, whatever there is to replace before. Escaping
goes octet by octet, so the parts of an input can be escaped one by one; and the slow path from the
first replaced octet, or from any one before it, is escaping. **On characters** it fails for a start
behind the end and for one at which the text has a tail. -/
theorem escapeSlow_keeps_front :
    (∀ f : UInt8 → Option Bytes,
      (∀ (input : Bytes) (start : Nat),
        (input.length < start →
          ∃ fault, ((FunctionEscaper.mk f).escapeSlow input start).value = .error fault ∧
            fault.message? =
              some ("escape start out of range: ".toList ++ Numeral.decimal start)) ∧
        (start ≤ input.length →
          ∃ r, ((FunctionEscaper.mk f).escapeSlow input start).value = .ok r ∧
            r.value = input.take start ++
              ((FunctionEscaper.mk f).escapeUnits (input.drop start)).value.value ∧
            (r.isKept = true ↔ ∀ b ∈ input.drop start, f b = none))) ∧
      (∀ a b : Bytes, ((FunctionEscaper.mk f).escapeUnits (a ++ b)).value.value =
        ((FunctionEscaper.mk f).escapeUnits a).value.value ++
          ((FunctionEscaper.mk f).escapeUnits b).value.value) ∧
      (∀ (input : Bytes) (start : Nat), start ≤ input.findIdx (fun b => (f b).isSome) →
        ((FunctionEscaper.mk f).escapeSlow input start).value =
          .ok ((FunctionEscaper.mk f).escapeUnits input).value)) ∧
    (∀ (g : Char → Option Text) (s : Text) (start : Nat),
      (∃ fault, ((FunctionEscaper.mk g).escapeSlow s start).value = .error fault) ↔
        (Utf8.encode s).length < start ∨ (Utf8.encode s)[start]?.any Utf8.isTail = true) := by
  refine ⟨fun f => ⟨fun input start => ⟨?fails, ?splits⟩, ?append, ?escapes⟩, ?characters⟩
  case fails =>
    intro hstart
    have hboundary : Offset.isBoundary EscapeUnit.width input start = false := by
      rw [← Bool.not_eq_true, isBoundary_octets]
      omega
    exact ⟨.startOutOfRange start, value_escapeSlow_of_not_boundary hboundary, rfl⟩
  case splits =>
    intro hstart
    refine ⟨_, value_escapeSlow_octets f hstart, ?_, isKept_replacedAfter _ _⟩
    rw [value_replacedAfter, value_value_escapeUnits]
  case append =>
    intro a b
    simp only [value_value_escapeUnits, replaceEach, List.flatMap_append]
  case escapes =>
    intro input start hfirst
    have hstart : start ≤ input.length := Nat.le_trans hfirst List.findIdx_le_length
    rw [value_escapeSlow_octets f hstart, replacedAfter_of_before (eq_none_of_mem_take f hfirst),
      List.take_append_drop, value_escapeUnits]
  case characters =>
    intro g s start
    rw [escapeSlow, exists_fault_iff, ← Bool.not_eq_true, isBoundary_characters]
    cases (Utf8.encode s)[start]?.any Utf8.isTail <;> simp

/-- A start behind one of two octets that are replaced, one in front of both, and one far outside. -/
theorem escapeSlow_keeps_front_exclamation :
    let e : FunctionEscaper UInt8 := ⟨fun b => if b = 0x21 then some [0x3F, 0x3F] else none⟩
    let input : Bytes := [0x61, 0x21, 0xC3, 0x21]
    (input.length < UInt64.size - 1 ∧
      ∃ fault, (e.escapeSlow input (UInt64.size - 1)).value = .error fault ∧
        fault.message? =
          some ("escape start out of range: ".toList ++ Numeral.decimal (UInt64.size - 1))) ∧
    (2 ≤ input.length ∧
      ∃ r, (e.escapeSlow input 2).value = .ok r ∧
        r.value = input.take 2 ++ (e.escapeUnits (input.drop 2)).value.value ∧
        (r.isKept = true ↔ ∀ b ∈ input.drop 2, e.replace b = none)) ∧
    (1 ≤ input.findIdx (fun b => (e.replace b).isSome) ∧
      (e.escapeSlow input 1).value = .ok (e.escapeUnits input).value) := by
  intro e input
  obtain ⟨hparts, -, hescapes⟩ := escapeSlow_keeps_front.1 e.replace
  have hbehind : input.length < UInt64.size - 1 := by decide
  have hinside : 2 ≤ input.length := by decide
  have hfirst : 1 ≤ input.findIdx (fun b => (e.replace b).isSome) := by decide
  exact ⟨⟨hbehind, (hparts input _).1 hbehind⟩, ⟨hinside, (hparts input 2).2 hinside⟩,
    ⟨hfirst, hescapes input 1 hfirst⟩⟩

end FunctionEscaper

end TextOps
