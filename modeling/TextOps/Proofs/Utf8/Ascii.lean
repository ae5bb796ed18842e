import TextOps.Proofs.Utf8
import TextOps.Unicode.Property

/-!
# `TextOps/Proofs/Utf8/Ascii.lean` — ASCII comes through the decoder, whatever stands around it

Octets of any origin may break off inside a sequence, or begin in the middle of one. Whatever they
are, the ASCII characters that are read are the ASCII octets, in order: no octet of ASCII is swallowed
by a sequence that was cut short, and nothing else is read as ASCII.

The second half is what the ranges of the decoder are for. A sequence that has begun can still become
any code point of an interval, from `least` up to `limit`, and each tail that is read narrows it. The
interval of a lead lies above ASCII and holds characters only (`sound_of_opening`), so the intervals
behind it do (`Sound.tail`), and at last the code point that was read does (`Sound.isAscii_ofNat`).
Without the ranges an overlong form would be read as the character that it is a form of, and a
surrogate as U+0000.
-/

set_option autoImplicit false

namespace TextOps.Utf8

theorem isAscii_ofNat {n : Nat} (h : n.isValidChar) :
    Unicode.isAscii (Char.ofNat n) = decide (n < 128) := by
  rw [Unicode.isAscii, Char.ofNat, dif_pos h]
  rfl

/-! ## What a sequence can become -/

/-- How many code points there are to choose from in so many tails. -/
def choices : Nat → Nat
  | 0 => 1
  | n + 1 => 64 * choices n

namespace Partial

/-- The least code point that a sequence can become. -/
def least (p : Partial) : Nat := (p.bits * 64 + (p.low.toNat - 128)) * choices p.more

/-- The first code point that is too great for a sequence. -/
def limit (p : Partial) : Nat := (p.bits * 64 + (p.high.toNat - 128) + 1) * choices p.more

/-- A sequence that goes on with tails, and becomes a character that is not ASCII. -/
structure Sound (p : Partial) : Prop where
  low : 128 ≤ p.low.toNat
  high : p.high.toNat < 192
  least : 128 ≤ p.least
  /-- The interval lies on one side of the surrogates. -/
  limit : p.limit ≤ 0xD800 ∨ 0xE000 ≤ p.least ∧ p.limit ≤ 0x110000

theorem admits_iff {p : Partial} {b : UInt8} :
    p.admits b = true ↔ p.low.toNat ≤ b.toNat ∧ b.toNat ≤ p.high.toNat := by
  simp [admits, UInt8.le_iff_toNat_le]

variable {more bits : Nat} {low high b : UInt8}

/-- The interval behind a tail lies in the one before it. -/
theorem Sound.tail (h : Sound ⟨more + 1, low, high, bits⟩)
    (hb : admits ⟨more + 1, low, high, bits⟩ b = true) :
    Sound ⟨more, 0x80, 0xBF, bits * 64 + b.toNat % 64⟩ := by
  obtain ⟨hlow, hhigh, hleast, hlimit⟩ := h
  obtain ⟨hbl, hbh⟩ := admits_iff.mp hb
  dsimp only at hlow hhigh hbl hbh
  have hbits : b.toNat % 64 = b.toNat - 128 := by omega
  have hleast' : Partial.least ⟨more + 1, low, high, bits⟩ ≤
      Partial.least ⟨more, 0x80, 0xBF, bits * 64 + b.toNat % 64⟩ := by
    simp only [Partial.least, choices]
    rw [← Nat.mul_assoc]
    apply Nat.mul_le_mul_right
    show (bits * 64 + (low.toNat - 128)) * 64 ≤ (bits * 64 + b.toNat % 64) * 64 + 0
    omega
  have hlimit' : Partial.limit ⟨more, 0x80, 0xBF, bits * 64 + b.toNat % 64⟩ ≤
      Partial.limit ⟨more + 1, low, high, bits⟩ := by
    simp only [Partial.limit, choices]
    rw [← Nat.mul_assoc]
    apply Nat.mul_le_mul_right
    show (bits * 64 + b.toNat % 64) * 64 + 63 + 1 ≤ (bits * 64 + (high.toNat - 128) + 1) * 64
    omega
  exact {
    low := Nat.le_refl 128
    high := Nat.lt_succ_self 191
    least := by omega
    limit := by omega }

/-- When nothing more is owed, the interval holds the code point that is read. -/
theorem Sound.isAscii_ofNat (h : Sound ⟨0, low, high, bits⟩)
    (hb : admits ⟨0, low, high, bits⟩ b = true) :
    Unicode.isAscii (Char.ofNat (bits * 64 + b.toNat % 64)) = false := by
  obtain ⟨hlow, hhigh, hleast, hlimit⟩ := h
  obtain ⟨hbl, hbh⟩ := admits_iff.mp hb
  simp only [Partial.least, Partial.limit, choices, Nat.mul_one] at hlow hhigh hleast hlimit hbl hbh
  have hvalid : (bits * 64 + b.toNat % 64).isValidChar := by
    unfold Nat.isValidChar
    omega
  rw [Utf8.isAscii_ofNat hvalid, decide_eq_false_iff_not]
  omega

end Partial

/-- Each row of the table of leads opens an interval of characters above ASCII. -/
theorem sound_of_opening {b : UInt8} {p : Partial} (h : opening b = some p) : p.Sound := by
  unfold opening at h
  simp only [Bool.and_eq_true, decide_eq_true_eq, UInt8.le_iff_toNat_le, ← UInt8.toNat_inj,
    UInt8.reduceToNat] at h
  repeat' split at h
  all_goals cases h
  all_goals constructor <;> simp [Partial.least, Partial.limit, choices] <;> omega

/-! ## What is read -/

/-- The characters of the ASCII octets. -/
def asciiOf (bs : Bytes) : Text := (bs.filter (· < 0x80)).map fun b => Char.ofNat b.toNat

/-- The ASCII characters among pieces, as the pieces are read. -/
def asciiPieces (ps : List Piece) : Text := (ps.map (·.getD replacement)).filter Unicode.isAscii

@[simp] theorem asciiPieces_append (ps qs : List Piece) :
    asciiPieces (ps ++ qs) = asciiPieces ps ++ asciiPieces qs := by
  simp [asciiPieces]

theorem asciiPieces_none_cons (ps : List Piece) : asciiPieces (none :: ps) = asciiPieces ps := rfl

theorem asciiOf_cons (b : UInt8) (bs : Bytes) : asciiOf (b :: bs) = asciiOf [b] ++ asciiOf bs := by
  rw [asciiOf, ← List.singleton_append, List.filter_append, List.map_append, ← asciiOf, ← asciiOf]

/-- Between characters, or inside a sequence that becomes a character above ASCII. -/
def SoundState (st : Option Partial) : Prop := ∀ p, st = some p → p.Sound

theorem soundState_none : SoundState none := by simp [SoundState]

theorem soundState_some {p : Partial} (h : p.Sound) : SoundState (some p) := by
  simpa [SoundState] using h

theorem begin_spec (b : UInt8) :
    asciiPieces (begin b).1 = asciiOf [b] ∧ SoundState (begin b).2 := by
  unfold begin
  split
  · next hb =>
    have hb' : b.toNat < 128 := UInt8.lt_iff_toNat_lt.mp hb
    have hvalid : b.toNat.isValidChar := Or.inl (by omega)
    refine ⟨?_, soundState_none⟩
    simp [asciiPieces, asciiOf, hb, hb', isAscii_ofNat hvalid]
  · next hb =>
    have hnone : asciiOf [b] = [] := by simp [asciiOf, hb]
    rw [hnone]
    split
    · next p hp => exact ⟨rfl, soundState_some (sound_of_opening hp)⟩
    · exact ⟨rfl, soundState_none⟩

/-- **One octet** that is read in any state gives its ASCII character if it has one, and no other. -/
theorem feed_spec {st : Option Partial} (h : SoundState st) (b : UInt8) :
    asciiPieces (feed st b).1 = asciiOf [b] ∧ SoundState (feed st b).2 := by
  cases st with
  | none => exact begin_spec b
  | some p =>
    have hp := h p rfl
    rw [feed]
    split
    · next hb =>
      -- No octet of ASCII continues a sequence.
      obtain ⟨hbl, -⟩ := Partial.admits_iff.mp hb
      have hlow := hp.low
      have hnone : asciiOf [b] = [] := by
        simp [asciiOf, UInt8.lt_iff_toNat_lt]
        omega
      rw [hnone]
      obtain ⟨more, low, high, bits⟩ := p
      cases more with
      | zero =>
        refine ⟨?_, soundState_none⟩
        simp [asciiPieces, hp.isAscii_ofNat hb]
      | succ more => exact ⟨rfl, soundState_some (hp.tail hb)⟩
    · -- The sequence breaks, and the octet is read as if it stood alone.
      rw [asciiPieces_none_cons]
      exact begin_spec b

theorem asciiPieces_pieces (bs : Bytes) :
    ∀ st, SoundState st → asciiPieces (pieces st bs) = asciiOf bs := by
  induction bs with
  | nil =>
    intro st _
    cases st <;> rfl
  | cons b bs ih =>
    intro st h
    obtain ⟨hpieces, hstate⟩ := feed_spec h b
    rw [pieces, asciiPieces_append, hpieces, ih _ hstate, ← asciiOf_cons]

/-- **ASCII comes through.** -/
theorem filter_isAscii_decode (bs : Bytes) : (decode bs).filter Unicode.isAscii = asciiOf bs :=
  asciiPieces_pieces bs none soundState_none

end TextOps.Utf8
