import TextOps.Utf8

/-!
# `TextOps/Proofs/Utf8.lean` — decoding takes encoding back

The decoder is written for octets of any origin. On the octets of a text it must find the text
again, with nothing broken: from between two characters it reads the octets of one character, gives
that character, and is between two characters again (`pieces_encodeChar`). The round trip of a whole
text is an induction on that.

An octet of an encoding is a lead or a tail. The code point is cut into groups of six bits, each
tail carries one group, and what the lead restricts is the group of the first tail: no overlong form
(`E0`, `F0`), no surrogate (`ED`), nothing above U+10FFFF (`F4`). The code point of a character meets
each of these restrictions, and that is all arithmetic.
-/

set_option autoImplicit false

namespace TextOps.Utf8

/-! ## Encoding -/

@[simp] theorem encode_nil : encode [] = [] := rfl

@[simp] theorem encode_cons (c : Char) (s : Text) :
    encode (c :: s) = String.utf8EncodeChar c ++ encode s := List.flatMap_cons

@[simp] theorem encode_singleton (c : Char) : encode [c] = String.utf8EncodeChar c :=
  List.append_nil _

@[simp] theorem encode_append (s t : Text) : encode (s ++ t) = encode s ++ encode t :=
  List.flatMap_append

/-! ## Lead octets -/

theorem toNat_ascii {n : Nat} (h : n < 128) : (UInt8.ofNat n).toNat = n :=
  UInt8.toNat_ofNat_of_lt' (Nat.lt_trans h (by decide))

theorem pieces_ascii {n : Nat} (h : n < 128) (bs : Bytes) :
    pieces none (UInt8.ofNat n :: bs) = some (Char.ofNat n) :: pieces none bs := by
  have hb := toNat_ascii h
  have hbegin : begin (UInt8.ofNat n) = ([some (Char.ofNat n)], none) := by
    rw [begin, if_pos (UInt8.lt_iff_toNat_lt.mpr (hb.symm ▸ h)), hb]
  rw [pieces, feed, hbegin, List.singleton_append]

theorem pieces_open {b : UInt8} {p : Partial} (h : begin b = ([], some p)) (bs : Bytes) :
    pieces none (b :: bs) = pieces (some p) bs := by
  rw [pieces, feed, h, List.nil_append]

theorem begin_two : ∀ n < 32, 2 ≤ n →
    begin (UInt8.ofNat (n + 192)) = ([], some ⟨0, 0x80, 0xBF, n⟩) := by decide

/-- A lead of three octets restricts the next one after `E0` and after `ED`. -/
theorem begin_three : ∀ n < 16, begin (UInt8.ofNat (n + 224)) =
    ([], some ⟨1, if n = 0 then 0xA0 else 0x80, if n = 13 then 0x9F else 0xBF, n⟩) := by decide

/-- A lead of four octets restricts the next one after `F0` and after `F4`. -/
theorem begin_four : ∀ n < 5, begin (UInt8.ofNat (n + 240)) =
    ([], some ⟨2, if n = 0 then 0x90 else 0x80, if n = 4 then 0x8F else 0xBF, n⟩) := by decide

/-! ## Tail octets -/

/-- The tail that carries `x` is within the range that a sequence allows. -/
def Fits (p : Partial) (x : Nat) : Prop := x < 64 ∧ p.low.toNat ≤ x + 128 ∧ x + 128 ≤ p.high.toNat

theorem toNat_tail {x : Nat} (hx : x < 64) : (UInt8.ofNat (x + 128)).toNat = x + 128 :=
  UInt8.toNat_ofNat_of_lt' (show x + 128 < 256 by omega)

/-- A tail that fits is read, and its six bits are what it carries. -/
theorem admits_tail {p : Partial} {x : Nat} (h : Fits p x) :
    p.admits (UInt8.ofNat (x + 128)) = true ∧ (UInt8.ofNat (x + 128)).toNat % 64 = x := by
  obtain ⟨hx, hlow, hhigh⟩ := h
  constructor
  · rw [Partial.admits, Bool.and_eq_true, decide_eq_true_iff, decide_eq_true_iff,
      UInt8.le_iff_toNat_le, UInt8.le_iff_toNat_le, toNat_tail hx]
    exact ⟨hlow, hhigh⟩
  · rw [toNat_tail hx]
    omega

/-- The last tail completes the character. -/
theorem pieces_last {low high : UInt8} {bits x : Nat} (h : Fits ⟨0, low, high, bits⟩ x)
    (bs : Bytes) :
    pieces (some ⟨0, low, high, bits⟩) (UInt8.ofNat (x + 128) :: bs) =
      some (Char.ofNat (bits * 64 + x)) :: pieces none bs := by
  obtain ⟨hadmits, hbits⟩ := admits_tail h
  have hfeed : feed (some ⟨0, low, high, bits⟩) (UInt8.ofNat (x + 128)) =
      ([some (Char.ofNat (bits * 64 + x))], none) := by
    refine (if_pos hadmits).trans ?_
    dsimp only
    rw [hbits]
  rw [pieces, hfeed, List.singleton_append]

/-- Any other tail adds its six bits, and the one after it is not restricted. -/
theorem pieces_more {more bits x : Nat} {low high : UInt8} (h : Fits ⟨more + 1, low, high, bits⟩ x)
    (bs : Bytes) :
    pieces (some ⟨more + 1, low, high, bits⟩) (UInt8.ofNat (x + 128) :: bs) =
      pieces (some ⟨more, 0x80, 0xBF, bits * 64 + x⟩) bs := by
  obtain ⟨hadmits, hbits⟩ := admits_tail h
  have hfeed : feed (some ⟨more + 1, low, high, bits⟩) (UInt8.ofNat (x + 128)) =
      ([], some ⟨more, 0x80, 0xBF, bits * 64 + x⟩) := by
    refine (if_pos hadmits).trans ?_
    dsimp only
    rw [hbits]
  rw [pieces, hfeed, List.nil_append]

/-- A tail that is not restricted can carry any group of six bits. -/
theorem fits_mod (more bits n : Nat) : Fits ⟨more, 0x80, 0xBF, bits⟩ (n % 64) := by
  have hx : n % 64 < 64 := Nat.mod_lt _ (by decide)
  refine ⟨hx, ?_, ?_⟩
  · show 128 ≤ n % 64 + 128
    omega
  · show n % 64 + 128 ≤ 191
    omega

/-- No code point from U+0800 to U+FFFF is a surrogate, so its first tail fits. -/
theorem fits_three {n : Nat} (hlow : 0x800 ≤ n) (hhigh : n < 0x10000)
    (hvalid : n < 0xD800 ∨ 0xDFFF < n) :
    Fits ⟨1, if n / 4096 = 0 then 0xA0 else 0x80, if n / 4096 = 13 then 0x9F else 0xBF, n / 4096⟩
      (n / 64 % 64) := by
  refine ⟨Nat.mod_lt _ (by decide), ?_, ?_⟩ <;> dsimp only
  · split
    · show 160 ≤ n / 64 % 64 + 128
      omega
    · show 128 ≤ n / 64 % 64 + 128
      omega
  · split
    · show n / 64 % 64 + 128 ≤ 159
      omega
    · show n / 64 % 64 + 128 ≤ 191
      omega

/-- No code point is greater than U+10FFFF, so the first tail of one beyond U+FFFF fits. -/
theorem fits_four {n : Nat} (hlow : 0x10000 ≤ n) (hhigh : n < 0x110000) :
    Fits ⟨2, if n / 262144 = 0 then 0x90 else 0x80, if n / 262144 = 4 then 0x8F else 0xBF,
      n / 262144⟩ (n / 4096 % 64) := by
  refine ⟨Nat.mod_lt _ (by decide), ?_, ?_⟩ <;> dsimp only
  · split
    · show 144 ≤ n / 4096 % 64 + 128
      omega
    · show 128 ≤ n / 4096 % 64 + 128
      omega
  · split
    · show n / 4096 % 64 + 128 ≤ 143
      omega
    · show n / 4096 % 64 + 128 ≤ 191
      omega

/-! ## Whole characters -/

/-- The code point of a character is no surrogate and at most U+10FFFF. -/
theorem codePoint_valid (c : Char) : c.toNat < 0xD800 ∨ 0xDFFF < c.toNat ∧ c.toNat < 0x110000 :=
  c.valid

/-- **Reading the octets of a character** gives the character and nothing else. -/
theorem pieces_encodeChar (c : Char) (bs : Bytes) :
    pieces none (String.utf8EncodeChar c ++ bs) = some c :: pieces none bs := by
  have hvalid := codePoint_valid c
  have hc : Char.ofNat c.toNat = c := Char.ofNat_toNat c
  unfold String.utf8EncodeChar
  rw [Char.toNat_val]
  generalize c.toNat = n at hvalid hc ⊢
  dsimp only
  split
  · next h1 => rw [List.singleton_append, pieces_ascii (by omega), hc]
  · next h1 =>
    split
    · next h2 =>
      have hlead : n / 64 % 32 = n / 64 := by omega
      have hn : n / 64 * 64 + n % 64 = n := by omega
      rw [List.cons_append, List.singleton_append, hlead,
        pieces_open (begin_two _ (by omega) (by omega)), pieces_last (fits_mod _ _ _), hn, hc]
    · next h2 =>
      split
      · next h3 =>
        have hlead : n / 4096 % 16 = n / 4096 := by omega
        have hn : (n / 4096 * 64 + n / 64 % 64) * 64 + n % 64 = n := by omega
        rw [List.cons_append, List.cons_append, List.singleton_append, hlead,
          pieces_open (begin_three _ (by omega)),
          pieces_more (fits_three (by omega) (by omega) (by omega)),
          pieces_last (fits_mod _ _ _), hn, hc]
      · next h3 =>
        have hlead : n / 262144 % 8 = n / 262144 := by omega
        have hn : ((n / 262144 * 64 + n / 4096 % 64) * 64 + n / 64 % 64) * 64 + n % 64 = n := by
          omega
        rw [List.cons_append, List.cons_append, List.cons_append, List.singleton_append, hlead,
          pieces_open (begin_four _ (by omega)), pieces_more (fits_four (by omega) (by omega)),
          pieces_more (fits_mod _ _ _), pieces_last (fits_mod _ _ _), hn, hc]

theorem pieces_encode (s : Text) : pieces none (encode s) = s.map some := by
  induction s with
  | nil => rfl
  | cons c s ih => rw [encode_cons, pieces_encodeChar, ih, List.map_cons]

/-- **Decoding takes encoding back.** -/
@[simp] theorem decode_encode (s : Text) : decode (encode s) = s := by
  rw [decode, pieces_encode, List.map_map]
  exact List.map_id s

theorem encode_injective : Function.Injective encode :=
  Function.LeftInverse.injective decode_encode

/-- Octets that are the encoding of a text. -/
def Valid (bs : Bytes) : Prop := ∃ s, encode s = bs

theorem Valid.encode_decode {bs : Bytes} (h : Valid bs) : encode (decode bs) = bs := by
  obtain ⟨s, rfl⟩ := h
  rw [decode_encode]

theorem valid_encodeChar (c : Char) : Valid (String.utf8EncodeChar c) := ⟨[c], encode_singleton c⟩

theorem Valid.append {bs bs' : Bytes} (h : Valid bs) (h' : Valid bs') : Valid (bs ++ bs') := by
  obtain ⟨s, rfl⟩ := h
  obtain ⟨t, rfl⟩ := h'
  exact ⟨s ++ t, encode_append s t⟩

theorem Valid.flatMap {α : Type} {write : α → Bytes} {xs : List α} (h : ∀ x ∈ xs, Valid (write x)) :
    Valid (xs.flatMap write) := by
  induction xs with
  | nil => exact ⟨[], rfl⟩
  | cons x xs ih =>
    rw [List.flatMap_cons]
    apply Valid.append
    · exact h x List.mem_cons_self
    · exact ih fun y hy => h y (List.mem_cons_of_mem _ hy)

/-- The text that octets are the encoding of, if there is one. -/
def text? (bs : Bytes) : Option Text := if encode (decode bs) = bs then some (decode bs) else none

@[simp] theorem text?_encode (s : Text) : text? (encode s) = some s := by
  simp [text?]

/-! ## ASCII and the rest

The octets below `80` are ASCII characters, and none of them occurs in any other encoding. Those are
a lead of at least `C0` and tails, which lie between. -/

theorem encodeChar_of_ascii {c : Char} (h : c.toNat < 0x80) :
    String.utf8EncodeChar c = [UInt8.ofNat c.toNat] := by
  unfold String.utf8EncodeChar
  rw [Char.toNat_val]
  exact if_pos (by omega)

/-- Whether an octet can only stand inside a character. -/
def isTail (b : UInt8) : Bool := 0x80 ≤ b && b < 0xC0

theorem isTail_iff {b : UInt8} : isTail b = true ↔ 128 ≤ b.toNat ∧ b.toNat < 192 := by
  simp [isTail, UInt8.le_iff_toNat_le, UInt8.lt_iff_toNat_lt]

/-- A character that is not ASCII takes a lead and tails. -/
theorem exists_lead {c : Char} (h : 0x80 ≤ c.toNat) :
    ∃ lead tails, String.utf8EncodeChar c = lead :: tails ∧ 0xC0 ≤ lead ∧
      tails.all isTail = true := by
  have hlead : ∀ n, 192 ≤ n → n < 256 → (0xC0 : UInt8) ≤ UInt8.ofNat n := by
    intro n hlow hhigh
    rw [UInt8.le_iff_toNat_le, UInt8.toNat_ofNat_of_lt' hhigh]
    exact hlow
  have htail : ∀ n, isTail (UInt8.ofNat (n % 64 + 128)) = true := by
    intro n
    rw [isTail_iff, toNat_tail (by omega)]
    omega
  have hvalid := codePoint_valid c
  unfold String.utf8EncodeChar
  rw [Char.toNat_val]
  generalize c.toNat = n at h hvalid ⊢
  dsimp only
  rw [if_neg (by omega)]
  repeat' split
  all_goals
    refine ⟨_, _, rfl, hlead _ (by omega) (by omega), ?_⟩
    simp only [List.all_cons, List.all_nil, htail, Bool.and_self]

theorem le_of_mem_encodeChar {c : Char} (h : 0x80 ≤ c.toNat) :
    ∀ b ∈ String.utf8EncodeChar c, 0x80 ≤ b := by
  obtain ⟨lead, tails, hoctets, hlead, htails⟩ := exists_lead h
  rw [hoctets]
  intro b hb
  rcases List.mem_cons.mp hb with rfl | hb
  · exact UInt8.le_trans (by decide) hlead
  · exact UInt8.le_iff_toNat_le.mpr (isTail_iff.mp (List.all_eq_true.mp htails b hb)).1

end TextOps.Utf8
