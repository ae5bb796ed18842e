import TextOps.Numeral

/-!
# `TextOps/Proofs/Numeral.lean` — digits determine the number that they stand for

Decimal numerals are read back by the library (`decimal_injective`). Hexadecimal numerals are
written with as many digits as they need, and where there is a least number of places they are
filled with zeros in front. Neither makes two numbers look alike: reading the digits from left to
right gives the number back (`ofUpperHex_leftpad`).
-/

set_option autoImplicit false

namespace TextOps.Numeral

/-- The value of an upper-case hexadecimal digit. -/
def digitValue (d : Char) : Nat := if d ≤ '9' then d.toNat - '0'.toNat else d.toNat - 'A'.toNat + 10

/-- The number that upper-case hexadecimal digits stand for. -/
def ofUpperHex (ds : List Char) : Nat := ds.foldl (fun n d => 16 * n + digitValue d) 0

theorem digitValue_hexDigit : ∀ d < 16, digitValue (hexDigit d) = d := by decide

theorem ofUpperHex_concat (ds : List Char) (d : Char) :
    ofUpperHex (ds ++ [d]) = 16 * ofUpperHex ds + digitValue d := by
  simp [ofUpperHex]

theorem upperHex_of_lt {n : Nat} (h : n < 16) : upperHex n = [hexDigit n] := by
  simp [upperHex, hexDigit, Nat.toDigits_of_lt_base h]

theorem upperHex_of_le {n : Nat} (h : 16 ≤ n) :
    upperHex n = upperHex (n / 16) ++ [hexDigit (n % 16)] := by
  simp [upperHex, hexDigit, Nat.toDigits_of_base_le (by decide) h]

@[simp] theorem ofUpperHex_upperHex (n : Nat) : ofUpperHex (upperHex n) = n := by
  induction n using Nat.strongRecOn with
  | ind n ih =>
    by_cases h : n < 16
    · simp [upperHex_of_lt h, ofUpperHex, digitValue_hexDigit n h]
    · have hlt : n / 16 < n := by omega
      rw [upperHex_of_le (by omega), ofUpperHex_concat, ih _ hlt,
        digitValue_hexDigit _ (Nat.mod_lt n (by decide)), Nat.div_add_mod]

theorem exists_hexDigit_of_mem_upperHex {n : Nat} {d : Char} (h : d ∈ upperHex n) :
    ∃ k < 16, d = hexDigit k := by
  induction n using Nat.strongRecOn with
  | ind n ih =>
    by_cases hn : n < 16
    · rw [upperHex_of_lt hn, List.mem_singleton] at h
      exact ⟨n, hn, h⟩
    · rw [upperHex_of_le (by omega), List.mem_append, List.mem_singleton] at h
      rcases h with h | h
      · exact ih (n / 16) (by omega) h
      · exact ⟨n % 16, Nat.mod_lt n (by decide), h⟩

theorem upperHex_injective : Function.Injective upperHex :=
  Function.LeftInverse.injective ofUpperHex_upperHex

/-- Two digits are enough for an octet. -/
theorem hexOctet_injOn {m n : Nat} (hm : m < 256) (hn : n < 256) (h : hexOctet m = hexOctet n) :
    m = n := by
  obtain ⟨hhigh, hlow⟩ := List.cons.inj h
  have hhigh := congrArg digitValue hhigh
  have hlow := congrArg digitValue (List.head_eq_of_cons_eq hlow)
  rw [digitValue_hexDigit _ (Nat.div_lt_of_lt_mul hm),
    digitValue_hexDigit _ (Nat.div_lt_of_lt_mul hn)] at hhigh
  rw [digitValue_hexDigit _ (Nat.mod_lt m (by decide)),
    digitValue_hexDigit _ (Nat.mod_lt n (by decide))] at hlow
  rw [← Nat.div_add_mod m 16, ← Nat.div_add_mod n 16, hhigh, hlow]

/-! ## Zeros in front -/

theorem ofUpperHex_leftpad (places n : Nat) :
    ofUpperHex ((upperHex n).leftpad places '0') = n := by
  have hzeros : ∀ k, ofUpperHex (List.replicate k '0') = 0 := by
    intro k
    induction k with
    | zero => rfl
    | succ k ih =>
      rw [List.replicate_succ', ofUpperHex_concat, ih]
      rfl
  rw [List.leftpad, ofUpperHex, List.foldl_append, ← ofUpperHex, hzeros]
  exact ofUpperHex_upperHex n

theorem exists_hexDigit_of_mem_leftpad {places n : Nat} {d : Char}
    (h : d ∈ (upperHex n).leftpad places '0') : ∃ k < 16, d = hexDigit k := by
  rw [List.leftpad, List.mem_append] at h
  rcases h with h | h
  · exact ⟨0, by decide, List.eq_of_mem_replicate h⟩
  · exact exists_hexDigit_of_mem_upperHex h

/-! ## Decimal digits -/

theorem decimal_injective : Function.Injective decimal := by
  intro m n h
  have hvalue := congrArg (fun ds => Nat.ofDigitChars 10 ds 0) h
  simp only [decimal, Nat.ofDigitChars_ten_toDigits] at hvalue
  exact hvalue

theorem isDigit_of_mem_decimal {n : Nat} {d : Char} (h : d ∈ decimal n) : d.isDigit = true :=
  Nat.isDigit_of_mem_toDigits (by decide) (by decide) h

end TextOps.Numeral
