/-!
# `TextOps/Numeral.lean` — numbers as digits

Decimal digits, and hexadecimal ones in the two cases the library writes: upper case in
percent-encoding and in descriptions, lower case in quoted characters.
-/

set_option autoImplicit false

namespace TextOps.Numeral

/-- The decimal digits of a number, the most significant first. -/
def decimal (n : Nat) : List Char := Nat.toDigits 10 n

def lowerHex (n : Nat) : List Char := Nat.toDigits 16 n

/-- The upper-case hexadecimal digit of `d < 16`. -/
def hexDigit (d : Nat) : Char := (Nat.digitChar d).toUpper

def upperHex (n : Nat) : List Char := (Nat.toDigits 16 n).map Char.toUpper

/-- An octet as exactly two upper-case hexadecimal digits. -/
def hexOctet (n : Nat) : List Char := [hexDigit (n / 16), hexDigit (n % 16)]

end TextOps.Numeral
