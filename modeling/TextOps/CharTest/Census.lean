import TextOps.CharTest.Basic

/-!
# `TextOps/CharTest/Census.lean` — which code points of an interval pass a test

Surrogates are no characters and never pass. The census lists the passing code points and groups
them into maximal runs of consecutive numbers. It shows a class as a whole, where every other
question is about the characters of one text.
-/

set_option autoImplicit false

namespace TextOps.CharTest

/-- The greatest code point. -/
def lastCode : Nat := 0x10FFFF

/-- The code points from `lo` to `hi`, both included, whose characters pass. What lies beyond the
greatest code point is no character and is not looked at. -/
def codesIn (p : CharTest) (lo hi : Nat) : List Nat :=
  (List.range' lo (min hi lastCode + 1 - lo)).filter fun n => n.isValidChar && p (Char.ofNat n)

/-- The maximal runs of consecutive numbers in an ascending list, each by its first and last. -/
def runsOf : List Nat → List (Nat × Nat)
  | [] => []
  | n :: ns =>
    match runsOf ns with
    | [] => [(n, n)]
    | (first, last) :: runs =>
      if n + 1 = first then (n, last) :: runs else (n, n) :: (first, last) :: runs

/-- What a census reports. -/
structure Census where
  count : Nat
  /-- The maximal runs of passing code points, in ascending order. -/
  runs : List (Nat × Nat)
deriving DecidableEq

/-- The census of the code points from `lo` to `hi`. -/
def census (p : CharTest) (lo hi : Nat) : Census :=
  let codes := p.codesIn lo hi
  ⟨codes.length, runsOf codes⟩

end TextOps.CharTest
