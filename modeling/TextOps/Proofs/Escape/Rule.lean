import TextOps.Escape.Rule
import TextOps.Proofs.Escape.Resolution
import TextOps.Proofs.Letter
import TextOps.Proofs.Numeral
import TextOps.Proofs.SelfDelimiting

/-!
# `TextOps/Proofs/Escape/Rule.lean` — what is escaped by a notation can be read back

A rule writes a replacement function down, so that a function can be asked for from outside. A list of
cases can write down any function that treats all but finitely many units alike (`apply_cases_eq`).
The other rules are notations: a unit by its number or between brackets. They are useful because
nothing is lost, whatever is escaped by them, and this is because what they write shows where it
ends (`selfDelimiting_hex` and the like).

A percent sign with two digits is such a notation for octets only. A greater number does not fit into
two digits.
-/

set_option autoImplicit false

namespace TextOps

/-! ## Units that are written with ASCII characters -/

namespace EscapeUnit

/-- The character with the number of a unit. -/
def character {U : Type} [EscapeUnit U] (u : U) : Char := Char.ofNat (code u)

end EscapeUnit

/-- Units that spell ASCII characters by their numbers. -/
class SpellsAscii (U : Type) [EscapeUnit U] : Prop where
  map_ofText : ∀ s : Text, (∀ c ∈ s, c.toNat < 128) →
    (EscapeUnit.ofText s : List U).map EscapeUnit.character = s

instance : SpellsAscii Char where
  map_ofText s _ := by
    have hid : (EscapeUnit.character : Char → Char) = id := funext Char.ofNat_toNat
    show s.map EscapeUnit.character = s
    rw [hid, List.map_id]

instance : SpellsAscii UInt8 where
  map_ofText s hs := by
    show (Utf8.encode s).map EscapeUnit.character = s
    induction s with
    | nil => rfl
    | cons c s ih =>
      have hc : c.toNat < 128 := hs c List.mem_cons_self
      have hcharacter : EscapeUnit.character (UInt8.ofNat c.toNat) = c := by
        show Char.ofNat (UInt8.ofNat c.toNat).toNat = c
        rw [Utf8.toNat_ascii hc, Char.ofNat_toNat]
      rw [Utf8.encode_cons, Utf8.encodeChar_of_ascii hc, List.singleton_append, List.map_cons,
        hcharacter, ih fun d hd => hs d (List.mem_cons_of_mem _ hd)]

section Bracketed

variable {U : Type} [EscapeUnit U] [SpellsAscii U] {digits : Nat → Text}

/-- The brackets around digits are read back with the digits between them. -/
theorem map_character_bracketed {ds : Text} (hds : ∀ d ∈ ds, d.toNat < 128) :
    (EscapeUnit.ofText (['['] ++ ds ++ [']']) : List U).map EscapeUnit.character =
      ['['] ++ ds ++ [']'] := by
  apply SpellsAscii.map_ofText
  intro c hc
  simp only [List.mem_append, List.mem_singleton] at hc
  rcases hc with (rfl | hc) | rfl
  · decide
  · exact hds c hc
  · decide

/-- A number between brackets shows where it ends, if its digits are no brackets. -/
theorem selfDelimiting_bracketed [LawfulCode U] (hdigits : Function.Injective digits)
    (hascii : ∀ n, ∀ d ∈ digits n, d.toNat < 128) (hclose : ∀ n, ']' ∉ digits n) :
    SelfDelimiting fun u : U =>
      (EscapeUnit.ofText (['['] ++ digits (EscapeUnit.code u) ++ [']']) : List U) := by
  apply SelfDelimiting.of_map EscapeUnit.character
  simp only [map_character_bracketed (hascii _)]
  exact selfDelimiting_closed (hdigits.comp LawfulCode.code_injective) fun u => hclose _

end Bracketed

namespace Rule

variable {U : Type} [EscapeUnit U] [DecidableEq U]

/-! ## Functions by cases -/

/-- **A function that treats all but the listed units alike** is written down by its values there. -/
theorem apply_cases_eq (f : U → Option (List U)) (units : List U) (others : Option (List U))
    (h : ∀ u, u ∉ units → f u = others) :
    (cases (units.map fun u => (u, f u)) others).apply = f := by
  funext u
  have hfind : (units.map fun v => (v, f v)).find? (·.1 = u) =
      (units.find? (· = u)).map fun v => (v, f v) := List.find?_map
  rw [apply, hfind]
  by_cases hu : u ∈ units
  · have hsome : (units.find? (· = u)).isSome = true :=
      List.find?_isSome.mpr ⟨u, hu, decide_eq_true (Eq.refl u)⟩
    obtain ⟨v, hv⟩ := Option.isSome_iff_exists.mp hsome
    have heq : v = u := by simpa using List.find?_some hv
    rw [hv, heq]
    rfl
  · have hnone : units.find? (· = u) = none := by
      rw [List.find?_eq_none]
      intro v hv heq
      exact hu (of_decide_eq_true heq ▸ hv)
    rw [hnone, h u hu]
    rfl

/-! ## What a rule writes -/

/-- What stands for a unit after it has been escaped by a rule. -/
def written (rule : Rule U) (u : U) : List U := (rule.apply u).getD [u]

/-- **No two inputs are escaped alike** by a rule that shows where each unit ends. -/
theorem value_escapeUnits_injective [LawfulUnit U] {rule : Rule U}
    (h : SelfDelimiting rule.written) :
    Function.Injective fun us => ((FunctionEscaper.mk rule.apply).escapeUnits us).value.value := by
  have hwritten : (fun us => ((FunctionEscaper.mk rule.apply).escapeUnits us).value.value) =
      fun us => us.flatMap rule.written := by
    funext us
    rw [FunctionEscaper.value_escapeUnits, value_replacedAfter]
    rfl
  rw [hwritten]
  exact h.flatMap_injective

/-! ## Notations -/

section Numbers

variable [SpellsAscii U]

theorem selfDelimiting_hex [LawfulCode U] : SelfDelimiting (hex : Rule U).written := by
  have hdigit : ∀ k < 16, (Numeral.hexDigit k).toNat < 128 ∧ ']' ≠ Numeral.hexDigit k := by decide
  refine selfDelimiting_bracketed Numeral.upperHex_injective (fun n d hd => ?_) fun n hclose => ?_
  · obtain ⟨k, hk, rfl⟩ := Numeral.exists_hexDigit_of_mem_upperHex hd
    exact (hdigit k hk).1
  · obtain ⟨k, hk, heq⟩ := Numeral.exists_hexDigit_of_mem_upperHex hclose
    exact (hdigit k hk).2 heq

/-- Letters and digits stand for themselves, and a bracket is neither. -/
theorem selfDelimiting_decimal [LawfulCode U] : SelfDelimiting (decimal : Rule U).written := by
  have hascii : ∀ n, ∀ d ∈ Numeral.decimal n, d.toNat < 128 := by
    intro n d hd
    have hdigit := Letter.isDigit_iff.mp (Numeral.isDigit_of_mem_decimal hd)
    omega
  have hclose : ∀ n, ']' ∉ Numeral.decimal n := by
    intro n hclose
    exact absurd (Numeral.isDigit_of_mem_decimal hclose) (by decide)
  have hwritten : (decimal : Rule U).written = fun u => if isAlphanumeric u then [u]
      else EscapeUnit.ofText (['['] ++ Numeral.decimal (EscapeUnit.code u) ++ [']']) := by
    funext u
    rw [written, apply]
    split <;> rfl
  rw [hwritten]
  refine (selfDelimiting_bracketed Numeral.decimal_injective hascii hclose).kept _ ?_
  intro u v hu _ hhead
  have hbracket := congrArg List.head? (map_character_bracketed (U := U) (hascii (EscapeUnit.code v)))
  rw [List.head?_map, hhead] at hbracket
  have hcharacter : EscapeUnit.character u = '[' := Option.some.inj hbracket
  have halnum : (EscapeUnit.character u).isAlphanum = true := hu
  rw [hcharacter] at halnum
  exact absurd halnum (by decide)

end Numbers

/-- A unit between braces is found behind the first of them. -/
theorem selfDelimiting_braces : SelfDelimiting (braces : Rule U).written where
  ne_nil u h := by
    have hmem : u ∈ (braces : Rule U).written u := by simp [written, apply]
    rw [h] at hmem
    exact List.not_mem_nil hmem
  eq_of_append_eq {u v _ _} h := by
    simp only [written, apply, Option.getD_some, List.append_assoc,
      List.append_cancel_left_eq] at h
    exact List.head_eq_of_cons_eq h

theorem selfDelimiting_percent : SelfDelimiting (percent : Rule UInt8).written := by
  have hascii : ∀ k < 16, (Numeral.hexDigit k).toNat < 128 := by decide
  have hread : ∀ b : UInt8, ((percent : Rule UInt8).written b).map EscapeUnit.character =
      '%' :: Numeral.hexOctet b.toNat := by
    intro b
    apply SpellsAscii.map_ofText
    intro c hc
    simp only [Numeral.hexOctet, List.mem_cons, List.not_mem_nil, or_false] at hc
    rcases hc with rfl | rfl | rfl
    · decide
    · exact hascii _ (Nat.div_lt_of_lt_mul b.toNat_lt)
    · exact hascii _ (Nat.mod_lt _ (by decide))
  apply SelfDelimiting.of_map EscapeUnit.character
  simp only [hread]
  refine selfDelimiting_of_length (by decide : 0 < 3) (fun _ => rfl) fun a b h => ?_
  exact UInt8.toNat_inj.mp
    (Numeral.hexOctet_injOn a.toNat_lt b.toNat_lt (List.tail_eq_of_cons_eq h))

/-- Two digits are not enough for the characters that take more than an octet. -/
example : (percent : Rule Char).written 'Ā' = (percent : Rule Char).written 'Đ' := by decide

end Rule

end TextOps
