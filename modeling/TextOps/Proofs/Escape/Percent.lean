import TextOps.Escape.Percent
import TextOps.Proofs.Escape.SlowPath
import TextOps.Proofs.Escape.Table
import TextOps.Proofs.Letter

/-!
# `TextOps/Proofs/Escape/Percent.lean` — percent-encoding can be read back

A percent-encoded text is a row of items: a character that stands for itself, a plus sign that stands
for a space, or a percent sign with two digits, which stands for an octet. `Percent.read?` reads the
items from left to right and refuses a percent sign that begins no such triple. It knows nothing of
safe characters, and whether a plus sign is a space is all that it has to be told.

The reader finds the items again that were written, because it can tell an item by its first
character. `Reads` is the form in which this goes through an induction: certain items are taken off
the front of a text, whatever follows. The two conditions on a configuration are what this takes, for
a kept percent sign would be read as a triple and a kept plus sign as a space. The octets of the items
are those of the text, character by character, and since octets determine a text, the encoding
determines it too.
-/

set_option autoImplicit false

namespace TextOps

namespace Percent

/-! ## Reading -/

/-- What a percent-encoded text consists of. -/
inductive Item where
  /-- A character that stands for itself. -/
  | kept (c : Char)
  /-- A plus sign that stands for a space. -/
  | space
  /-- A percent sign and two digits, which stand for an octet. -/
  | octet (b : UInt8)

/-- The octets that an item stands for. -/
def Item.octets : Item → Bytes
  | kept c => String.utf8EncodeChar c
  | space => String.utf8EncodeChar ' '
  | octet b => [b]

/-- The value of an upper-case hexadecimal digit. -/
def digit? (c : Char) : Option Nat :=
  if '0' ≤ c ∧ c ≤ '9' then some (c.toNat - '0'.toNat)
  else if 'A' ≤ c ∧ c ≤ 'F' then some (c.toNat - 'A'.toNat + 10)
  else none

/-- The items of a text, read from left to right. A percent sign has to have two upper-case
hexadecimal digits behind it. -/
def read? (plusForSpace : Bool) : Text → Option (List Item)
  | [] => some []
  | c :: rest =>
    if c = '%' then
      match rest with
      | d :: e :: rest => do
        let high ← digit? d
        let low ← digit? e
        let items ← read? plusForSpace rest
        return .octet (.ofNat (16 * high + low)) :: items
      | _ => none
    else if c = '+' ∧ plusForSpace = true then (read? plusForSpace rest).map (.space :: ·)
    else (read? plusForSpace rest).map (.kept c :: ·)

/-- The text that a percent-encoded text stands for, if it can be read and its octets are the
encoding of a text. -/
def decode? (plusForSpace : Bool) (t : Text) : Option Text :=
  (read? plusForSpace t).bind fun items => Utf8.text? (items.flatMap Item.octets)

variable {plus : Bool}

theorem read?_kept {c : Char} (hpercent : c ≠ '%') (hplus : ¬ (c = '+' ∧ plus = true))
    (rest : Text) : read? plus (c :: rest) = (read? plus rest).map (.kept c :: ·) := by
  rw [read?.eq_def]
  exact (if_neg hpercent).trans (if_neg hplus)

theorem read?_space (rest : Text) :
    read? true ('+' :: rest) = (read? true rest).map (.space :: ·) := by
  rw [read?.eq_def]
  exact (if_neg (by decide)).trans (if_pos ⟨rfl, rfl⟩)

theorem digit?_hexDigit : ∀ d < 16, digit? (Numeral.hexDigit d) = some d := by decide

theorem read?_octet (b : UInt8) (rest : Text) :
    read? plus ('%' :: (Numeral.hexOctet b.toNat ++ rest)) =
      (read? plus rest).map (.octet b :: ·) := by
  have hb := b.toNat_lt
  have hvalue : UInt8.ofNat (16 * (b.toNat / 16) + b.toNat % 16) = b := by
    rw [Nat.div_add_mod, UInt8.ofNat_toNat]
  rw [read?.eq_def]
  simp only [Numeral.hexOctet, List.cons_append, List.nil_append, if_true,
    digit?_hexDigit _ (show b.toNat / 16 < 16 by omega),
    digit?_hexDigit _ (Nat.mod_lt b.toNat (show 0 < 16 by decide)), Option.bind_eq_bind,
    Option.bind_some, hvalue]
  cases read? plus rest <;> rfl

/-- The reader takes these items off the front of a text, whatever follows. -/
def Reads (plus : Bool) (written : Text) (items : List Item) : Prop :=
  ∀ rest, read? plus (written ++ rest) = (read? plus rest).map (items ++ ·)

theorem Reads.flatMap {α : Type} {written : α → Text} {items : α → List Item} {xs : List α}
    (h : ∀ x ∈ xs, Reads plus (written x) (items x)) :
    Reads plus (xs.flatMap written) (xs.flatMap items) := by
  induction xs with
  | nil =>
    intro rest
    simp
  | cons x xs ih =>
    intro rest
    have ih := ih (fun y hy => h y (List.mem_cons_of_mem _ hy)) rest
    rw [List.flatMap_cons, List.append_assoc, h x List.mem_cons_self, ih, Option.map_map]
    simp [Function.comp_def]

theorem Reads.read?_eq {written : Text} {items : List Item} (h : Reads plus written items) :
    read? plus written = some items := by
  have h := h []
  rw [List.append_nil] at h
  simpa [read?] using h

end Percent

/-! ## Safe characters -/

namespace PercentEscaper

theorem mem_alphanumerics_iff {c : Char} : c ∈ alphanumerics ↔ c.isAlphanum = true := by
  have hall : alphanumerics.all Char.isAlphanum = true := by decide
  have hdigits : ∀ n < 10, Char.ofNat (n + 48) ∈ alphanumerics := by decide
  have huppers : ∀ n < 26, Char.ofNat (n + 65) ∈ alphanumerics := by decide
  have hlowers : ∀ n < 26, Char.ofNat (n + 97) ∈ alphanumerics := by decide
  have hrun : ∀ first count : Nat, (∀ n < count, Char.ofNat (n + first) ∈ alphanumerics) →
      first ≤ c.toNat → c.toNat < first + count → c ∈ alphanumerics := by
    intro first count hmem hlow hhigh
    have hc := hmem (c.toNat - first) (by omega)
    rwa [Nat.sub_add_cancel hlow, Char.ofNat_toNat] at hc
  constructor
  · exact List.all_eq_true.mp hall c
  · intro hc
    rcases Bool.or_eq_true_iff.mp hc with hc | hc
    · rcases Letter.isAlpha_iff.mp hc with hc | hc
      · obtain ⟨hlow, hhigh⟩ := Letter.isUpper_iff.mp hc
        exact hrun 65 26 huppers hlow (by omega)
      · obtain ⟨hlow, hhigh⟩ := Letter.isLower_iff.mp hc
        exact hrun 97 26 hlowers hlow (by omega)
    · obtain ⟨hlow, hhigh⟩ := Letter.isDigit_iff.mp hc
      exact hrun 48 10 hdigits hlow (by omega)

theorem marks_eq_fill (cs : Text) : marks cs = fill Char.toNat (fun _ => true) false cs := rfl

theorem getD_marks_iff {cs : Text} {c : Char} :
    (marks cs)[c.toNat]?.getD false = true ↔ c ∈ cs := by
  rw [marks_eq_fill, getD_fill_const]
  simp [Char.toNat_inj]

variable {safe : Text} {plus : Bool}

/-- **The safe characters** are the ASCII letters and digits, and those that are listed. -/
theorem isSafe_ofSafe {c : Char} :
    (ofSafe safe plus).isSafe c = true ↔ c.isAlphanum = true ∨ c ∈ safe := by
  rw [isSafe, ofSafe, getD_marks_iff, List.mem_append, mem_alphanumerics_iff, or_comm]

theorem isSafe_iff_mem {c : Char} (hc : c.isAlphanum = false) :
    (ofSafe safe plus).isSafe c = true ↔ c ∈ safe := by
  simp [isSafe_ofSafe, hc]

theorem not_isSafe_of_not_mem {c : Char} (hc : c.isAlphanum = false) (h : c ∉ safe) :
    (ofSafe safe plus).isSafe c = false := by
  rwa [Bool.eq_false_iff, Ne, isSafe_iff_mem hc]

/-- A configuration that is accepted lists no letter or digit, and makes the escaper for its
characters. -/
theorem eq_ofSafe_of_make {e : PercentEscaper} (h : (make safe plus).value = .ok e) :
    e = ofSafe safe plus := by
  unfold make at h
  split at h
  · cases h
  · split at h
    · cases h
    · exact (Except.ok.inj h).symm

/-! ## What is written -/

theorem replace_of_isSafe {e : PercentEscaper} {c : Char} (hsafe : e.isSafe c = true) :
    e.replace c = none := if_pos hsafe

theorem replace_space {e : PercentEscaper} (hsafe : e.isSafe ' ' = false)
    (hplus : e.plusForSpace = true) : e.replace ' ' = some ['+'] := by
  rw [replace, if_neg (by simp [hsafe]), if_pos (by simp [hplus])]

theorem replace_of_not_isSafe {e : PercentEscaper} {c : Char} (hsafe : e.isSafe c = false)
    (hspace : ¬ (c = ' ' ∧ e.plusForSpace = true)) : e.replace c = some (encoded c) := by
  rw [replace, if_neg (by simp [hsafe]), if_neg (by simpa using hspace)]

/-- A safe character is kept; a space may be written as a plus sign; the rest is encoded. -/
theorem replace_cases (e : PercentEscaper) (c : Char) :
    (e.isSafe c = true ∧ e.replace c = none) ∨
      (c = ' ' ∧ e.plusForSpace = true ∧ e.replace c = some ['+']) ∨
      (e.isSafe c = false ∧ e.replace c = some (encoded c)) := by
  by_cases hsafe : e.isSafe c = true
  · exact Or.inl ⟨hsafe, replace_of_isSafe hsafe⟩
  · rw [Bool.not_eq_true] at hsafe
    by_cases hspace : c = ' ' ∧ e.plusForSpace = true
    · obtain ⟨rfl, hplus⟩ := hspace
      exact Or.inr (Or.inl ⟨rfl, hplus, replace_space hsafe hplus⟩)
    · exact Or.inr (Or.inr ⟨hsafe, replace_of_not_isSafe hsafe hspace⟩)

theorem replace_eq_none_iff {e : PercentEscaper} {c : Char} :
    e.replace c = none ↔ e.isSafe c = true := by
  constructor
  · intro hnone
    rcases e.replace_cases c with ⟨hsafe, -⟩ | ⟨-, -, hsome⟩ | ⟨-, hsome⟩
    · exact hsafe
    all_goals rw [hnone] at hsome; cases hsome
  · exact replace_of_isSafe

theorem value_escape (e : PercentEscaper) (s : Text) :
    (e.escape s).value = replacedAfter e.replace [] s :=
  value_escapeWhere (fun _ hc => replace_of_isSafe (by simpa using hc)) s

theorem value_value_escape (e : PercentEscaper) (s : Text) :
    (e.escape s).value.value = s.flatMap fun c => (e.replace c).getD [c] := by
  rw [value_escape, value_replacedAfter]
  rfl

open Percent

/-- The items that are written for a character. -/
def items (e : PercentEscaper) (c : Char) : List Item :=
  if e.isSafe c then [.kept c]
  else if c = ' ' ∧ e.plusForSpace = true then [.space]
  else (String.utf8EncodeChar c).map .octet

theorem octets_items (e : PercentEscaper) (c : Char) :
    (e.items c).flatMap Item.octets = String.utf8EncodeChar c := by
  unfold items
  split
  · simp [Item.octets]
  · split
    · next h => simp [Item.octets, h.1]
    · simp [List.flatMap_map, Item.octets]

/-- What is written for a character can be told from what follows, unless a percent sign is kept or
a plus sign that is not a space. -/
theorem reads_replace {e : PercentEscaper} (hpercent : e.isSafe '%' = false)
    (hplus : e.plusForSpace = true → e.isSafe '+' = false) (c : Char) :
    Reads e.plusForSpace ((e.replace c).getD [c]) (e.items c) := by
  rw [replace, items]
  by_cases hsafe : e.isSafe c = true
  · have hc : c ≠ '%' := by
      rintro rfl
      exact absurd hsafe (Bool.eq_false_iff.mp hpercent)
    have hc' : ¬ (c = '+' ∧ e.plusForSpace = true) := by
      rintro ⟨rfl, h⟩
      exact absurd hsafe (Bool.eq_false_iff.mp (hplus h))
    rw [if_pos hsafe, if_pos hsafe]
    exact read?_kept hc hc'
  · rw [if_neg hsafe, if_neg hsafe]
    by_cases hspace : c = ' ' ∧ e.plusForSpace = true
    · rw [if_pos (by simpa using hspace), if_pos hspace, hspace.2]
      exact read?_space
    · rw [if_neg (by simpa using hspace), if_neg hspace, List.map_eq_flatMap]
      exact Reads.flatMap fun b _ => read?_octet b

/-- **Reading an encoded text** gives the items that were written for its characters. -/
theorem read?_escape (hpercent : '%' ∉ safe) (hplus : plus = true → '+' ∉ safe) (s : Text) :
    read? plus ((ofSafe safe plus).escape s).value.value =
      some (s.flatMap (ofSafe safe plus).items) := by
  have hpercent : (ofSafe safe plus).isSafe '%' = false :=
    not_isSafe_of_not_mem (by decide) hpercent
  have hplus : plus = true → (ofSafe safe plus).isSafe '+' = false :=
    fun h => not_isSafe_of_not_mem (by decide) (hplus h)
  rw [value_value_escape]
  exact (Reads.flatMap fun c _ => reads_replace hpercent hplus c).read?_eq

theorem octets_flatMap_items (e : PercentEscaper) (s : Text) :
    (s.flatMap e.items).flatMap Item.octets = Utf8.encode s := by
  rw [List.flatMap_assoc]
  simp only [octets_items]
  rfl

theorem decode?_escape (hpercent : '%' ∉ safe) (hplus : plus = true → '+' ∉ safe) (s : Text) :
    decode? plus ((ofSafe safe plus).escape s).value.value = some s := by
  rw [decode?, read?_escape hpercent hplus, Option.bind_some, octets_flatMap_items,
    Utf8.text?_encode]

example : decode? true ['a', '+', '%', 'C', '3', '%', 'A', '9', '%', '2', 'B'] =
    some ['a', ' ', 'é', '+'] := by decide

theorem isAlphanum_hexDigit : ∀ d < 16, (Numeral.hexDigit d).isAlphanum = true := by decide

theorem mem_encoded {c d : Char} (h : d ∈ encoded c) : d = '%' ∨ d.isAlphanum = true := by
  obtain ⟨b, -, h⟩ := List.mem_flatMap.mp h
  have hb := b.toNat_lt
  simp only [Numeral.hexOctet, List.mem_cons, List.not_mem_nil, or_false] at h
  rcases h with rfl | rfl | rfl
  · exact Or.inl rfl
  · exact Or.inr (isAlphanum_hexDigit _ (by omega))
  · exact Or.inr (isAlphanum_hexDigit _ (by omega))

/-- **What an encoded text is made of**: safe characters, letters and digits, percent signs, and plus
signs where these are written for spaces. -/
theorem mem_escape {e : PercentEscaper} {s : Text} {d : Char} (h : d ∈ (e.escape s).value.value) :
    e.isSafe d = true ∨ d.isAlphanum = true ∨ d = '%' ∨ (d = '+' ∧ e.plusForSpace = true) := by
  rw [value_value_escape] at h
  obtain ⟨c, -, h⟩ := List.mem_flatMap.mp h
  rcases e.replace_cases c with ⟨hsafe, hc⟩ | ⟨-, hplus, hc⟩ | ⟨-, hc⟩
  all_goals rw [hc] at h
  · rw [List.mem_singleton.mp h]
    exact Or.inl hsafe
  · exact Or.inr (Or.inr (Or.inr ⟨List.mem_singleton.mp h, hplus⟩))
  · rcases mem_encoded h with h | h
    · exact Or.inr (Or.inr (Or.inl h))
    · exact Or.inr (Or.inl h)

theorem isSafe_of_kept_mem_items {e : PercentEscaper} {c d : Char}
    (h : Item.kept d ∈ e.items c) : e.isSafe d = true := by
  unfold items at h
  split at h
  · next hsafe =>
    rw [Item.kept.inj (List.mem_singleton.mp h)]
    exact hsafe
  · split at h
    · simp at h
    · simp at h

/-- **Percent-encoding loses nothing**, provided that a percent sign is not safe, and neither is a
plus sign where it stands for a space. An encoded text reads as safe characters, plus signs for
spaces where these are asked for, and triples; the octets that these stand for are those of the
text; and so no two texts are encoded alike. -/
theorem escape_lossless {e : PercentEscaper} (he : (make safe plus).value = .ok e)
    (hpercent : '%' ∉ safe) (hplus : ¬ (plus = true ∧ '+' ∈ safe)) :
    (∀ s : Text, ∃ items, read? plus (e.escape s).value.value = some items ∧
      (∀ c, .kept c ∈ items → c.isAlphanum = true ∨ c ∈ safe) ∧
      items.flatMap Item.octets = Utf8.encode s) ∧
    Function.Injective fun s => (e.escape s).value.value := by
  obtain rfl := eq_ofSafe_of_make he
  have hread := read?_escape hpercent fun h hmem => hplus ⟨h, hmem⟩
  constructor
  · intro s
    refine ⟨_, hread s, fun c hc => ?_, octets_flatMap_items _ s⟩
    obtain ⟨d, -, hd⟩ := List.mem_flatMap.mp hc
    exact isSafe_ofSafe.mp (isSafe_of_kept_mem_items hd)
  · intro s t hst
    have hitems := (hread s).symm.trans ((congrArg (read? plus) hst).trans (hread t))
    have hoctets := congrArg (·.flatMap Item.octets) (Option.some.inj hitems)
    rw [octets_flatMap_items, octets_flatMap_items] at hoctets
    exact Utf8.encode_injective hoctets

/-- A safe character of two octets, with plus signs for spaces. -/
theorem escape_lossless_accent :
    (make ['-', 'é'] true).value = .ok (ofSafe ['-', 'é'] true) ∧ '%' ∉ ['-', 'é'] ∧
      ¬ (true = true ∧ '+' ∈ ['-', 'é']) ∧
      (∀ s : Text, ∃ items,
        read? true ((ofSafe ['-', 'é'] true).escape s).value.value = some items ∧
        (∀ c, .kept c ∈ items → c.isAlphanum = true ∨ c ∈ ['-', 'é']) ∧
        items.flatMap Item.octets = Utf8.encode s) ∧
      Function.Injective fun s => ((ofSafe ['-', 'é'] true).escape s).value.value :=
  ⟨rfl, by decide, by decide, escape_lossless rfl (by decide) (by decide)⟩

end PercentEscaper

end TextOps
