import TextOps.Proofs.Escape.Percent

/-!
# `TextOps/Proofs/Escape/Percent/Configuration.lean` — which configurations make which escapers

A configuration is a list of characters and a flag. It is refused for the first letter or digit in
the list; if there is none, for a space in the list of an escaper that is to write a plus sign for
it; and otherwise it makes an escaper. No two of these go together, and so each outcome is known by
its condition (`make_eq_letter_iff`, `make_eq_space_iff`, `make_eq_ok_iff`). One event reports it, and
the event is a warning exactly if the configuration is refused. To insist on a configuration
(`insist`) makes a fault of a refusal and changes nothing else.

What is made is a table of the safe characters. They are listed in any order, perhaps more than once
and up to the last character there is; the table is filled in that order, and is the same table for
every list of the same characters (`ofSafe_congr`). So is the escaper, and with it all that it will
ever do. Only the character that a refusal names is a matter of the order.
-/

set_option autoImplicit false

namespace TextOps.PercentEscaper

variable {safe : Text} {plus : Bool}

/-! ## Outcomes -/

theorem value_make_of_letter {c : Char} (h : safe.find? Char.isAlphanum = some c) :
    (make safe plus).value = .error (.alphanumericSafe c) := by
  rw [make, h]
  rfl

theorem value_make_of_no_letter (h : safe.find? Char.isAlphanum = none) :
    (make safe plus).value =
      if plus = true ∧ ' ' ∈ safe then .error .plusForSafeSpace else .ok (ofSafe safe plus) := by
  have hspace : (plus && safe.contains ' ') = true ↔ plus = true ∧ ' ' ∈ safe := by
    rw [Bool.and_eq_true, List.contains_iff_mem]
  rw [make, h]
  simp only [hspace]
  split <;> rfl

theorem find?_letter_eq_none_iff :
    safe.find? Char.isAlphanum = none ↔ ∀ c ∈ safe, c.isAlphanum = false := by
  simp [List.find?_eq_none]

/-- The character that a refusal names is the first letter or digit. -/
theorem make_eq_letter_iff {c : Char} :
    (make safe plus).value = .error (.alphanumericSafe c) ↔
      ∃ before after, safe = before ++ c :: after ∧ (∀ d ∈ before, d.isAlphanum = false) ∧
        c.isAlphanum = true := by
  have hfirst : safe.find? Char.isAlphanum = some c ↔
      ∃ before after, safe = before ++ c :: after ∧ (∀ d ∈ before, d.isAlphanum = false) ∧
        c.isAlphanum = true := by
    simp only [List.find?_eq_some_iff_append, Bool.not_eq_true']
    constructor
    · rintro ⟨hc, before, after, hsafe, hbefore⟩
      exact ⟨before, after, hsafe, hbefore, hc⟩
    · rintro ⟨before, after, hsafe, hbefore, hc⟩
      exact ⟨hc, before, after, hsafe, hbefore⟩
  rw [← hfirst]
  cases hfind : safe.find? Char.isAlphanum with
  | some d => simp [value_make_of_letter hfind]
  | none =>
    rw [value_make_of_no_letter hfind]
    split <;> simp

theorem make_eq_space_iff :
    (make safe plus).value = .error .plusForSafeSpace ↔
      (∀ c ∈ safe, c.isAlphanum = false) ∧ plus = true ∧ ' ' ∈ safe := by
  rw [← find?_letter_eq_none_iff]
  cases hfind : safe.find? Char.isAlphanum with
  | some d => simp [value_make_of_letter hfind]
  | none =>
    rw [value_make_of_no_letter hfind]
    split
    · next hspace => simp [hspace]
    · next hspace => simp [hspace]

theorem make_eq_ok_iff {e : PercentEscaper} :
    (make safe plus).value = .ok e ↔
      (∀ c ∈ safe, c.isAlphanum = false) ∧ ¬ (plus = true ∧ ' ' ∈ safe) ∧ e = ofSafe safe plus := by
  rw [← find?_letter_eq_none_iff]
  cases hfind : safe.find? Char.isAlphanum with
  | some d => simp [value_make_of_letter hfind]
  | none =>
    rw [value_make_of_no_letter hfind]
    split
    · next hspace => simp [hspace]
    · next hspace => simp [hspace, eq_comm]

/-! ## Reports -/

/-- What is reported about a configuration with this outcome. -/
def report (safe : Text) (plus : Bool) : Except ConfigError PercentEscaper → Event
  | .error (.alphanumericSafe c) => .alphanumericListed c safe
  | .error .plusForSafeSpace => .spaceListed safe
  | .ok _ => .buildingPercent safe plus

/-- A configuration is reported once, by its outcome. -/
theorem events_make : (make safe plus).events = [report safe plus (make safe plus).value] := by
  unfold make
  split
  · rfl
  · split <;> rfl

theorem level_report_eq_warn_iff {r : Except ConfigError PercentEscaper} :
    (report safe plus r).level = .warn ↔ ∃ e, r = .error e := by
  cases r with
  | error e =>
    refine iff_of_true ?_ ⟨e, rfl⟩
    cases e <;> rfl
  | ok e => exact iff_of_false nofun nofun

/-! ## Configurations that are insisted on -/

@[simp] theorem value_insist :
    (insist safe plus).value = (make safe plus).value.mapError .refused := rfl

@[simp] theorem events_insist : (insist safe plus).events = (make safe plus).events :=
  List.append_nil _

/-- Insisting gives the escaper that the configuration makes. -/
theorem insist_eq_ok_iff {e : PercentEscaper} :
    (insist safe plus).value = .ok e ↔ (make safe plus).value = .ok e := by
  rw [value_insist]
  cases (make safe plus).value with
  | error err => exact iff_of_false nofun nofun
  | ok e' => constructor <;> exact fun h => congrArg _ (Except.ok.inj h)

/-- A fault is a refusal, and names the same reason. -/
theorem insist_eq_error_iff {fault : Fault} :
    (insist safe plus).value = .error fault ↔
      ∃ err, (make safe plus).value = .error err ∧ fault = .refused err := by
  rw [value_insist]
  cases (make safe plus).value with
  | error err =>
    constructor
    · intro h
      exact ⟨err, rfl, (Except.error.inj h).symm⟩
    · rintro ⟨err', herr, rfl⟩
      obtain rfl := Except.error.inj herr
      rfl
  | ok e => exact iff_of_false nofun nofun

/-- **Insisting fails exactly if** a letter or digit is listed, or a space that was to be a plus
sign. -/
theorem exists_fault_insist_iff :
    (∃ fault, (insist safe plus).value = .error fault) ↔
      (∃ c ∈ safe, c.isAlphanum = true) ∨ (plus = true ∧ ' ' ∈ safe) := by
  have hok : (∃ e, (make safe plus).value = .ok e) ↔
      ¬ ((∃ c ∈ safe, c.isAlphanum = true) ∨ (plus = true ∧ ' ' ∈ safe)) := by
    simp [make_eq_ok_iff]
  rw [← not_iff_not, ← hok]
  simp only [value_insist]
  cases (make safe plus).value with
  | error err => exact iff_of_false (fun h => h ⟨_, rfl⟩) nofun
  | ok e => exact iff_of_true nofun ⟨e, rfl⟩

/-! ## Escapers -/

/-- The same safe characters make the same escaper. -/
theorem ofSafe_congr {safe' : Text} (h : ∀ c, c ∈ safe ↔ c ∈ safe') :
    ofSafe safe plus = ofSafe safe' plus := by
  have hall : ∀ c, c ∈ safe ++ alphanumerics ↔ c ∈ safe' ++ alphanumerics := by
    intro c
    rw [List.mem_append, List.mem_append, h]
  rw [ofSafe, ofSafe, marks_eq_fill, marks_eq_fill, fill_const_congr hall]

theorem toOption_make_congr {safe' : Text} (h : ∀ c, c ∈ safe ↔ c ∈ safe') :
    (make safe plus).value.toOption = (make safe' plus).value.toOption := by
  apply Option.ext
  intro e
  have hok : ∀ r : Except ConfigError PercentEscaper, r.toOption = some e ↔ r = .ok e := by
    intro r
    cases r <;> simp [Except.toOption]
  rw [hok, hok, make_eq_ok_iff, make_eq_ok_iff, ofSafe_congr h]
  simp only [h]

/-- **A configuration and its escaper.** It is refused for the first letter or digit that it lists, if
it lists one; otherwise for a listed space that was to be a plus sign; and otherwise it makes an
escaper, for which exactly the letters and digits and the listed characters are safe, and which has a
replacement for exactly the others. No index of the table lies behind its end while it is filled. A
list of the same characters is accepted or refused alike and makes the very same escaper, so that no
text is escaped differently. -/
theorem make_configuration (safe : Text) (plus : Bool) :
    ((∀ c, (make safe plus).value = .error (.alphanumericSafe c) ↔
          ∃ before after, safe = before ++ c :: after ∧ (∀ d ∈ before, d.isAlphanum = false) ∧
            c.isAlphanum = true) ∧
        ((∃ c, (make safe plus).value = .error (.alphanumericSafe c)) ↔
          ∃ c ∈ safe, c.isAlphanum = true)) ∧
      ((make safe plus).value = .error .plusForSafeSpace ↔
        (∀ c ∈ safe, c.isAlphanum = false) ∧ plus = true ∧ ' ' ∈ safe) ∧
      ((∃ e, (make safe plus).value = .ok e) ↔
        (∀ c ∈ safe, c.isAlphanum = false) ∧ ¬ (plus = true ∧ ' ' ∈ safe)) ∧
      (∀ e, (make safe plus).value = .ok e →
        (∀ c, (e.isSafe c = true ↔ c.isAlphanum = true ∨ c ∈ safe) ∧
            (e.replace c = none ↔ e.isSafe c = true)) ∧
          fill? Char.toNat (fun _ => true) false (safe ++ alphanumerics) = some e.safeTable) ∧
      ∀ safe' : Text, (∀ c, c ∈ safe ↔ c ∈ safe') →
        (make safe plus).value.toOption = (make safe' plus).value.toOption := by
  refine ⟨⟨?first, ?letter⟩, ?space, ?accepted, ?escaper, ?set⟩
  case first => exact fun c => make_eq_letter_iff
  case letter =>
    constructor
    · rintro ⟨c, hmake⟩
      obtain ⟨before, after, rfl, -, hc⟩ := make_eq_letter_iff.mp hmake
      exact ⟨c, by simp, hc⟩
    · rintro ⟨c, hmem, hc⟩
      obtain ⟨d, hfind⟩ := Option.isSome_iff_exists.mp (List.find?_isSome.mpr ⟨c, hmem, hc⟩)
      exact ⟨d, value_make_of_letter hfind⟩
  case space => exact make_eq_space_iff
  case accepted => simp [make_eq_ok_iff]
  case escaper =>
    intro e he
    obtain rfl := eq_ofSafe_of_make he
    exact ⟨fun c => ⟨isSafe_ofSafe, replace_eq_none_iff⟩, fill?_eq _ _ _ _⟩
  case set => exact fun safe' h => toOption_make_congr h

/-- The same two characters in another order and with a repetition, and a plus sign for a space. -/
theorem make_configuration_repeated :
    (make ['é', '-'] true).value = .ok (ofSafe ['é', '-'] true) ∧
      (∀ c, c ∈ ['é', '-'] ↔ c ∈ ['-', 'é', '-']) ∧
      (∀ c, (ofSafe ['é', '-'] true).isSafe c = true ↔ c.isAlphanum = true ∨ c ∈ ['é', '-']) ∧
      fill? Char.toNat (fun _ => true) false (['é', '-'] ++ alphanumerics) =
        some (ofSafe ['é', '-'] true).safeTable ∧
      (make ['é', '-'] true).value.toOption = (make ['-', 'é', '-'] true).value.toOption := by
  obtain ⟨-, -, -, hescaper, hset⟩ := make_configuration ['é', '-'] true
  have hmake : (make ['é', '-'] true).value = .ok (ofSafe ['é', '-'] true) := rfl
  have hsame : ∀ c, c ∈ ['é', '-'] ↔ c ∈ ['-', 'é', '-'] := by
    intro c
    simp [or_comm]
  obtain ⟨hsafe, htable⟩ := hescaper _ hmake
  exact ⟨hmake, hsame, fun c => (hsafe c).1, htable, hset _ hsame⟩

end TextOps.PercentEscaper
