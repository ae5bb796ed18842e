import TextOps.Proofs.Escape.SlowPath
import TextOps.Proofs.Escape.Table

/-!
# `TextOps/Proofs/Escape/Resolution.lean` — tables and ranges are a way to write a function down

An escaper with a table and a safe range asks two questions about a unit. The scan asks whether the
unit needs a look, the slow path asks what replaces it, and the first question is only a cheap
over-approximation of the second: a listed unit needs a look, a unit outside the range needs one
even if the fallback then leaves it alone. So the two escapers that are compared here do *not* take
the slow path on the same inputs. What they hand out is the same, because both paths together do no
more than replace each unit by its replacement (`value_escapeWhere`), and a unit that needs no look
has none (`replace_eq_none_of_needsLook`).

What replaces a unit is `resolve`. A range whose bounds are in the wrong order is empty there, and
it is empty in the escaper, which stores it as the range from the greatest unit to the least.
-/

set_option autoImplicit false

namespace TextOps

variable {U : Type} [EscapeUnit U]

/-! ## One unit -/

/-- The replacement of a unit: the one that is listed last for it; none if it is not listed and lies
between the bounds; and what the fallback says otherwise. -/
def resolve [DecidableEq U] (pairs : List (U × List U)) (low high : U)
    (fallback : U → Option (List U)) (u : U) : Option (List U) :=
  match latest? pairs u with
  | some r => some r
  | none =>
    if EscapeUnit.code low ≤ EscapeUnit.code u ∧ EscapeUnit.code u ≤ EscapeUnit.code high then none
    else fallback u

theorem resolve_of_not_listed [DecidableEq U] {pairs : List (U × List U)} {low high u : U}
    {fallback : U → Option (List U)} (h : latest? pairs u = none) :
    resolve pairs low high fallback u =
      if EscapeUnit.code low ≤ EscapeUnit.code u ∧ EscapeUnit.code u ≤ EscapeUnit.code high
      then none else fallback u := by
  rw [resolve, h]

namespace RangeEscaper

variable {table : Table U} {low high : U} {fallback : U → Option (List U)}

@[simp] theorem table_make : (make table low high fallback).table = table := by
  unfold make
  split <;> rfl

@[simp] theorem fallback_make : (make table low high fallback).fallback = fallback := by
  unfold make
  split <;> rfl

theorem isSafe_make [LawfulCode U] (u : U) :
    (make table low high fallback).isSafe u = true ↔
      EscapeUnit.code low ≤ EscapeUnit.code u ∧ EscapeUnit.code u ≤ EscapeUnit.code high := by
  unfold make
  split
  · next hreversed =>
    -- Both ranges are empty: this one between its extreme bounds, that one by assumption.
    have hextreme := LawfulCode.least_lt_greatest (U := U)
    simp only [isSafe, Bool.and_eq_true, decide_eq_true_iff]
    constructor
    · rintro ⟨hgreatest, hleast⟩
      omega
    · rintro ⟨hlow, hhigh⟩
      omega
  · simp [isSafe]

theorem replace_make [LawfulCode U] [DecidableEq U] (pairs : List (U × List U)) :
    (make (.ofPairs pairs) low high fallback).replace = resolve pairs low high fallback := by
  funext u
  rw [replace, table_make, fallback_make, Table.get?_ofPairs]
  cases h : latest? pairs u with
  | some r => rw [resolve, h]
  | none => simp only [resolve_of_not_listed h, isSafe_make]

theorem replace_eq_none_of_needsLook {e : RangeEscaper U} {u : U} (h : e.needsLook u = false) :
    e.replace u = none := by
  simp only [needsLook, Bool.or_eq_false_iff, Option.isSome_eq_false_iff,
    Option.isNone_iff_eq_none, Bool.not_eq_false'] at h
  obtain ⟨hlisted, hsafe⟩ := h
  rw [replace, hlisted]
  exact if_pos hsafe

end RangeEscaper

theorem TableEscaper.replace_ofPairs [LawfulCode U] [DecidableEq U] (pairs : List (U × List U)) :
    (TableEscaper.mk (.ofPairs pairs)).replace = latest? pairs := funext (Table.get?_ofPairs pairs)

/-! ## Whole inputs -/

/-- What becomes of a text depends on what becomes of its units, and not on the events. -/
theorem value_escapeText (escape : List U → Logged (Edited (List U))) (s : Text) :
    (escapeText escape s).value =
      (escape (EscapeUnit.ofText s)).value.onto s EscapeUnit.toText := rfl

theorem isKept_escapeText (escape : List U → Logged (Edited (List U))) (s : Text) :
    (escapeText escape s).value.isKept = (escape (EscapeUnit.ofText s)).value.isKept := by
  rw [value_escapeText]
  cases (escape (EscapeUnit.ofText s)).value <;> rfl

section Inputs

variable [LawfulUnit U]

theorem FunctionEscaper.value_escapeUnits (f : U → Option (List U)) (us : List U) :
    ((FunctionEscaper.mk f).escapeUnits us).value = replacedAfter f [] us :=
  value_escapeWhere (fun u hu => by simpa using hu) us

theorem RangeEscaper.value_escapeUnits (e : RangeEscaper U) (us : List U) :
    (e.escapeUnits us).value = replacedAfter e.replace [] us :=
  value_escapeWhere (fun _ hu => replace_eq_none_of_needsLook hu) us

theorem TableEscaper.value_escapeUnits (e : TableEscaper U) (us : List U) :
    (e.escapeUnits us).value = replacedAfter e.replace [] us :=
  value_escapeWhere (fun u hu => by simpa [TableEscaper.replace] using hu) us

/-- **By table and range, or by function.** -/
theorem RangeEscaper.value_escapeUnits_make [LawfulCode U] [DecidableEq U]
    (pairs : List (U × List U)) (low high : U) (fallback : U → Option (List U)) (us : List U) :
    ((make (.ofPairs pairs) low high fallback).escapeUnits us).value =
      ((FunctionEscaper.mk (resolve pairs low high fallback)).escapeUnits us).value := by
  rw [value_escapeUnits, replace_make, FunctionEscaper.value_escapeUnits]

theorem TableEscaper.value_escapeUnits_ofPairs [LawfulCode U] [DecidableEq U]
    (pairs : List (U × List U)) (us : List U) :
    ((TableEscaper.mk (.ofPairs pairs)).escapeUnits us).value =
      ((FunctionEscaper.mk (latest? pairs)).escapeUnits us).value := by
  rw [value_escapeUnits, replace_ofPairs, FunctionEscaper.value_escapeUnits]

theorem RangeEscaper.value_escape_eq (e : RangeEscaper U) (s : Text) :
    (e.escape s).value = ((FunctionEscaper.mk e.replace).escape s).value := by
  rw [escape, FunctionEscaper.escape, value_escapeText, value_escapeText, value_escapeUnits,
    FunctionEscaper.value_escapeUnits]

theorem TableEscaper.value_escape_eq (e : TableEscaper U) (s : Text) :
    (e.escape s).value = ((FunctionEscaper.mk e.replace).escape s).value := by
  rw [escape, FunctionEscaper.escape, value_escapeText, value_escapeText, value_escapeUnits,
    FunctionEscaper.value_escapeUnits]

theorem RangeEscaper.value_escape_make [LawfulCode U] [DecidableEq U]
    (pairs : List (U × List U)) (low high : U) (fallback : U → Option (List U)) (s : Text) :
    ((make (.ofPairs pairs) low high fallback).escape s).value =
      ((FunctionEscaper.mk (resolve pairs low high fallback)).escape s).value := by
  rw [value_escape_eq, replace_make]

theorem TableEscaper.value_escape_ofPairs [LawfulCode U] [DecidableEq U]
    (pairs : List (U × List U)) (s : Text) :
    ((TableEscaper.mk (.ofPairs pairs)).escape s).value =
      ((FunctionEscaper.mk (latest? pairs)).escape s).value := by
  rw [value_escape_eq, replace_ofPairs]

end Inputs

/-- A text is escaped character by character. -/
theorem RangeEscaper.value_value_escape (e : RangeEscaper Char) (s : Text) :
    (e.escape s).value.value = replaceEach e.replace s := by
  rw [value_escape_eq, FunctionEscaper.value_escape, value_replacedAfter, List.nil_append]

/-- **Escapers by table answer as escapers by function**, with the same text and the same word on
whether it was built: by table, range and fallback for characters and for octets, and by table alone
for octets. -/
theorem escape_eq_function :
    (∀ (pairs : List (Char × Text)) (low high : Char) (fallback : Char → Option Text) (s : Text),
      ((RangeEscaper.make (.ofPairs pairs) low high fallback).escape s).value =
        ((FunctionEscaper.mk (resolve pairs low high fallback)).escape s).value) ∧
    (∀ (pairs : List (UInt8 × Bytes)) (low high : UInt8) (fallback : UInt8 → Option Bytes),
      (∀ input : Bytes,
        ((RangeEscaper.make (.ofPairs pairs) low high fallback).escapeUnits input).value =
          ((FunctionEscaper.mk (resolve pairs low high fallback)).escapeUnits input).value) ∧
      ∀ s : Text,
        ((RangeEscaper.make (.ofPairs pairs) low high fallback).escape s).value =
          ((FunctionEscaper.mk (resolve pairs low high fallback)).escape s).value) ∧
    (∀ pairs : List (UInt8 × Bytes),
      (∀ input : Bytes,
        ((TableEscaper.mk (.ofPairs pairs)).escapeUnits input).value =
          ((FunctionEscaper.mk (latest? pairs)).escapeUnits input).value) ∧
      ∀ s : Text,
        ((TableEscaper.mk (.ofPairs pairs)).escape s).value =
          ((FunctionEscaper.mk (latest? pairs)).escape s).value) := by
  refine ⟨?characters, ?octets, ?tableAlone⟩
  case characters => exact RangeEscaper.value_escape_make
  case octets =>
    intro pairs low high fallback
    constructor
    · exact RangeEscaper.value_escapeUnits_make pairs low high fallback
    · exact RangeEscaper.value_escape_make pairs low high fallback
  case tableAlone =>
    intro pairs
    constructor
    · exact TableEscaper.value_escapeUnits_ofPairs pairs
    · exact TableEscaper.value_escape_ofPairs pairs

/-! ## Builders -/

section Builders

variable [DecidableEq U]

theorem resolve_congr {pairs pairs' : List (U × List U)}
    (h : ∀ u, latest? pairs u = latest? pairs' u) (low high : U) (fallback : U → Option (List U)) :
    resolve pairs low high fallback = resolve pairs' low high fallback := by
  funext u
  rw [resolve, resolve, h]

theorem Builder.replace_buildWith [LawfulCode U] (b : Builder U) (fallback : U → Option (List U)) :
    (b.buildWith fallback).value.replace = resolve b.mappings.pairs b.low b.high fallback :=
  RangeEscaper.replace_make b.mappings.pairs

/-- What is added comes before what was there. -/
theorem resolve_foldl_add (adds : List (U × List U)) (m : Mappings U) (low high : U)
    (fallback : U → Option (List U)) (u : U) :
    resolve (adds.foldl (fun m p => m.add p.1 p.2) m).pairs low high fallback u =
      (latest? adds u).or (resolve m.pairs low high fallback u) := by
  rw [resolve, resolve, latest?_foldl_add]
  cases latest? adds u <;> rfl

/-- A builder with the given bounds and replacement for other units, after additions in order. -/
def Builder.configured (adds : List (U × List U)) (low high : U) (others : Option (List U)) :
    Builder U :=
  adds.foldl (fun b p => b.add p.1 p.2) ((Builder.new.safeRange low high).replaceOthers others)

/-- What a builder builds answers by the additions as they were made. -/
theorem Builder.value_escape_configured [LawfulUnit U] [LawfulCode U] (adds : List (U × List U))
    (low high : U) (others : Option (List U)) (s : Text) :
    ((configured adds low high others).build.value.escape s).value =
      ((FunctionEscaper.mk (resolve adds low high fun _ => others)).escape s).value := by
  have hlatest : ∀ u, latest? (adds.foldl (fun m p => m.add p.1 p.2) Mappings.empty).pairs u =
      latest? adds u := by
    intro u
    rw [latest?_foldl_add]
    exact Option.or_none
  rw [configured, foldl_add, ← resolve_congr hlatest]
  exact RangeEscaper.value_escape_make _ low high (fun _ => others) s

end Builders

end TextOps
