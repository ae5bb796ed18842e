import TextOps.Escape.Escaper
import TextOps.Proofs.Offset
import TextOps.Proofs.Utf8

/-!
# `TextOps/Proofs/Escape/SlowPath.lean` — splicing octets replaces units

The slow path never handles a unit as such. It has offsets: of the replacements, of the runs of
octets between them, of the place where it starts. What it is for is said without any offset: the
units before the start stay, and every unit behind it stays or becomes its replacement
(`replacedAfter`). The two agree because the edits and the octets are read from the same list, and
the invariant of the splice (`splice_edits`) says where in the list it stands: so many octets are
dealt with, so many units are waiting to be copied as one run.

Nothing here depends on what a unit is, apart from two facts (`LawfulUnit`): a unit takes at least
one octet, and units are found again in their octets. For characters the second is the round trip
through UTF-8, and it is the reason why what the slow path writes is always the encoding of a text.
-/

set_option autoImplicit false

namespace TextOps

/-! ## What replacing units means -/

section Meaning

variable {U : Type} {f : U → Option (List U)}

/-- The units with each one replaced that has a replacement. -/
def replaceEach (f : U → Option (List U)) (us : List U) : List U :=
  us.flatMap fun u => (f u).getD [u]

/-- An input of which the units before a point stay and those behind it are replaced. It is handed
back if there is nothing to replace. -/
def replacedAfter (f : U → Option (List U)) (before after : List U) : Edited (List U) :=
  if after.all fun u => (f u).isNone then .kept (before ++ after)
  else .built (before ++ replaceEach f after)

theorem replaceEach_cons (u : U) (us : List U) :
    replaceEach f (u :: us) = (f u).getD [u] ++ replaceEach f us := List.flatMap_cons

theorem replaceEach_eq_self {us : List U} (h : ∀ u ∈ us, f u = none) : replaceEach f us = us := by
  induction us with
  | nil => rfl
  | cons u us ih =>
    rw [replaceEach_cons, h u List.mem_cons_self, ih fun v hv => h v (List.mem_cons_of_mem _ hv)]
    rfl

theorem all_isNone_iff {us : List U} :
    (us.all fun u => (f u).isNone) = true ↔ ∀ u ∈ us, f u = none := by
  simp only [List.all_eq_true, Option.isNone_iff_eq_none]

theorem value_replacedAfter (before after : List U) :
    (replacedAfter f before after).value = before ++ replaceEach f after := by
  unfold replacedAfter
  split
  · next h => rw [Edited.value, replaceEach_eq_self (all_isNone_iff.mp h)]
  · rfl

theorem isKept_replacedAfter (before after : List U) :
    (replacedAfter f before after).isKept = true ↔ ∀ u ∈ after, f u = none := by
  rw [← all_isNone_iff]
  unfold replacedAfter
  split
  · next h => exact iff_of_true rfl h
  · next h => exact iff_of_false Bool.false_ne_true h

/-- Units that have no replacement may as well lie behind the point. -/
theorem replacedAfter_of_before {before : List U} (h : ∀ u ∈ before, f u = none)
    (after : List U) : replacedAfter f before after = replacedAfter f [] (before ++ after) := by
  have hall : ((before ++ after).all fun u => (f u).isNone) = after.all fun u => (f u).isNone := by
    rw [List.all_append, all_isNone_iff.mpr h, Bool.true_and]
  have hreplace : replaceEach f (before ++ after) = before ++ replaceEach f after := by
    rw [replaceEach, List.flatMap_append, ← replaceEach, ← replaceEach, replaceEach_eq_self h]
  rw [replacedAfter, replacedAfter, hall, hreplace, List.nil_append, List.nil_append]

end Meaning

/-! ## Units and their octets -/

/-- Units that can be told apart by their offsets and read back from their octets. -/
class LawfulUnit (U : Type) [EscapeUnit U] : Prop where
  /-- A unit takes some room. -/
  width_pos : ∀ u : U, 0 < EscapeUnit.width u
  /-- The octets of units spell these units. -/
  ofOctets_encode : ∀ us : List U, EscapeUnit.ofOctets (EscapeUnit.encode us) = us

instance : LawfulUnit Char where
  width_pos _ := List.length_pos_iff.mpr String.utf8EncodeChar_ne_nil
  ofOctets_encode := Utf8.decode_encode

instance : LawfulUnit UInt8 where
  width_pos _ := Nat.one_pos
  ofOctets_encode us := List.flatMap_singleton' us

variable {U : Type} [EscapeUnit U] {f : U → Option (List U)}

namespace EscapeUnit

@[simp] theorem encode_nil : encode ([] : List U) = [] := rfl

@[simp] theorem encode_cons (u : U) (us : List U) : encode (u :: us) = octets u ++ encode us :=
  List.flatMap_cons

@[simp] theorem encode_append (us vs : List U) : encode (us ++ vs) = encode us ++ encode vs :=
  List.flatMap_append

theorem extent_width (us : List U) : Offset.extent width us = (encode us).length := by
  induction us with
  | nil => rfl
  | cons u us ih => rw [Offset.extent_cons, ih, encode_cons, List.length_append, width]

end EscapeUnit

/-! ## The edits -/

theorem edits_cons_none {u : U} (h : f u = none) (i : Nat) (us : List (Nat × U)) :
    edits f ((i, u) :: us) = edits f us := by
  rw [edits, List.filterMap_cons_none (by dsimp only; rw [h, Option.map_none]), ← edits]

theorem edits_cons_some {u : U} {r : List U} (h : f u = some r) (i : Nat) (us : List (Nat × U)) :
    edits f ((i, u) :: us) =
      ⟨i, i + EscapeUnit.width u, EscapeUnit.encode r⟩ :: edits f us := by
  rw [edits, List.filterMap_cons_some (by dsimp only; rw [h, Option.map_some]), ← edits]

theorem edits_eq_nil_iff (base : Nat) (us : List U) :
    edits f (Offset.locate EscapeUnit.width base us) = [] ↔ ∀ u ∈ us, f u = none := by
  induction us generalizing base with
  | nil => simp [edits]
  | cons u us ih =>
    rw [Offset.locate_cons, List.forall_mem_cons]
    cases hu : f u with
    | none => rw [edits_cons_none hu, ih]; simp
    | some r => rw [edits_cons_some hu]; simp

/-- **The invariant of the splice.** Before a unit at `base` is looked at, the octets up to `done`
are dealt with and the units in `waiting` are still to be copied. What is written from there on is
the waiting units followed by the replaced ones. -/
theorem splice_edits (us : List U) : ∀ (waiting : List U) (done : Nat),
    splice done (EscapeUnit.encode (waiting ++ us))
        (edits f (Offset.locate EscapeUnit.width
          (done + Offset.extent EscapeUnit.width waiting) us)) =
      EscapeUnit.encode (waiting ++ replaceEach f us) := by
  induction us with
  | nil => exact fun _ _ => rfl
  | cons u us ih =>
    intro waiting done
    rw [Offset.locate_cons, replaceEach_cons]
    cases hu : f u with
    | none =>
      -- The unit joins those that wait.
      rw [edits_cons_none hu]
      have h := ih (waiting ++ [u]) done
      rw [Offset.extent_append, Offset.extent_cons, Offset.extent_nil, Nat.add_zero,
        ← Nat.add_assoc, List.append_assoc, List.append_assoc] at h
      exact h
    | some r =>
      -- The waiting units are copied, and behind the replacement none waits.
      rw [edits_cons_some hu, splice]
      have h := ih [] (done + Offset.extent EscapeUnit.width waiting + EscapeUnit.width u)
      rw [Offset.extent_nil, Nat.add_zero, List.nil_append, List.nil_append] at h
      have hskip : done + Offset.extent EscapeUnit.width waiting - done =
          (EscapeUnit.encode waiting).length := by
        rw [Nat.add_sub_cancel_left, EscapeUnit.extent_width]
      have hdone : done + Offset.extent EscapeUnit.width waiting + EscapeUnit.width u - done =
          (EscapeUnit.encode waiting ++ EscapeUnit.octets u).length := by
        rw [Nat.add_assoc, Nat.add_sub_cancel_left, EscapeUnit.extent_width, List.length_append,
          EscapeUnit.width]
      rw [hskip, hdone, EscapeUnit.encode_append, EscapeUnit.encode_cons, List.take_left,
        ← List.append_assoc, List.drop_left, h, Option.getD_some, EscapeUnit.encode_append,
        EscapeUnit.encode_append, List.append_assoc]

/-! ## The two paths -/

section Paths

variable [LawfulUnit U]

theorem editsFrom_append (before after : List U) :
    editsFrom f (before ++ after) (Offset.extent EscapeUnit.width before) =
      edits f (Offset.locate EscapeUnit.width (Offset.extent EscapeUnit.width before) after) := by
  have h := Offset.dropWhile_locate (LawfulUnit.width_pos (U := U)) 0 before after
  rw [Nat.zero_add] at h
  rw [editsFrom, h]

theorem editOctets_append (before after : List U) :
    editOctets f (before ++ after) (Offset.extent EscapeUnit.width before) =
      (replacedAfter f before after).onto (EscapeUnit.encode (before ++ after))
        EscapeUnit.encode := by
  have hsplice := splice_edits (f := f) after before 0
  rw [Nat.zero_add, ← editsFrom_append] at hsplice
  have hnil := edits_eq_nil_iff (f := f) (Offset.extent EscapeUnit.width before) after
  rw [← editsFrom_append, ← all_isNone_iff] at hnil
  unfold editOctets replacedAfter
  dsimp only
  split
  · next hedits =>
    rw [if_pos (hnil.mp hedits)]
    rfl
  · next hedits =>
    rw [if_neg fun hall => hedits (hnil.mpr hall), hsplice]
    rfl

theorem value_editOctets (before after : List U) :
    (editOctets f (before ++ after) (Offset.extent EscapeUnit.width before)).value =
      EscapeUnit.encode (before ++ replaceEach f after) := by
  rw [editOctets_append, ← value_replacedAfter]
  unfold replacedAfter
  split <;> rfl

/-- **The slow path from a boundary on** keeps what lies before it and replaces units behind it. -/
theorem value_escapeFrom (before after : List U) :
    (escapeFrom f (before ++ after) (Offset.extent EscapeUnit.width before)).value =
      replacedAfter f before after := by
  show (editOctets f (before ++ after) _).onto (before ++ after) EscapeUnit.ofOctets = _
  rw [editOctets_append]
  unfold replacedAfter
  by_cases h : (after.all fun u => (f u).isNone) = true
  · rw [if_pos h]
    rfl
  · rw [if_neg h]
    exact congrArg Edited.built (LawfulUnit.ofOctets_encode _)

/-- **Both paths together** replace units of the whole input, whatever the scan passes over, if that
has no replacement. -/
theorem value_escapeWhere {scan : U → Bool} (hscan : ∀ u, scan u = false → f u = none)
    (us : List U) : (escapeWhere scan f us).value = replacedAfter f [] us := by
  unfold escapeWhere
  rcases Offset.none_or_first scan us with hnone | ⟨before, u, after, rfl, hbefore, hu⟩
  · have hkept : (us.all fun u => (f u).isNone) = true :=
      all_isNone_iff.mpr fun u hu => hscan u (hnone u hu)
    rw [Offset.first?_eq_none hnone, replacedAfter, if_pos hkept]
    rfl
  · rw [Offset.first?_append_cons hbefore hu]
    dsimp only
    rw [value_escapeFrom, replacedAfter_of_before fun v hv => hscan v (hbefore v hv)]

theorem value_escapeSlow (before after : List U) :
    (escapeSlow f (before ++ after) (Offset.extent EscapeUnit.width before)).value =
      .ok (replacedAfter f before after) := by
  have hboundary : Offset.isBoundary EscapeUnit.width (before ++ after)
      (Offset.extent EscapeUnit.width before) = true :=
    Offset.isBoundary_iff.mpr ⟨before, after, rfl, rfl⟩
  rw [escapeSlow, if_pos hboundary, Logged.value_map, value_escapeFrom]

end Paths

/-! ## Characters -/

namespace FunctionEscaper

theorem value_escape (f : Char → Option Text) (s : Text) :
    ((FunctionEscaper.mk f).escape s).value = replacedAfter f [] s := by
  have hscan : ∀ c, (f c).isSome = false → f c = none := fun c hc => by simpa using hc
  show (escapeWhere (fun c => (f c).isSome) f s).value.onto s id = replacedAfter f [] s
  rw [value_escapeWhere hscan]
  unfold replacedAfter
  split <;> rfl

/-- **Escaping characters from a boundary on.** Whatever the function, the octets that are put
together are those of the characters before the boundary and of each character behind it or of its
replacement. So they spell a text, which is the result, and the input is handed back exactly if
there is nothing to replace. From the first replaced character, or from any boundary before it, the
result is that of escaping the whole text. -/
theorem escapeSlow_replaces (f : Char → Option Text) (s : Text) (start : Nat)
    (h : Offset.isBoundary EscapeUnit.width s start = true) :
    ∃ before after r,
      s = before ++ after ∧ (Utf8.encode before).length = start ∧
      (editOctets f s start).value =
        Utf8.encode before ++ after.flatMap (fun c => Utf8.encode ((f c).getD [c])) ∧
      ((FunctionEscaper.mk f).escapeSlow s start).value = .ok r ∧
      Utf8.encode r.value = (editOctets f s start).value ∧
      (r.isKept = true ↔ ∀ c ∈ after, f c = none) ∧
      ((∀ i, Offset.first? EscapeUnit.width (fun c => (f c).isSome) s = some i → start ≤ i) →
        ((FunctionEscaper.mk f).escape s).value = r) := by
  obtain ⟨before, after, rfl, rfl⟩ := Offset.isBoundary_iff.mp h
  have hoctets : EscapeUnit.encode (before ++ replaceEach f after) =
      Utf8.encode before ++ after.flatMap (fun c => Utf8.encode ((f c).getD [c])) := by
    rw [EscapeUnit.encode_append]
    exact congrArg (EscapeUnit.encode before ++ ·) List.flatMap_assoc
  refine ⟨before, after, replacedAfter f before after, rfl,
    (EscapeUnit.extent_width before).symm, ?_, value_escapeSlow before after, ?_,
    isKept_replacedAfter before after, fun hfirst => ?_⟩
  · rw [value_editOctets, hoctets]
  · rw [value_replacedAfter, value_editOctets]
    rfl
  · have hnone : ∀ c ∈ before, f c = none := fun c hc => by
      simpa using Offset.forall_before_first LawfulUnit.width_pos hfirst c hc
    rw [value_escape, replacedAfter_of_before hnone]

/-- Two characters of more than one octet around one that is deleted, from behind the first. -/
theorem escapeSlow_replaces_accents :
    let f : Char → Option Text := fun c =>
      if c = 'é' then some ['e'] else if c = '!' then some [] else none
    let s : Text := ['é', '!', '日', 'é']
    Offset.isBoundary EscapeUnit.width s 2 = true ∧
    ∃ before after r,
      s = before ++ after ∧ (Utf8.encode before).length = 2 ∧
      (editOctets f s 2).value =
        Utf8.encode before ++ after.flatMap (fun c => Utf8.encode ((f c).getD [c])) ∧
      ((FunctionEscaper.mk f).escapeSlow s 2).value = .ok r ∧
      Utf8.encode r.value = (editOctets f s 2).value ∧
      (r.isKept = true ↔ ∀ c ∈ after, f c = none) ∧
      ((∀ i, Offset.first? EscapeUnit.width (fun c => (f c).isSome) s = some i → 2 ≤ i) →
        ((FunctionEscaper.mk f).escape s).value = r) :=
  ⟨by decide, escapeSlow_replaces _ _ 2 (by decide)⟩

end FunctionEscaper

end TextOps
