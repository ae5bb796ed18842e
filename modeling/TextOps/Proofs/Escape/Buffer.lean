import Mathlib.Algebra.Ring.Nat
import TextOps.Proofs.Escape.Start

/-!
# `TextOps/Proofs/Escape/Buffer.lean` — the slow path with its slices and its buffer

`splice` says what the edits of an input come to. How the octets are put together is not part of it,
and two things could go wrong there. A stretch of the input is asked for by its bounds, and there is
none if these are in the wrong order or behind the end. And the octets go into a buffer that is made
larger when a replacement does not fit, with room to spare for what may come, and no buffer can be
larger than some limit.

The first never happens: edits of located units come in order (`InOrder`), and then every stretch is
there (`splice?_eq`). The second happens only for want of room. What is put together is the plain
result and fits the limit (`run?_sound`), and it is put together if the limit leaves room for the
result and for what is to spare at the most (`run?_complete`); this holds of any edits, in order or
not. So how eagerly the buffer grows is a matter of the room alone.
-/

set_option autoImplicit false

namespace TextOps

/-! ## Stretches of the input -/

/-- `splice` with every stretch of the input asked for by its bounds; nothing if one is not there. -/
def splice? (input : Bytes) (done : Nat) : List Edit → Option Bytes
  | [] => Offset.slice? EscapeUnit.width input done input.length
  | e :: es => do
    let skipped ← Offset.slice? EscapeUnit.width input done e.start
    let rest ← splice? input e.stop es
    return skipped ++ e.replacement ++ rest

/-- Edits that come in order from the offset `done` on, within an input of `length` octets. -/
inductive InOrder (length : Nat) : Nat → List Edit → Prop where
  | nil {done : Nat} (hdone : done ≤ length) : InOrder length done []
  | cons {done : Nat} {e : Edit} {es : List Edit} (hstart : done ≤ e.start)
      (hstop : e.start ≤ e.stop) (rest : InOrder length e.stop es) : InOrder length done (e :: es)

namespace InOrder

variable {length done : Nat} {es : List Edit}

theorem le_length (h : InOrder length done es) : done ≤ length := by
  induction h with
  | nil hdone => exact hdone
  | cons hstart hstop _ ih => exact Nat.le_trans (Nat.le_trans hstart hstop) ih

theorem of_le (h : InOrder length done es) {done' : Nat} (hle : done' ≤ done) :
    InOrder length done' es := by
  cases h with
  | nil hdone => exact .nil (Nat.le_trans hle hdone)
  | cons hstart hstop rest => exact .cons (Nat.le_trans hle hstart) hstop rest

end InOrder

theorem slice?_octets {input : Bytes} {start stop : Nat} (hstart : start ≤ stop)
    (hstop : stop ≤ input.length) :
    Offset.slice? EscapeUnit.width input start stop =
      some ((input.drop start).take (stop - start)) := by
  have hsplit : input = input.take start ++ (input.drop start).take (stop - start) ++
      (input.drop start).drop (stop - start) := by
    rw [List.append_assoc, List.take_append_drop, List.take_append_drop]
  have hfront : Offset.extent EscapeUnit.width (input.take start) = start := by
    rw [extent_octets, List.length_take, Nat.min_eq_left (Nat.le_trans hstart hstop)]
  have hbetween : Offset.extent EscapeUnit.width ((input.drop start).take (stop - start)) =
      stop - start := by
    rw [extent_octets, List.length_take, List.length_drop, Nat.min_eq_left (by omega)]
  have hslice := Offset.slice?_append LawfulUnit.width_pos (input.take start)
    ((input.drop start).take (stop - start)) ((input.drop start).drop (stop - start))
  rw [← hsplit, hfront, hbetween, Nat.add_sub_cancel' hstart] at hslice
  exact hslice

/-- **Every stretch between edits in order is there.** -/
theorem splice?_eq {input : Bytes} {done : Nat} {es : List Edit}
    (h : InOrder input.length done es) :
    splice? input done es = some (splice done (input.drop done) es) := by
  induction h with
  | nil hdone =>
    rw [splice?, slice?_octets hdone (Nat.le_refl _), splice, ← List.length_drop, List.take_length]
  | @cons done e es hstart hstop rest ih =>
    have hle : e.start ≤ input.length := Nat.le_trans hstop rest.le_length
    rw [splice?, slice?_octets hstart hle, ih, splice, List.drop_drop,
      Nat.add_sub_cancel' (Nat.le_trans hstart hstop)]
    rfl

section Units

variable {U : Type} [EscapeUnit U] {f : U → Option (List U)}

theorem inOrder_edits (base : Nat) (us : List U) :
    InOrder (base + Offset.extent EscapeUnit.width us) base
      (edits f (Offset.locate EscapeUnit.width base us)) := by
  induction us generalizing base with
  | nil => exact .nil (Nat.le_refl _)
  | cons u us ih =>
    have hrest := ih (base + EscapeUnit.width u)
    rw [Nat.add_assoc, ← Offset.extent_cons] at hrest
    rw [Offset.locate_cons]
    cases hu : f u with
    | none =>
      rw [edits_cons_none hu]
      exact hrest.of_le (Nat.le_add_right _ _)
    | some r =>
      rw [edits_cons_some hu]
      exact .cons (Nat.le_refl _) (Nat.le_add_right _ _) hrest

/-- Located units without some of the first are units that are located further on. -/
theorem exists_dropWhile_locate (p : Nat × U → Bool) (base : Nat) (us : List U) :
    ∃ base' us', base ≤ base' ∧
      base' + Offset.extent EscapeUnit.width us' = base + Offset.extent EscapeUnit.width us ∧
      (Offset.locate EscapeUnit.width base us).dropWhile p =
        Offset.locate EscapeUnit.width base' us' := by
  induction us generalizing base with
  | nil => exact ⟨base, [], Nat.le_refl _, rfl, rfl⟩
  | cons u us ih =>
    rw [Offset.locate_cons]
    by_cases hu : p (base, u) = true
    · obtain ⟨base', us', hle, hextent, hdrop⟩ := ih (base + EscapeUnit.width u)
      refine ⟨base', us', Nat.le_trans (Nat.le_add_right _ _) hle, ?_, ?_⟩
      · rw [hextent, Offset.extent_cons, Nat.add_assoc]
      · rw [List.dropWhile_cons_of_pos hu, hdrop]
    · exact ⟨base, u :: us, Nat.le_refl _, rfl, List.dropWhile_cons_of_neg hu⟩

/-- The edits of an input come in order, wherever the slow path starts. -/
theorem inOrder_editsFrom (us : List U) (start : Nat) :
    InOrder (EscapeUnit.encode us).length 0 (editsFrom f us start) := by
  obtain ⟨base, us', -, hextent, hdrop⟩ :=
    exists_dropWhile_locate (fun x => decide (x.1 < start)) 0 us
  have horder := inOrder_edits (f := f) base us'
  rw [hextent, Nat.zero_add, EscapeUnit.extent_width] at horder
  rw [editsFrom, hdrop]
  exact horder.of_le (Nat.zero_le _)

/-- **The slow path asks for no stretch that is not there.** -/
theorem splice?_editsFrom (us : List U) (start : Nat) :
    splice? (EscapeUnit.encode us) 0 (editsFrom f us start) =
      some (splice 0 (EscapeUnit.encode us) (editsFrom f us start)) :=
  splice?_eq (inOrder_editsFrom us start)

end Units

/-! ## The buffer -/

/-- How eagerly a buffer is made larger: so many octets for each octet of the input that is left, and
so many besides. -/
structure Growth where
  multiplier : Nat
  pad : Nat

/-- Octets usually become a handful of octets each. -/
def Growth.octets : Growth := ⟨2, 0⟩

/-- Most characters stay; the pad takes in a replacement now and then. -/
def Growth.characters : Growth := ⟨1, 32⟩

/-- A checked addition of sizes. -/
def plus? (limit m n : Nat) : Option Nat := if m + n ≤ limit then some (m + n) else none

/-- The sum of sizes, unless it goes beyond the limit on the way. -/
def sum? (limit : Nat) (sizes : List Nat) : Option Nat := sizes.foldlM (plus? limit) 0

/-- The room of a buffer that is to take `needed` octets when `left` octets of input are left. If it
has to become larger it gets room to spare. -/
def Growth.roomFor? (growth : Growth) (limit room needed left : Nat) : Option Nat :=
  if room < needed then
    sum? limit [needed, min limit (left * growth.multiplier), growth.pad]
  else some room

/-- A buffer that is being filled. -/
structure Buffer where
  octets : Bytes
  /-- How many octets there is room for. -/
  room : Nat
  /-- The offset up to which the input has been dealt with. -/
  done : Nat

namespace Buffer

def empty : Buffer := ⟨[], 0, 0⟩

/-- Copies the stretch before an edit and writes the replacement, in a larger buffer if there is no
room for both. -/
def put? (limit : Nat) (growth : Growth) (input : Bytes) (b : Buffer) (e : Edit) :
    Option Buffer := do
  let skipped ← Offset.slice? EscapeUnit.width input b.done e.start
  let needed ← sum? limit [b.octets.length, skipped.length, e.replacement.length]
  -- There was a stretch up to the start, so the start does not lie behind the end.
  let room ← growth.roomFor? limit b.room needed (input.length - e.start)
  return ⟨b.octets ++ skipped ++ e.replacement, room, e.stop⟩

/-- Copies the rest of the input, with nothing to spare. -/
def finish? (limit : Nat) (input : Bytes) (b : Buffer) : Option Bytes := do
  let rest ← Offset.slice? EscapeUnit.width input b.done input.length
  let _ ← sum? limit [b.octets.length, rest.length]
  return b.octets ++ rest

/-- Writes the edits one after the other, and then the rest of the input. -/
def run? (limit : Nat) (growth : Growth) (input : Bytes) (b : Buffer) (es : List Edit) :
    Option Bytes := do
  let b ← es.foldlM (put? limit growth input) b
  b.finish? limit input

end Buffer

/-- The octets of an input with the units at or after `start` replaced, put together in a buffer. -/
def editOctetsWithin? {U : Type} [EscapeUnit U] (limit : Nat) (growth : Growth)
    (replace : U → Option (List U)) (us : List U) (start : Nat) : Option (Edited Bytes) :=
  let input := EscapeUnit.encode us
  match editsFrom replace us start with
  | [] => some (.kept input)
  | es => .built <$> Buffer.empty.run? limit growth input es

/-! ## Sizes -/

/-- A chain of checked additions gives the sum exactly if that is within the limit. -/
theorem sum?_eq_some_iff {limit total : Nat} {sizes : List Nat} :
    sum? limit sizes = some total ↔ sizes.sum = total ∧ total ≤ limit := by
  suffices h : ∀ before, before ≤ limit →
      (sizes.foldlM (plus? limit) before = some total ↔
        before + sizes.sum = total ∧ total ≤ limit) by
    have h := h 0 (Nat.zero_le _)
    rwa [Nat.zero_add] at h
  induction sizes with
  | nil =>
    intro before hbefore
    rw [List.foldlM_nil, List.sum_nil, Nat.add_zero]
    constructor
    · intro h
      obtain rfl := Option.some.inj h
      exact ⟨rfl, hbefore⟩
    · rintro ⟨rfl, -⟩
      rfl
  | cons n sizes ih =>
    intro before hbefore
    rw [List.foldlM_cons, List.sum_cons, ← Nat.add_assoc, plus?]
    by_cases hn : before + n ≤ limit
    · rw [if_pos hn]
      exact ih _ hn
    · rw [if_neg hn]
      refine iff_of_false nofun ?_
      rintro ⟨rfl, htotal⟩
      exact hn (Nat.le_trans (Nat.le_add_right _ _) htotal)

namespace Growth

variable {growth : Growth} {limit room needed left : Nat}

/-- The room is enough, and stays within the limit. -/
theorem of_roomFor?_eq_some {room' : Nat} (h : growth.roomFor? limit room needed left = some room') :
    needed ≤ room' ∧ (room ≤ limit → room' ≤ limit) := by
  unfold roomFor? at h
  split at h
  · obtain ⟨hsum, hle⟩ := sum?_eq_some_iff.mp h
    refine ⟨?_, fun _ => hle⟩
    rw [← hsum, List.sum_cons]
    exact Nat.le_add_right _ _
  · next hfits =>
    obtain rfl := Option.some.inj h
    exact ⟨Nat.le_of_not_lt hfits, id⟩

theorem exists_roomFor?_eq_some (room : Nat)
    (h : needed + left * growth.multiplier + growth.pad ≤ limit) :
    ∃ room', growth.roomFor? limit room needed left = some room' := by
  unfold roomFor?
  split
  · refine ⟨_, sum?_eq_some_iff.mpr ⟨rfl, Nat.le_trans ?_ h⟩⟩
    have hspare := Nat.min_le_right limit (left * growth.multiplier)
    simp only [List.sum_cons, List.sum_nil, Nat.add_zero]
    omega
  · exact ⟨room, rfl⟩

end Growth

namespace Buffer

variable {limit : Nat} {growth : Growth} {input bs rest skipped : Bytes} {b b' : Buffer} {e : Edit}
  {es : List Edit}

/-! ## One edit -/

/-- What is written has room, and the room is within the limit. -/
structure Fits (limit : Nat) (b : Buffer) : Prop where
  written : b.octets.length ≤ b.room
  within : b.room ≤ limit

/-- **To write an edit** is to write the stretch before it, which has to be there, and the
replacement. Both have room. -/
theorem of_put?_eq_some (h : b.put? limit growth input e = some b') :
    ∃ skipped, Offset.slice? EscapeUnit.width input b.done e.start = some skipped ∧
      b'.octets = b.octets ++ skipped ++ e.replacement ∧ b'.done = e.stop ∧
      (b.room ≤ limit → b'.Fits limit) := by
  obtain ⟨skipped, hskipped, h⟩ := Option.bind_eq_some_iff.mp h
  obtain ⟨needed, hneeded, h⟩ := Option.bind_eq_some_iff.mp h
  obtain ⟨room, hroom, h⟩ := Option.bind_eq_some_iff.mp h
  obtain rfl := Option.some.inj h
  obtain ⟨hsum, -⟩ := sum?_eq_some_iff.mp hneeded
  obtain ⟨hneeded, hlimit⟩ := Growth.of_roomFor?_eq_some hroom
  refine ⟨skipped, hskipped, rfl, rfl, fun hb => ⟨?_, hlimit hb⟩⟩
  rw [← hsum] at hneeded
  simpa using hneeded

/-- An edit is written if there is room for what has to be written and for all that may be spared. -/
theorem exists_put?_eq_some
    (hskipped : Offset.slice? EscapeUnit.width input b.done e.start = some skipped)
    (hroom : (b.octets ++ skipped ++ e.replacement).length + input.length * growth.multiplier +
      growth.pad ≤ limit) :
    ∃ room, b.put? limit growth input e =
      some ⟨b.octets ++ skipped ++ e.replacement, room, e.stop⟩ := by
  have hneeded : sum? limit [b.octets.length, skipped.length, e.replacement.length] =
      some (b.octets ++ skipped ++ e.replacement).length := by
    refine sum?_eq_some_iff.mpr ⟨by simp, ?_⟩
    omega
  have hleft : (input.length - e.start) * growth.multiplier ≤ input.length * growth.multiplier :=
    Nat.mul_le_mul_right _ (Nat.sub_le _ _)
  have hbound : (b.octets ++ skipped ++ e.replacement).length +
      (input.length - e.start) * growth.multiplier + growth.pad ≤ limit := by omega
  obtain ⟨room, hgrown⟩ := Growth.exists_roomFor?_eq_some b.room hbound
  refine ⟨room, ?_⟩
  rw [put?, hskipped, Option.bind_eq_bind, Option.bind_some, hneeded, Option.bind_eq_bind,
    Option.bind_some, hgrown]
  rfl

/-! ## Runs -/

theorem run?_cons (b : Buffer) (e : Edit) (es : List Edit) :
    b.run? limit growth input (e :: es) =
      b.put? limit growth input e >>= fun b' => b'.run? limit growth input es := by
  rw [run?, List.foldlM_cons, bind_assoc]
  rfl

/-- Every buffer on the way has room for what is in it, and is within the limit. -/
theorem fits_of_foldlM (h : es.foldlM (put? limit growth input) b = some b')
    (hb : b.Fits limit) : b'.Fits limit := by
  induction es generalizing b with
  | nil =>
    obtain rfl := Option.some.inj h
    exact hb
  | cons e es ih =>
    rw [List.foldlM_cons] at h
    obtain ⟨next, hput, h⟩ := Option.bind_eq_some_iff.mp h
    obtain ⟨-, -, -, -, hfits⟩ := of_put?_eq_some hput
    exact ih h (hfits hb.within)

/-- **A buffer that is finished** holds what it held, followed by the edits and the stretches between
them, and is not larger than the limit. -/
theorem run?_sound (h : b.run? limit growth input es = some bs) :
    ∃ rest, splice? input b.done es = some rest ∧ bs = b.octets ++ rest ∧ bs.length ≤ limit := by
  induction es generalizing b with
  | nil =>
    obtain ⟨rest, hrest, h⟩ := Option.bind_eq_some_iff.mp h
    obtain ⟨total, htotal, h⟩ := Option.bind_eq_some_iff.mp h
    obtain rfl := Option.some.inj h
    obtain ⟨hsum, hle⟩ := sum?_eq_some_iff.mp htotal
    refine ⟨rest, hrest, rfl, ?_⟩
    rw [← hsum] at hle
    simpa using hle
  | cons e es ih =>
    rw [run?_cons] at h
    obtain ⟨next, hput, h⟩ := Option.bind_eq_some_iff.mp h
    obtain ⟨skipped, hskipped, hoctets, hdone, -⟩ := of_put?_eq_some hput
    obtain ⟨rest, hrest, rfl, hle⟩ := ih h
    refine ⟨skipped ++ e.replacement ++ rest, ?_, ?_, hle⟩
    · rw [hdone] at hrest
      rw [splice?, hskipped, hrest]
      rfl
    · rw [hoctets, List.append_assoc, List.append_assoc, List.append_assoc]

/-- **A buffer is finished** if the stretches are there and the limit leaves room for the result and
for what is to spare at the most. -/
theorem run?_complete (hrest : splice? input b.done es = some rest)
    (hroom : (b.octets ++ rest).length + input.length * growth.multiplier + growth.pad ≤ limit) :
    b.run? limit growth input es = some (b.octets ++ rest) := by
  induction es generalizing b rest with
  | nil =>
    have htotal : sum? limit [b.octets.length, rest.length] = some (b.octets ++ rest).length := by
      refine sum?_eq_some_iff.mpr ⟨by simp, ?_⟩
      omega
    rw [splice?] at hrest
    show b.finish? limit input = _
    rw [finish?, hrest, Option.bind_eq_bind, Option.bind_some, htotal]
    rfl
  | cons e es ih =>
    obtain ⟨skipped, hskipped, hrest⟩ := Option.bind_eq_some_iff.mp hrest
    obtain ⟨behind, hbehind, hrest⟩ := Option.bind_eq_some_iff.mp hrest
    obtain rfl := Option.some.inj hrest
    have hassoc : b.octets ++ (skipped ++ e.replacement ++ behind) =
        b.octets ++ skipped ++ e.replacement ++ behind := by
      simp only [List.append_assoc]
    rw [hassoc] at hroom ⊢
    -- What is written at this edit is part of the result, so there is room for it.
    have hput : (b.octets ++ skipped ++ e.replacement).length +
        input.length * growth.multiplier + growth.pad ≤ limit := by
      have hlength : (b.octets ++ skipped ++ e.replacement ++ behind).length =
        (b.octets ++ skipped ++ e.replacement).length + behind.length := List.length_append
      omega
    obtain ⟨room, hput⟩ := exists_put?_eq_some hskipped hput
    rw [run?_cons, hput]
    exact ih hbehind hroom

end Buffer

/-! ## The slow path -/

section Paths

variable {U : Type} [EscapeUnit U] {f : U → Option (List U)} {limit : Nat} {growth : Growth}
  {us : List U} {start : Nat}

/-- What the slow path puts together in a buffer is what the splice says, and fits the limit. -/
theorem eq_editOctets_of_within {r : Edited Bytes}
    (h : editOctetsWithin? limit growth f us start = some r) :
    r = editOctets f us start ∧ (r.isKept = false → r.value.length ≤ limit) := by
  have hsplice := splice?_editsFrom (f := f) us start
  unfold editOctetsWithin? at h
  unfold editOctets
  generalize editsFrom f us start = es at h hsplice ⊢
  cases es with
  | nil =>
    obtain rfl := Option.some.inj h
    exact ⟨rfl, fun hkept => nomatch hkept⟩
  | cons e es =>
    obtain ⟨bs, hrun, rfl⟩ := Option.map_eq_some_iff.mp h
    obtain ⟨rest, hrest, rfl, hle⟩ := Buffer.run?_sound hrun
    obtain rfl := Option.some.inj (hrest.symm.trans hsplice)
    exact ⟨rfl, fun _ => hle⟩

/-- **The slow path never fails but for want of room.** If the limit leaves room for the result and
for what is to spare at the most, the octets are put together, and they are those of the splice. -/
theorem editOctetsWithin?_eq_some (h : (editOctets f us start).value.length +
    (EscapeUnit.encode us).length * growth.multiplier + growth.pad ≤ limit) :
    editOctetsWithin? limit growth f us start = some (editOctets f us start) := by
  have hsplice := splice?_editsFrom (f := f) us start
  unfold editOctets at h ⊢
  unfold editOctetsWithin?
  generalize editsFrom f us start = es at h hsplice ⊢
  cases es with
  | nil => rfl
  | cons e es =>
    have hrun : Buffer.empty.run? limit growth (EscapeUnit.encode us) (e :: es) =
        some (splice 0 (EscapeUnit.encode us) (e :: es)) := Buffer.run?_complete hsplice h
    dsimp only
    rw [hrun]
    rfl

end Paths

/-- Characters ask for as much room again as the input takes, and for the pad. -/
theorem editOctetsWithin?_characters {f : Char → Option Text} {s : Text} {start limit : Nat}
    (h : (editOctets f s start).value.length + (Utf8.encode s).length + 32 ≤ limit) :
    editOctetsWithin? limit .characters f s start = some (editOctets f s start) := by
  apply editOctetsWithin?_eq_some
  show _ + (Utf8.encode s).length * 1 + 32 ≤ limit
  rw [Nat.mul_one]
  exact h

/-- Octets ask for twice as much room as the input takes. -/
theorem editOctetsWithin?_octets {f : UInt8 → Option Bytes} {bs : Bytes} {start limit : Nat}
    (h : (editOctets f bs start).value.length + bs.length * 2 ≤ limit) :
    editOctetsWithin? limit .octets f bs start = some (editOctets f bs start) := by
  apply editOctetsWithin?_eq_some
  rw [encode_octets]
  exact h

end TextOps
