import Mathlib.Data.List.Infix
import TextOps.Escape.Request
import TextOps.Escape.Url
import TextOps.Proofs.Escape.Html
import TextOps.Proofs.Escape.Percent
import TextOps.Proofs.Escape.Resolution
import TextOps.Proofs.Escape.Run

/-!
# `TextOps/Proofs/Escape/Scan.lean` — what escapers report, and when

An escaper reports that it takes the slow path, where from, and how long its input is. When it does
can be said without any path: if some unit of the input stops the scan, and then from where the first
such unit starts (`slowPathEvents`). Which units these are depends on how the escaper was made, and
that is all that the report depends on (`CharEscaper.Origin`, `ByteEscaper.Origin`).

Whether the result was built is another matter. A result that was built has been reported
(`Answers.events_ne_nil`). The converse needs a scan that stops at units with a replacement only, and the
scan of an escaper with a safe range is not of that kind.
-/

set_option autoImplicit false

namespace TextOps

variable {U : Type} [EscapeUnit U]

/-! ## What there is to report -/

/-- The report on an input, if a unit of it stops the scan: the offset of the first such unit, and
the length of the input. -/
def slowPathEvents (stops : U → Bool) (us : List U) : List Event :=
  if us.any stops then
    [.slowPath (EscapeUnit.encode (us.takeWhile fun u => !stops u)).length
      (EscapeUnit.encode us).length]
  else []

theorem slowPathEvents_eq_nil_iff {stops : U → Bool} {us : List U} :
    slowPathEvents stops us = [] ↔ ∀ u ∈ us, stops u = false := by
  unfold slowPathEvents
  split
  · next hany =>
    obtain ⟨u, hu, hstop⟩ := List.any_eq_true.mp hany
    exact iff_of_false (List.cons_ne_nil _ _) fun h => absurd (h u hu) (by simp [hstop])
  · next hany =>
    refine iff_of_true rfl fun u hu => ?_
    rw [← Bool.not_eq_true]
    exact fun hstop => hany (List.any_eq_true.mpr ⟨u, hu, hstop⟩)

namespace Request

/-- What there is to report on a call that scans its input. -/
def scanEvents (stops : U → Bool) : Request U → List Event
  | escape s => slowPathEvents stops (EscapeUnit.ofText s)
  | escapeUnits us => slowPathEvents stops us
  | _ => []

/-- What there is to report on any call. One that begins where it is told to reports this offset, if
a part of the input ends there. -/
def events (stops : U → Bool) : Request U → List Event
  | escapeSlow us start =>
    if us.inits.any fun before => (EscapeUnit.encode before).length == start then
      [.slowPath start (EscapeUnit.encode us).length]
    else []
  | q => q.scanEvents stops

end Request

/-! ## What the two paths report -/

section Paths

variable {scan : U → Bool} {f : U → Option (List U)}

theorem events_escapeFrom (us : List U) (start : Nat) :
    (escapeFrom f us start).events = [.slowPath start (EscapeUnit.encode us).length] := rfl

@[simp] theorem events_escapeWhere (us : List U) :
    (escapeWhere scan f us).events = slowPathEvents scan us := by
  unfold escapeWhere
  rcases Offset.none_or_first scan us with hnone | ⟨before, u, after, rfl, hbefore, hu⟩
  · rw [Offset.first?_eq_none hnone]
    exact (slowPathEvents_eq_nil_iff.mpr hnone).symm
  · have hany : (before ++ u :: after).any scan = true := by simp [hu]
    have hfirst : (before ++ u :: after).takeWhile (fun v => !scan v) = before := by
      rw [List.takeWhile_append_of_pos fun v hv => by simp [hbefore v hv],
        List.takeWhile_cons_of_neg (by simp [hu]), List.append_nil]
    rw [Offset.first?_append_cons hbefore hu, slowPathEvents, if_pos hany, hfirst,
      ← EscapeUnit.extent_width before]
    rfl

@[simp] theorem events_escapeText (escape : List U → Logged (Edited (List U))) (s : Text) :
    (escapeText escape s).events = (escape (EscapeUnit.ofText s)).events := by
  rw [escapeText, Logged.events_bind, Logged.events_pure, List.append_nil]

theorem any_inits_iff {us : List U} {start : Nat} :
    (us.inits.any fun before => (EscapeUnit.encode before).length == start) = true ↔
      Offset.isBoundary EscapeUnit.width us start = true := by
  rw [Offset.isBoundary_iff, List.any_eq_true]
  constructor
  · rintro ⟨before, hbefore, hstart⟩
    obtain ⟨after, rfl⟩ := (List.mem_inits _ _).mp hbefore
    exact ⟨before, after, rfl, (EscapeUnit.extent_width before).trans (by simpa using hstart)⟩
  · rintro ⟨before, after, rfl, hstart⟩
    refine ⟨before, (List.mem_inits _ _).mpr (List.prefix_append _ _), ?_⟩
    simpa [EscapeUnit.extent_width] using hstart

theorem events_escapeSlow (us : List U) (start : Nat) :
    (escapeSlow f us start).events = (Request.escapeSlow us start).events scan := by
  simp only [escapeSlow, Request.events, any_inits_iff]
  split
  · rw [Logged.events_map, events_escapeFrom]
  · rfl

/-- A slow path that begins where it is told to is reported unless it fails. -/
theorem events_escapeSlow_eq_nil_iff (us : List U) (start : Nat) :
    (escapeSlow f us start).events = [] ↔ ∃ fault, (escapeSlow f us start).value = .error fault := by
  unfold escapeSlow
  split
  · refine iff_of_false ?_ ?_
    · rw [Logged.events_map, events_escapeFrom]
      exact List.cons_ne_nil _ _
    · rintro ⟨fault, h⟩
      exact nomatch h
  · exact iff_of_true rfl ⟨_, rfl⟩

theorem isKept_of_events_escapeWhere {us : List U} (h : (escapeWhere scan f us).events = []) :
    (escapeWhere scan f us).value.isKept = true := by
  unfold escapeWhere at h ⊢
  split at h
  · exact absurd h (List.cons_ne_nil _ _)
  · rfl

theorem isKept_escapeWhere_iff [LawfulUnit U] (hscan : ∀ u, scan u = (f u).isSome) (us : List U) :
    (escapeWhere scan f us).value.isKept = true ↔ (escapeWhere scan f us).events = [] := by
  have hnone : ∀ u, scan u = false ↔ f u = none := fun u => by simp [hscan u]
  rw [value_escapeWhere fun u => (hnone u).mp, isKept_replacedAfter, events_escapeWhere,
    slowPathEvents_eq_nil_iff]
  exact forall₂_congr fun u _ => (hnone u).symm

end Paths

/-! ## Calls -/

/-- Whether a reply gives a text or units that were built. -/
def Reply.isBuilt : Reply U → Bool
  | text r => !r.isKept
  | units r => !r.isKept
  | _ => false

/-- A call with an input goes to the scan and the slow path, or to the slow path at once, and any
other is answered without a report. -/
inductive Answers (scan : U → Bool) (f : U → Option (List U)) :
    Request U → Logged (Reply U) → Prop where
  | text (s : Text) :
    Answers scan f (.escape s) (.text <$> escapeText (escapeWhere scan f) s)
  | units (us : List U) : Answers scan f (.escapeUnits us) (.units <$> escapeWhere scan f us)
  | slow (us : List U) (start : Nat) :
    Answers scan f (.escapeSlow us start) (.ofUnits <$> escapeSlow f us start)
  | silent {q : Request U} {a : Reply U} (ha : a.isBuilt = false) : Answers scan f q (pure a)

namespace Answers

variable {scan : U → Bool} {f : U → Option (List U)} {q : Request U} {m : Logged (Reply U)}

/-- **What has not been reported has not been built.** -/
theorem isBuilt_eq_false (h : Answers scan f q m) (hevents : m.events = []) :
    m.value.isBuilt = false := by
  cases h with
  | text s =>
    rw [Logged.events_map, events_escapeText] at hevents
    rw [Logged.value_map, Reply.isBuilt, isKept_escapeText, isKept_of_events_escapeWhere hevents]
    rfl
  | units us =>
    rw [Logged.events_map] at hevents
    rw [Logged.value_map, Reply.isBuilt, isKept_of_events_escapeWhere hevents]
    rfl
  | slow us start =>
    rw [Logged.events_map] at hevents
    obtain ⟨fault, hfault⟩ := (events_escapeSlow_eq_nil_iff us start).mp hevents
    rw [Logged.value_map, hfault]
    rfl
  | silent ha => exact ha

theorem events_ne_nil (h : Answers scan f q m) (hbuilt : m.value.isBuilt = true) :
    m.events ≠ [] := fun hevents =>
  Bool.false_ne_true ((h.isBuilt_eq_false hevents).symm.trans hbuilt)

/-- If the scan stops at units with a replacement only, a call that scans its input reports what it
builds and nothing else. -/
theorem events_ne_nil_iff [LawfulUnit U] (h : Answers scan f q m)
    (hscan : ∀ u, scan u = (f u).isSome) (hq : ∀ us start, q ≠ .escapeSlow us start) :
    m.events ≠ [] ↔ m.value.isBuilt = true := by
  refine ⟨fun hevents => ?_, h.events_ne_nil⟩
  cases h with
  | text s =>
    rw [Logged.events_map, events_escapeText, Ne, ← isKept_escapeWhere_iff hscan] at hevents
    rw [Logged.value_map, Reply.isBuilt, isKept_escapeText, Bool.not_eq_true', ← Bool.not_eq_true]
    exact hevents
  | units us =>
    rw [Logged.events_map, Ne, ← isKept_escapeWhere_iff hscan] at hevents
    rw [Logged.value_map, Reply.isBuilt, Bool.not_eq_true', ← Bool.not_eq_true]
    exact hevents
  | slow us start => exact absurd rfl (hq us start)
  | silent ha => exact absurd rfl hevents

end Answers

/-- A call on a text or on units reports if, and only if, its result is built. -/
def ReportsBuilding (reply : Request U → Logged (Reply U)) : Prop :=
  (∀ s, (reply (.escape s)).events ≠ [] ↔ (reply (.escape s)).value.isBuilt = true) ∧
    ∀ us, (reply (.escapeUnits us)).events ≠ [] ↔ (reply (.escapeUnits us)).value.isBuilt = true

theorem Answers.reportsBuilding [LawfulUnit U] {scan : U → Bool} {f : U → Option (List U)}
    {reply : Request U → Logged (Reply U)} (h : ∀ q, Answers scan f q (reply q))
    (hscan : ∀ u, scan u = (f u).isSome) : ReportsBuilding reply :=
  ⟨fun _ => (h _).events_ne_nil_iff hscan nofun,
    fun _ => (h _).events_ne_nil_iff hscan nofun⟩

/-! ## Escapers by kind -/

theorem FunctionEscaper.answers (description : String) (e : FunctionEscaper U) (q : Request U) :
    Answers (fun u => (e.replace u).isSome) e.replace q (e.reply description q) := by
  cases q with
  | escape s => exact .text s
  | escapeUnits us => exact .units us
  | escapeSlow us start => exact .slow us start
  | escapeUnit | isSafe | table | describe => exact .silent rfl

theorem RangeEscaper.answers (e : RangeEscaper U) (q : Request U) :
    Answers e.needsLook e.replace q (e.reply q) := by
  cases q with
  | escape s => exact .text s
  | escapeUnits us => exact .units us
  | table q => cases q <;> exact .silent rfl
  | escapeSlow | escapeUnit | isSafe | describe => exact .silent rfl

theorem TableEscaper.answers (e : TableEscaper U) (q : Request U) :
    Answers (fun u => (e.replace u).isSome) e.replace q (e.reply q) := by
  cases q with
  | escape s => exact .text s
  | escapeUnits us => exact .units us
  | escapeSlow | escapeUnit | isSafe | table | describe => exact .silent rfl

/-- The characters of a text are its units, and are not read from units again. -/
theorem escapeText_characters {scan : Char → Bool} {f : Char → Option Text} (s : Text) :
    escapeText (escapeWhere scan f) s = escapeWhere scan f s := by
  refine Logged.ext ?_ (events_escapeText _ s)
  show (escapeWhere scan f s).value.onto s id = (escapeWhere scan f s).value
  unfold escapeWhere
  split
  · next start _ =>
    show ((editOctets f s start).onto s EscapeUnit.ofOctets).onto s id =
      (editOctets f s start).onto s EscapeUnit.ofOctets
    cases editOctets f s start <;> rfl
  · rfl

theorem PercentEscaper.answers (e : PercentEscaper) (q : Request Char) :
    Answers (fun c => !e.isSafe c) e.replace q (e.reply q) := by
  cases q with
  | escape s =>
    rw [reply, escape, ← escapeText_characters]
    exact .text s
  | escapeUnits | escapeSlow | escapeUnit | isSafe | table | describe => exact .silent rfl

/-! ## Escapers by origin -/

section Listed

variable [DecidableEq U]

def isListed (pairs : List (U × List U)) (u : U) : Bool := pairs.any (·.1 = u)

/-- Whether a unit is listed or not safe. Nothing is safe if the bounds are in the wrong order. -/
def isListedOrUnsafe (pairs : List (U × List U)) (low high u : U) : Bool :=
  isListed pairs u || decide (EscapeUnit.code high < EscapeUnit.code low) ||
    decide (EscapeUnit.code u < EscapeUnit.code low) ||
    decide (EscapeUnit.code high < EscapeUnit.code u)

omit [EscapeUnit U] in
theorem isListed_eq (pairs : List (U × List U)) (u : U) :
    isListed pairs u = (latest? pairs u).isSome := by
  rw [Bool.eq_iff_iff, isListed, latest?, Option.isSome_map, List.find?_isSome, List.any_eq_true]
  simp only [List.mem_reverse]

theorem isListedOrUnsafe_congr {pairs pairs' : List (U × List U)}
    (h : isListed pairs = isListed pairs') (low high : U) :
    isListedOrUnsafe pairs low high = isListedOrUnsafe pairs' low high := by
  funext u
  rw [isListedOrUnsafe, h, isListedOrUnsafe]

theorem RangeEscaper.needsLook_make [LawfulCode U] (pairs : List (U × List U)) (low high : U)
    (fallback : U → Option (List U)) :
    (make (.ofPairs pairs) low high fallback).needsLook = isListedOrUnsafe pairs low high := by
  funext u
  have hsafe : (make (.ofPairs pairs) low high fallback).isSafe u = false ↔
      EscapeUnit.code high < EscapeUnit.code low ∨ EscapeUnit.code u < EscapeUnit.code low ∨
        EscapeUnit.code high < EscapeUnit.code u := by
    rw [← Bool.not_eq_true, isSafe_make]
    omega
  rw [needsLook, table_make, Table.get?_ofPairs, ← isListed_eq, Bool.eq_iff_iff]
  simp only [isListedOrUnsafe, Bool.or_eq_true, Bool.not_eq_true', decide_eq_true_iff, hsafe,
    or_assoc]

end Listed

section

variable {scan : U → Bool} {f : U → Option (List U)}

theorem events_text (s : Text) :
    (Reply.text <$> escapeText (escapeWhere scan f) s : Logged (Reply U)).events =
      slowPathEvents scan (EscapeUnit.ofText s) := by
  rw [Logged.events_map, events_escapeText, events_escapeWhere]

theorem events_units (us : List U) :
    (Reply.units <$> escapeWhere scan f us).events = slowPathEvents scan us := by
  rw [Logged.events_map, events_escapeWhere]

end

theorem FunctionEscaper.events_reply (description : String) (f : U → Option (List U))
    (q : Request U) :
    ((FunctionEscaper.mk f).reply description q).events = q.events fun u => (f u).isSome := by
  cases q with
  | escape s => exact events_text s
  | escapeUnits us => exact events_units us
  | escapeSlow us start => exact (Logged.events_map _ _).trans (events_escapeSlow us start)
  | escapeUnit | isSafe | table | describe => rfl

theorem RangeEscaper.events_reply (e : RangeEscaper U) (q : Request U) :
    (e.reply q).events = q.scanEvents e.needsLook := by
  cases q with
  | escape s => exact events_text s
  | escapeUnits us => exact events_units us
  | escapeSlow | escapeUnit | isSafe | table | describe => rfl

theorem TableEscaper.events_reply (e : TableEscaper U) (q : Request U) :
    (e.reply q).events = q.scanEvents fun u => (e.replace u).isSome := by
  cases q with
  | escape s => exact events_text s
  | escapeUnits us => exact events_units us
  | escapeSlow | escapeUnit | isSafe | table | describe => rfl

namespace CharEscaper

/-- What an escaper of characters is made from. -/
inductive Origin where
  | identity
  | percent (safe : Text) (plusForSpace : Bool)
  | function (f : Char → Option Text)
  /-- A table, the bounds of a safe range, and what to do with other characters. -/
  | range (pairs : List (Char × Text)) (low high : Char) (fallback : Char → Option Text)

namespace Origin

def escaper : Origin → CharEscaper
  | identity => .identity
  | percent safe plusForSpace => .percent (.ofSafe safe plusForSpace)
  | function f => .function ⟨f⟩
  | range pairs low high fallback => .range (.make (.ofPairs pairs) low high fallback)

/-- What there is to report on a call. -/
def events : Origin → Request Char → List Event
  | identity, _ => []
  | percent safe _, .escape s => slowPathEvents (fun c => !(c.isAlphanum || safe.contains c)) s
  | percent .., _ => []
  | function f, q => q.events fun c => (f c).isSome
  | range pairs low high _, q => q.scanEvents (isListedOrUnsafe pairs low high)

theorem events_reply (o : Origin) (q : Request Char) : (o.escaper.reply q).events = o.events q := by
  cases o with
  | identity => cases q <;> rfl
  | percent safe plus =>
    have hsafe : (fun c => !(PercentEscaper.ofSafe safe plus).isSafe c) =
        fun c => !(c.isAlphanum || safe.contains c) := by
      funext c
      refine congrArg Bool.not (Bool.eq_iff_iff.mpr ?_)
      rw [PercentEscaper.isSafe_ofSafe, Bool.or_eq_true, List.contains_iff_mem]
    cases q with
    | escape s =>
      rw [events, ← hsafe]
      exact (Logged.events_map _ _).trans (events_escapeWhere s)
    | escapeUnits | escapeSlow | escapeUnit | isSafe | table | describe => rfl
  | function f => exact FunctionEscaper.events_reply _ f q
  | range pairs low high fallback =>
    rw [events, ← RangeEscaper.needsLook_make]
    exact RangeEscaper.events_reply _ q

/-- What a builder of escapers builds is made from its pairs and its range. -/
example (b : Builder Char) (fallback : Char → Option Text) :
    (range b.mappings.pairs b.low b.high fallback).escaper =
      .range (b.buildWith fallback).value := rfl

example : (percent Url.formSafe true).escaper = .percent Url.formParameterEscaper := rfl

end Origin

end CharEscaper

namespace ByteEscaper

/-- What an escaper of octets is made from. -/
inductive Origin where
  | function (f : UInt8 → Option Bytes)
  | range (pairs : List (UInt8 × Bytes)) (low high : UInt8) (fallback : UInt8 → Option Bytes)
  | table (pairs : List (UInt8 × Bytes))

namespace Origin

def escaper : Origin → ByteEscaper
  | function f => .function ⟨f⟩
  | range pairs low high fallback => .range (.make (.ofPairs pairs) low high fallback)
  | table pairs => .table ⟨.ofPairs pairs⟩

def events : Origin → Request UInt8 → List Event
  | function f, q => q.events fun b => (f b).isSome
  | range pairs low high _, q => q.scanEvents (isListedOrUnsafe pairs low high)
  | table pairs, q => q.scanEvents (isListed pairs)

theorem events_reply (o : Origin) (q : Request UInt8) :
    (o.escaper.reply q).events = o.events q := by
  cases o with
  | function f => exact FunctionEscaper.events_reply _ f q
  | range pairs low high fallback =>
    rw [events, ← RangeEscaper.needsLook_make]
    exact RangeEscaper.events_reply _ q
  | table pairs =>
    rw [events, funext (isListed_eq pairs), ← TableEscaper.replace_ofPairs]
    exact TableEscaper.events_reply _ q

end Origin

end ByteEscaper

omit [EscapeUnit U] in
/-- The events of calls are those of each call, one call after the other. -/
theorem events_replies {reply : Request U → Logged (Reply U)} (qs : List (Request U)) :
    (replies reply qs).events = qs.flatMap fun q => (reply q).events := by
  induction qs with
  | nil => rfl
  | cons q qs ih =>
    rw [replies, Logged.events_bind, Logged.events_bind, Logged.events_pure, List.append_nil, ih,
      List.flatMap_cons]

/-! ## Escapers that report what they build -/

theorem reportsBuilding_function [LawfulUnit U] (description : String)
    (e : FunctionEscaper U) : ReportsBuilding (e.reply description) :=
  Answers.reportsBuilding (e.answers description) fun _ => rfl

theorem reportsBuilding_table [LawfulUnit U] (e : TableEscaper U) : ReportsBuilding e.reply :=
  Answers.reportsBuilding e.answers fun _ => rfl

theorem reportsBuilding_percent (e : PercentEscaper) : ReportsBuilding e.reply := by
  refine Answers.reportsBuilding e.answers fun c => ?_
  rw [PercentEscaper.replace]
  cases e.isSafe c with
  | true => rfl
  | false =>
    rw [if_neg Bool.false_ne_true]
    split <;> rfl

theorem RangeEscaper.needsLook_of_isSafe {e : RangeEscaper U} {u : U} (h : e.isSafe u = true) :
    e.needsLook u = (e.replace u).isSome := by
  rw [needsLook, replace, h]
  cases e.table.get? u <;> rfl

/-- The safe range of the escaper for HTML takes in everything. -/
theorem Html.isSafe_escaper (c : Char) : escaper.isSafe c = true := by
  have hvalid := Utf8.codePoint_valid c
  refine RangeEscaper.isSafe_make c |>.mpr ⟨Nat.zero_le _, ?_⟩
  show c.toNat ≤ 0x10FFFF
  omega

theorem Html.reportsBuilding_escaper : ReportsBuilding escaper.reply :=
  Answers.reportsBuilding escaper.answers fun c =>
    RangeEscaper.needsLook_of_isSafe (isSafe_escaper c)

end TextOps
