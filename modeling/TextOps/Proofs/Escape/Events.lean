import Mathlib.Data.List.Dedup
import TextOps.Proofs.Escape.Scan
import TextOps.Proofs.Escape.Snapshot

/-!
# `TextOps/Proofs/Escape/Events.lean` — the events of a run are those of its calls and builds

What a run reports can be read off its steps, without any builder or escaper (`Builder.events`,
`Mappings.events`). A build reports how many units have a replacement and which range is safe, by the
lineage of the builder. A call reports what its escaper reports, and that depends on what the scan of
the escaper stops at, which was settled when it was built. Nothing else reports anything.

A step reports by the steps before it, so the induction is on the script from behind
(`Logged.events_runSteps_withPast`), and what it needs to know about the workbench is what each of the
escapers there reports (`Builder.snapshots_eq`).
-/

set_option autoImplicit false

namespace TextOps

variable {U : Type}

/-! ## Steps and what lies before them -/

/-- The steps of a script, each with those before it. -/
def withPast {ι : Type} (past : List ι) : List ι → List (List ι × ι)
  | [] => []
  | i :: is => (past, i) :: withPast (past ++ [i]) is

theorem withPast_concat {ι : Type} (past is : List ι) (i : ι) :
    withPast past (is ++ [i]) = withPast past is ++ [(past ++ is, i)] := by
  induction is generalizing past with
  | nil =>
    rw [List.append_nil]
    rfl
  | cons j is ih =>
    rw [List.cons_append, withPast, withPast, ih, List.append_assoc]
    rfl

section Runs

variable {σ ι ρ : Type} {step : σ → ι → Logged (σ × ρ)} {st : σ}

theorem Logged.events_runSteps_withPast {events : List ι → ι → List Event}
    (h : ∀ before i, (step (runSteps step st before).value.1 i).events = events before i)
    (is : List ι) :
    (runSteps step st is).events = (withPast [] is).flatMap fun p => events p.1 p.2 := by
  induction is using List.reverseRecOn with
  | nil => rfl
  | append_singleton is i ih =>
    rw [events_runSteps_append, events_runSteps_cons, h, ih, withPast_concat, List.flatMap_append,
      List.flatMap_singleton]
    exact congrArg _ (List.append_nil _)

end Runs

namespace Workbench

variable {β ε ι ρ : Type} {step : Workbench β ε → ι → Logged (Workbench β ε × ρ)} {new : β}

/-- If each step adds what it builds, what has been built is what the steps have built. -/
theorem map_built_runSteps {α : Type} {view : ε → α} {builds? : List ι → ι → Option α}
    (h : ∀ before i,
      (step (Logged.runSteps step (start new) before).value.1 i).value.1.built.map view =
        (Logged.runSteps step (start new) before).value.1.built.map view ++
          (builds? before i).toList) (is : List ι) :
    (Logged.runSteps step (start new) is).value.1.built.map view =
      (withPast [] is).filterMap fun p => builds? p.1 p.2 := by
  induction is using List.reverseRecOn with
  | nil => rfl
  | append_singleton is i ih =>
    rw [Logged.value_runSteps_append, Logged.value_runSteps_cons, withPast_concat,
      List.filterMap_append, ← ih, List.nil_append]
    refine (h is i).trans (congrArg _ ?_)
    cases hbuilds : builds? is i <;> simp [hbuilds]

end Workbench

/-! ## What the changes of a builder come to -/

namespace Change

variable [DecidableEq U]

/-- How many units have a replacement after these changes. -/
def count (changes : List (Change U)) : Nat := ((additions changes).map Prod.fst).dedup.length

/-- Whether the scan of an escaper that was built after these changes stops at a unit. -/
def stops [EscapeUnit U] (changes : List (Change U)) : U → Bool :=
  isListedOrUnsafe (additions changes) (range changes).1 (range changes).2

end Change

theorem mem_map_fst_iff [DecidableEq U] {pairs : List (U × List U)} {u : U} :
    u ∈ pairs.map Prod.fst ↔ (latest? pairs u).isSome = true := by
  rw [← isListed_eq, isListed, List.any_eq_true, List.mem_map]
  simp only [decide_eq_true_iff]

namespace Mappings.Reflects

variable [DecidableEq U] {m : Mappings U} {changes : List (Change U)}

theorem isListed_eq (h : m.Reflects changes) :
    isListed m.pairs = isListed (Change.additions changes) := by
  funext u
  rw [TextOps.isListed_eq, TextOps.isListed_eq, h u]

theorem count_eq (h : m.Reflects changes) (hunits : (m.pairs.map Prod.fst).Nodup) :
    m.count = Change.count changes := by
  have hperm : (m.pairs.map Prod.fst).Perm ((Change.additions changes).map Prod.fst).dedup := by
    refine (List.perm_ext_iff_of_nodup hunits (List.nodup_dedup _)).mpr fun u => ?_
    rw [List.mem_dedup, mem_map_fst_iff, mem_map_fst_iff, h u]
  rw [count, Change.count, ← hperm.length_eq, List.length_map]

end Mappings.Reflects

section Builders

variable [EscapeUnit U] [DecidableEq U]

namespace Builder.Reflects

variable {b : Builder U} {changes : List (Change U)}

theorem events_buildWith (h : b.Reflects changes)
    (hunits : (b.mappings.pairs.map Prod.fst).Nodup) (fallback : U → Option (List U)) :
    (b.buildWith fallback).events = [EscapeUnit.building (Change.count changes)
      (Change.range changes).1 (Change.range changes).2] := by
  rw [buildWith, Logged.events_bind, Logged.events_report, Logged.events_pure, List.append_nil,
    h.mappings.count_eq hunits, ← h.range]

/-- What is built reports by the changes, whatever the fallback. -/
theorem events_reply_buildWith [LawfulCode U] (h : b.Reflects changes)
    (fallback : U → Option (List U)) (q : Request U) :
    ((b.buildWith fallback).value.reply q).events = q.scanEvents (Change.stops changes) := by
  have hstops : isListedOrUnsafe b.mappings.pairs b.low b.high = Change.stops changes := by
    rw [Change.stops, ← h.range, isListedOrUnsafe_congr h.mappings.isListed_eq]
  rw [RangeEscaper.events_reply, ← hstops]
  exact congrArg q.scanEvents (RangeEscaper.needsLook_make _ _ _ _)

end Builder.Reflects

/-! ## Runs of a builder -/

/-- What the escaper has to report on each call that a step builds. -/
def Builder.Step.builds? (before : List (Builder.Step U)) :
    Builder.Step U → Option (Request U → List Event)
  | .build | .buildWith _ => some fun q => q.scanEvents (Change.stops (lineage before))
  | _ => none

/-- What the escapers have to report on each call that have been built, the first one first. -/
def Builder.snapshots (steps : List (Builder.Step U)) : List (Request U → List Event) :=
  (withPast [] steps).filterMap fun p => p.2.builds? p.1

/-- What there is to report on a step. -/
def Builder.Step.events (before : List (Builder.Step U)) : Builder.Step U → List Event
  | .build | .buildWith _ =>
    [EscapeUnit.building (Change.count (lineage before)) (Change.range (lineage before)).1
      (Change.range (lineage before)).2]
  | .call n q => ((snapshots before)[n]?.map (· q)).getD []
  | _ => []

/-- What there is to report on a run. -/
def Builder.events (steps : List (Builder.Step U)) : List Event :=
  (withPast [] steps).flatMap fun p => p.2.events p.1

variable [LawfulCode U]

theorem Builder.nodup_runScript (steps : List (Builder.Step U)) :
    ((runScript (.start .new) steps).value.1.builder.mappings.pairs.map Prod.fst).Nodup := by
  have h : Logged.Alike (Workbench.Alike Builder.Alike) (runScript (.start .new) steps)
      (runScript (.start .new) steps) := .runSteps (fun _ _ s h => s.alike h) (.start .new) steps
  exact h.state.builder.mappings.nodup

theorem Builder.snapshots_eq (steps : List (Builder.Step U)) :
    (runScript (.start .new) steps).value.1.built.map (fun e q => (e.reply q).events) =
      snapshots steps := by
  refine Workbench.map_built_runSteps (fun before s => ?_) steps
  have hreflects := reflects_runScript before
  cases s with
  | build | buildWith =>
    refine List.map_append.trans (congrArg _ (congrArg (fun reports => [reports]) ?_))
    exact funext (hreflects.events_reply_buildWith _)
  | restore =>
    exact (congrArg (List.map _) (Workbench.built_restore _)).trans (List.append_nil _).symm
  | call n q =>
    rw [Builder.Step.run]
    split <;> exact (List.append_nil _).symm
  | add | addAll | safeRange | replaceOthers | reset | save => exact (List.append_nil _).symm

/-- **A step reports what the steps before it call for.** -/
theorem Builder.Step.events_run (before : List (Builder.Step U)) (s : Builder.Step U) :
    (run (runScript (.start .new) before).value.1 s).events = s.events before := by
  have hreflects := reflects_runScript before
  have hunits := nodup_runScript before
  have hbuilt := snapshots_eq before
  generalize (runScript (.start .new) before).value.1 = w at hreflects hunits hbuilt
  cases s with
  | build => exact (List.append_nil _).trans (hreflects.events_buildWith hunits _)
  | buildWith fallback =>
    exact (List.append_nil _).trans (hreflects.events_buildWith hunits fallback)
  | call n q =>
    rw [run, events, ← hbuilt, List.getElem?_map]
    cases w.built[n]? with
    | none => rfl
    | some e => exact List.append_nil _
  | add | addAll | safeRange | replaceOthers | reset | save | restore => rfl

theorem Builder.events_runScript (steps : List (Builder.Step U)) :
    (runScript (.start .new) steps).events = events steps :=
  Logged.events_runSteps_withPast Builder.Step.events_run steps

end Builders

/-- A unit that is listed twice counts once. -/
example : Builder.events [.add '<' ['('], .add '<' ['['], .build, .call 0 (.escape ['é', '<'])] =
    [.buildingChars 1 '\x00' (Char.ofNat 0x10FFFF), .slowPath 2 3] := by cbv

/-! ## Runs of mappings -/

namespace Mappings

def Step.builds? (before : List Step) : Step → Option (Request UInt8 → List Event)
  | .build => some fun q => q.scanEvents (isListed (Change.additions (lineage before)))
  | .buildRange low high _ =>
    some fun q => q.scanEvents (isListedOrUnsafe (Change.additions (lineage before)) low high)
  | _ => none

def snapshots (steps : List Step) : List (Request UInt8 → List Event) :=
  (withPast [] steps).filterMap fun p => p.2.builds? p.1

def Step.events (before : List Step) : Step → List Event
  | .build => [.buildingByteTable (Change.count (lineage before))]
  | .call n q => ((snapshots before)[n]?.map (· q)).getD []
  | _ => []

def events (steps : List Step) : List Event := (withPast [] steps).flatMap fun p => p.2.events p.1

theorem nodup_runScript (steps : List Step) :
    ((runScript (.start .empty) steps).value.1.builder.pairs.map Prod.fst).Nodup := by
  have h : Logged.Alike (Workbench.Alike Mappings.Alike) (runScript (.start .empty) steps)
      (runScript (.start .empty) steps) :=
    .runSteps (fun _ _ s h => s.alike h) (.start .empty) steps
  exact h.state.builder.nodup

theorem snapshots_eq (steps : List Step) :
    (runScript (.start .empty) steps).value.1.built.map (fun e q => (e.reply q).events) =
      snapshots steps := by
  refine Workbench.map_built_runSteps (fun before s => ?_) steps
  have hreflects : Reflects _ _ := reflects_runScript before
  cases s with
  | build =>
    refine List.map_append.trans (congrArg _ (congrArg (fun reports => [reports]) ?_))
    rw [← hreflects.isListed_eq]
    exact funext (ByteEscaper.Origin.table _).events_reply
  | buildRange low high fallback =>
    refine List.map_append.trans (congrArg _ (congrArg (fun reports => [reports]) ?_))
    rw [← isListedOrUnsafe_congr hreflects.isListed_eq]
    exact funext (ByteEscaper.Origin.range _ low high fallback).events_reply
  | restore =>
    exact (congrArg (List.map _) (Workbench.built_restore _)).trans (List.append_nil _).symm
  | call n q =>
    rw [Mappings.Step.run]
    split <;> exact (List.append_nil _).symm
  | add | addAll | reset | save | table => exact (List.append_nil _).symm

theorem Step.events_run (before : List Step) (s : Step) :
    (run (runScript (.start .empty) before).value.1 s).events = s.events before := by
  have hreflects : Reflects _ _ := reflects_runScript before
  have hunits := nodup_runScript before
  have hbuilt := snapshots_eq before
  generalize (runScript (.start .empty) before).value.1 = w at hreflects hunits hbuilt
  cases s with
  | build =>
    rw [events, ← hreflects.count_eq hunits]
    rfl
  | call n q =>
    rw [run, events, ← hbuilt, List.getElem?_map]
    cases w.built[n]? with
    | none => rfl
    | some e => exact List.append_nil _
  | add | addAll | reset | save | restore | buildRange | table => rfl

theorem events_runScript (steps : List Step) :
    (runScript (.start .empty) steps).events = events steps :=
  Logged.events_runSteps_withPast Step.events_run steps

end Mappings

/-! ## Calls and builds -/

theorem CharEscaper.events_ne_nil (e : CharEscaper) (q : Request Char)
    (h : (e.reply q).value.isBuilt = true) : (e.reply q).events ≠ [] := by
  cases e with
  | identity => cases q <;> exact absurd h Bool.false_ne_true
  | percent e => exact (e.answers q).events_ne_nil h
  | function e => exact (e.answers _ q).events_ne_nil h
  | range e => exact (e.answers q).events_ne_nil h

theorem ByteEscaper.events_ne_nil (e : ByteEscaper) (q : Request UInt8)
    (h : (e.reply q).value.isBuilt = true) : (e.reply q).events ≠ [] := by
  cases e with
  | function e => exact (e.answers _ q).events_ne_nil h
  | range e => exact (e.answers q).events_ne_nil h
  | table e => exact (e.answers q).events_ne_nil h

/-- The escapers of one kind of unit report call by call. `reply` answers for an escaper, `make`
makes one, and `events` is what an escaper that was made so has to report on a call. -/
structure ReportsCalls [EscapeUnit U] {E O : Type} (reply : E → Request U → Logged (Reply U))
    (make : O → E) (events : O → Request U → List Event) : Prop where
  /-- The events of calls are those of each call, one call after the other. -/
  calls : ∀ (o : O) (qs : List (Request U)),
    (replies (reply (make o)) qs).events = qs.flatMap (events o)
  /-- A call that begins where it is told to reports it unless it fails. -/
  slowPath : ∀ (f : U → Option (List U)) (us : List U) (start : Nat),
    ((FunctionEscaper.mk f).escapeSlow us start).events = [] ↔
      ∃ fault, ((FunctionEscaper.mk f).escapeSlow us start).value = .error fault
  /-- What is built is reported. -/
  built : ∀ (e : E) (q : Request U), (reply e q).value.isBuilt = true → (reply e q).events ≠ []
  wording : ∀ start length, (Event.slowPath start length).Shows .trace "escape slow path"
    [("start", .number start), ("len", .number length)]

/-- The escapers that report nothing but what is built. -/
structure ReportOnlyBuilding : Prop where
  function : ∀ e, ReportsBuilding (CharEscaper.function e).reply
  percent : ∀ e, ReportsBuilding (CharEscaper.percent e).reply
  html : ReportsBuilding (CharEscaper.range Html.escaper).reply
  byteFunction : ∀ e, ReportsBuilding (ByteEscaper.function e).reply
  byteTable : ∀ e, ReportsBuilding (ByteEscaper.table e).reply

/-- Runs with a builder report each build, with the number of mappings and the bounds of the safe
range, of which each is shown as `shown` shows it. -/
structure ReportsBuilds (U : Type) [EscapeUnit U] [DecidableEq U] (message : String)
    (shown : U → FieldValue) : Prop where
  run : ∀ steps : List (Builder.Step U),
    (Builder.runScript (.start .new) steps).events = Builder.events steps
  wording : ∀ mappings (low high : U), (EscapeUnit.building mappings low high).Shows .debug message
    [("mappings", .number mappings), ("safe_min", shown low), ("safe_max", shown high)]

/-- Runs with a builder of tables report each build of an escaper without a safe range. -/
structure ReportsTableBuilds : Prop where
  run : ∀ steps : List Mappings.Step,
    (Mappings.runScript (.start .empty) steps).events = Mappings.events steps
  wording : ∀ mappings, (Event.buildingByteTable mappings).Shows .debug "building byte table escaper"
    [("mappings", .number mappings)]

theorem reportsCalls_characters :
    ReportsCalls CharEscaper.reply CharEscaper.Origin.escaper CharEscaper.Origin.events where
  calls o qs := by rw [events_replies, funext o.events_reply]
  slowPath _ := events_escapeSlow_eq_nil_iff
  built := CharEscaper.events_ne_nil
  wording := Event.slowPath_shows

theorem reportsCalls_octets :
    ReportsCalls ByteEscaper.reply ByteEscaper.Origin.escaper ByteEscaper.Origin.events where
  calls o qs := by rw [events_replies, funext o.events_reply]
  slowPath _ := events_escapeSlow_eq_nil_iff
  built := ByteEscaper.events_ne_nil
  wording := Event.slowPath_shows

theorem reportOnlyBuilding : ReportOnlyBuilding where
  function := reportsBuilding_function _
  percent := reportsBuilding_percent
  html := Html.reportsBuilding_escaper
  byteFunction := reportsBuilding_function _
  byteTable := reportsBuilding_table

/-- **Events come from calls and builds**, in the order of these. A call that scans its input reports
the slow path if the scan stops, and one that begins where it is told to reports it unless it fails.
So what is built is reported; for escapers by function, for percent escapers, for those by table alone
and for the one for HTML, nothing else is. In a run with a builder, each build reports how many units
have a replacement, whatever was listed more than once, and which range was set. -/
theorem events_of_calls_and_builds :
    ReportsCalls CharEscaper.reply CharEscaper.Origin.escaper CharEscaper.Origin.events ∧
      ReportsCalls ByteEscaper.reply ByteEscaper.Origin.escaper ByteEscaper.Origin.events ∧
      ReportOnlyBuilding ∧
      ReportsBuilds Char "building char escaper" (fun c => .text (quoted c)) ∧
      ReportsBuilds UInt8 "building byte escaper" (fun b => .number b.toNat) ∧
      ReportsTableBuilds :=
  ⟨reportsCalls_characters, reportsCalls_octets, reportOnlyBuilding,
    ⟨Builder.events_runScript, Event.buildingChars_shows⟩,
    ⟨Builder.events_runScript, Event.buildingBytes_shows⟩,
    ⟨Mappings.events_runScript, Event.buildingByteTable_shows⟩⟩

/-- A call on a text with a character of more than one octet, and one that begins where it is told
to. -/
theorem events_of_calls_and_builds_ampersand :
    let e := CharEscaper.function ⟨fun c => if c = '&' then some ['+'] else none⟩
    let b := ByteEscaper.function ⟨fun b => if b = 0x26 then some [] else none⟩
    (e.reply (.escape ['é', '&'])).value.isBuilt = true ∧
      (e.reply (.escape ['é', '&'])).events ≠ [] ∧
      (b.reply (.escapeSlow [0x41, 0x26] 1)).value.isBuilt = true ∧
      (b.reply (.escapeSlow [0x41, 0x26] 1)).events ≠ [] := by
  intro e b
  obtain ⟨hcharacters, hoctets, -⟩ := events_of_calls_and_builds
  have he : (e.reply (.escape ['é', '&'])).value.isBuilt = true := by decide
  have hb : (b.reply (.escapeSlow [0x41, 0x26] 1)).value.isBuilt = true := by decide
  exact ⟨he, hcharacters.built _ _ he, hb, hoctets.built _ _ hb⟩

end TextOps
