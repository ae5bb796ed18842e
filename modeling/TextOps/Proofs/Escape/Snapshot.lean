import TextOps.Proofs.Escape.Exchange
import TextOps.Proofs.Escape.Lineage
import TextOps.Proofs.Escape.Resolution

/-!
# `TextOps/Proofs/Escape/Snapshot.lean` — an escaper keeps what its builder was when it was built

A run is a long list of steps on one builder, which is changed, reset, put aside and taken back, while
the escapers that it has built are called. What such an escaper answers is settled when it is built,
by the changes in the lineage of the builder at that point (`Change.answer`): the replacement added
last, no replacement for what the range set last takes in, and otherwise what was set last for other
units or what the fallback says. No step that comes afterwards makes any difference (`Snapshot`).

The proof has two halves that do not meet before the end. A builder reflects its lineage, which is one
case for each kind of step (`Builder.Step.follows`). And the escapers on a workbench only become more
(`Calls.keeps`), so that a number, once reported, stands for the same escaper for good.
-/

set_option autoImplicit false

namespace TextOps

variable {U : Type}

/-! ## Changes -/

inductive Change (U : Type) where
  | add (u : U) (r : List U)
  | addAll (us : List U) (r : List U)
  | safeRange (low high : U)
  | replaceOthers (r : Option (List U))

namespace Change

/-- The units that a change adds, each with its replacement. -/
def pairs : Change U → List (U × List U)
  | add u r => [(u, r)]
  | addAll us r => us.map (·, r)
  | safeRange .. | replaceOthers .. => []

def range? : Change U → Option (U × U)
  | safeRange low high => some (low, high)
  | add .. | addAll .. | replaceOthers .. => none

def others? : Change U → Option (Option (List U))
  | replaceOthers r => some r
  | add .. | addAll .. | safeRange .. => none

def additions (changes : List (Change U)) : List (U × List U) := changes.flatMap pairs

/-- The safe range that was set last; every unit is safe if none was. -/
def range [EscapeUnit U] (changes : List (Change U)) : U × U :=
  (changes.filterMap range?).getLast?.getD (EscapeUnit.least, EscapeUnit.greatest)

/-- What was set last for units that are neither listed nor safe. -/
def others (changes : List (Change U)) : Option (List U) :=
  (changes.filterMap others?).getLast?.getD none

/-- What an escaper makes of a unit that was built after these changes. -/
def answer [EscapeUnit U] [DecidableEq U] (changes : List (Change U))
    (fallback : U → Option (List U)) : U → Option (List U) :=
  resolve (additions changes) (range changes).1 (range changes).2 fallback

variable (changes : List (Change U)) (k : Change U)

theorem additions_concat : additions (changes ++ [k]) = additions changes ++ k.pairs := by
  rw [additions, List.flatMap_append, List.flatMap_singleton, additions]

theorem range_concat [EscapeUnit U] :
    range (changes ++ [k]) = k.range?.getD (range changes) := by
  rw [range, List.filterMap_append, List.getLast?_append, range]
  cases h : k.range? <;> simp [h]

theorem others_concat : others (changes ++ [k]) = k.others?.getD (others changes) := by
  rw [others, List.filterMap_append, List.getLast?_append, others]
  cases h : k.others? <;> simp [h]

end Change

/-! ## Builders reflect their changes -/

/-- Mappings list what was added last. -/
def Mappings.Reflects [DecidableEq U] (m : Mappings U) (changes : List (Change U)) : Prop :=
  ∀ u, latest? m.pairs u = latest? (Change.additions changes) u

namespace Mappings.Reflects

variable [DecidableEq U] {m : Mappings U} {changes : List (Change U)}

theorem empty : Reflects (.empty : Mappings U) [] := fun _ => rfl

theorem add (h : m.Reflects changes) (u : U) (r : List U) :
    (m.add u r).Reflects (changes ++ [.add u r]) := by
  intro v
  rw [latest?_add, Change.additions_concat, Change.pairs, latest?_append_singleton, h v]

theorem addAll (h : m.Reflects changes) (us : List U) (r : List U) :
    (m.addAll us r).Reflects (changes ++ [.addAll us r]) := by
  intro v
  have hfold : m.addAll us r = (us.map (·, r)).foldl (fun m p => m.add p.1 p.2) m := by
    rw [List.foldl_map]
    rfl
  rw [hfold, latest?_foldl_add, Change.additions_concat, Change.pairs, latest?_append, h v]

/-- Changes that add nothing are not reflected in mappings. -/
theorem other (h : m.Reflects changes) {k : Change U} (hk : k.pairs = []) :
    m.Reflects (changes ++ [k]) := by
  intro v
  rw [Change.additions_concat, hk, List.append_nil, h v]

end Mappings.Reflects

/-- A builder lists what was added last, and has the range and the replacement for other units that
were set last. -/
structure Builder.Reflects [EscapeUnit U] [DecidableEq U] (b : Builder U)
    (changes : List (Change U)) : Prop where
  mappings : b.mappings.Reflects changes
  range : (b.low, b.high) = Change.range changes
  others : b.otherwise = Change.others changes

namespace Builder.Reflects

variable [EscapeUnit U] [DecidableEq U] {b : Builder U} {changes : List (Change U)}

theorem new : Reflects (.new : Builder U) [] := ⟨.empty, rfl, rfl⟩

/-- A change is reflected if what it sets is new and the rest is as before. -/
theorem concat (h : b.Reflects changes) {b' : Builder U} {k : Change U}
    (hmappings : b'.mappings.Reflects (changes ++ [k]))
    (hrange : (b'.low, b'.high) = k.range?.getD (b.low, b.high))
    (hothers : b'.otherwise = k.others?.getD b.otherwise) : b'.Reflects (changes ++ [k]) where
  mappings := hmappings
  range := by rw [Change.range_concat, ← h.range, hrange]
  others := by rw [Change.others_concat, ← h.others, hothers]

theorem add (h : b.Reflects changes) (u : U) (r : List U) :
    (b.add u r).Reflects (changes ++ [.add u r]) := h.concat (h.mappings.add u r) rfl rfl

theorem addAll (h : b.Reflects changes) (us : List U) (r : List U) :
    (b.addAll us r).Reflects (changes ++ [.addAll us r]) :=
  h.concat (h.mappings.addAll us r) rfl rfl

theorem safeRange (h : b.Reflects changes) (low high : U) :
    (b.safeRange low high).Reflects (changes ++ [.safeRange low high]) :=
  h.concat (h.mappings.other rfl) rfl rfl

theorem replaceOthers (h : b.Reflects changes) (r : Option (List U)) :
    (b.replaceOthers r).Reflects (changes ++ [.replaceOthers r]) :=
  h.concat (h.mappings.other rfl) rfl rfl

theorem replace_buildWith_eq [LawfulCode U] (h : b.Reflects changes)
    (fallback : U → Option (List U)) :
    (b.buildWith fallback).value.replace = Change.answer changes fallback := by
  rw [replace_buildWith, resolve_congr h.mappings, Change.answer, ← h.range]

end Builder.Reflects

/-! ## Steps -/

section Steps

variable [EscapeUnit U] [DecidableEq U]

def Builder.Step.effect : Builder.Step U → Workbench.Effect (Change U)
  | .add u r => .change (.add u r)
  | .addAll us r => .change (.addAll us r)
  | .safeRange low high => .change (.safeRange low high)
  | .replaceOthers r => .change (.replaceOthers r)
  | .reset => .reset
  | .save => .save
  | .restore => .restore
  | .build | .buildWith _ | .call .. => .look

def Builder.lineage (steps : List (Builder.Step U)) : List (Change U) :=
  Workbench.lineage (steps.reverse.map Builder.Step.effect)

/-- **Each step keeps the builder in line with its lineage.** -/
theorem Builder.Step.follows {w : Workbench (Builder U) (RangeEscaper U)}
    {past : List (Workbench.Effect (Change U))} (h : w.Follows Builder.Reflects past)
    (s : Builder.Step U) : (run w s).value.1.Follows Builder.Reflects (s.effect :: past) := by
  cases s with
  | add u r => exact h.change (h.builder.add u r)
  | addAll us r => exact h.change (h.builder.addAll us r)
  | safeRange low high => exact h.change (h.builder.safeRange low high)
  | replaceOthers r => exact h.change (h.builder.replaceOthers r)
  | reset => exact h.reset .new
  | save => exact h.save
  | restore => exact h.restore
  | build => exact h.keep _
  | buildWith fallback => exact h.keep _
  | call n q =>
    rw [run]
    split <;> exact h.look

theorem Builder.reflects_runScript (steps : List (Builder.Step U)) :
    (runScript (.start .new) steps).value.1.builder.Reflects (lineage steps) := by
  have h : (runScript (.start .new) steps).value.1.Follows Builder.Reflects
      (steps.reverse.map Builder.Step.effect) :=
    Workbench.Follows.runSteps (fun _ _ s h => s.follows h) .new steps
  exact h.builder

end Steps

def Mappings.Step.effect : Mappings.Step → Workbench.Effect (Change UInt8)
  | .add b r => .change (.add b r)
  | .addAll bs r => .change (.addAll bs r)
  | .reset => .reset
  | .save => .save
  | .restore => .restore
  | .build | .buildRange .. | .table _ | .call .. => .look

def Mappings.lineage (steps : List Mappings.Step) : List (Change UInt8) :=
  Workbench.lineage (steps.reverse.map Mappings.Step.effect)

theorem Mappings.Step.follows {w : Workbench (Mappings UInt8) ByteEscaper}
    {past : List (Workbench.Effect (Change UInt8))} (h : w.Follows Mappings.Reflects past)
    (s : Mappings.Step) : (run w s).value.1.Follows Mappings.Reflects (s.effect :: past) := by
  cases s with
  | add b r => exact h.change (h.builder.add b r)
  | addAll bs r => exact h.change (h.builder.addAll bs r)
  | reset => exact h.reset .empty
  | save => exact h.save
  | restore => exact h.restore
  | build => exact h.keep _
  | buildRange low high fallback => exact h.keep _
  | table q => exact h.look
  | call n q =>
    rw [run]
    split <;> exact h.look

theorem Mappings.reflects_runScript (steps : List Mappings.Step) :
    (runScript (.start .empty) steps).value.1.builder.Reflects (lineage steps) := by
  have h : (runScript (.start .empty) steps).value.1.Follows Mappings.Reflects
      (steps.reverse.map Mappings.Step.effect) :=
    Workbench.Follows.runSteps (fun _ _ s h => s.follows h) .empty steps
  exact h.builder

/-! ## Escapers that have been built -/

/-- To each unit the reply is what a function says, and to a text or a list of units it is that
input with each unit replaced by the function. -/
structure RepliesBy [EscapeUnit U] (f : U → Option (List U)) (reply : Request U → Reply U) :
    Prop where
  unit : ∀ u, reply (.escapeUnit u) = .replacement (f u)
  units : ∀ us, reply (.escapeUnits us) = .units ((FunctionEscaper.mk f).escapeUnits us).value
  text : ∀ s, reply (.escape s) = .text ((FunctionEscaper.mk f).escape s).value

section Replies

variable [EscapeUnit U] [LawfulUnit U]

theorem RangeEscaper.repliesBy (e : RangeEscaper U) :
    RepliesBy e.replace fun q => (e.reply q).value where
  unit _ := rfl
  units us := by
    rw [reply, Logged.value_map, value_escapeUnits, FunctionEscaper.value_escapeUnits]
  text s := by rw [reply, Logged.value_map, value_escape_eq]

theorem TableEscaper.repliesBy (e : TableEscaper U) :
    RepliesBy e.replace fun q => (e.reply q).value where
  unit _ := rfl
  units us := by
    rw [reply, Logged.value_map, value_escapeUnits, FunctionEscaper.value_escapeUnits]
  text s := by rw [reply, Logged.value_map, value_escape_eq]

end Replies

namespace Workbench

variable {β ε ι : Type} {step : Workbench β ε → ι → Logged (Workbench β ε × StepReport U)}
  {call : Nat → Request U → ι} {reply : ε → Request U → Logged (Reply U)}

/-- Steps never take away what has been built, and a call gives the reply of what it calls. -/
structure Calls (step : Workbench β ε → ι → Logged (Workbench β ε × StepReport U))
    (call : Nat → Request U → ι) (reply : ε → Request U → Logged (Reply U)) : Prop where
  keeps : ∀ w i, w.built <+: (step w i).value.1.built
  replies : ∀ w n q e, w.built[n]? = some e →
    (step w (call n q)).value.2 = .replied (reply e q).value

/-- What the step `build` builds after the steps in `before` has a number, which is reported, and
whenever it is called by this number, after any steps `between`, its replies are the same, and are
`Right`. -/
def Snapshot (step : Workbench β ε → ι → Logged (Workbench β ε × StepReport U))
    (call : Nat → Request U → ι) (new : β) (before : List ι) (build : ι)
    (Right : (Request U → Reply U) → Prop) : Prop :=
  ∃ n reply, Right reply ∧ ∀ between q,
    let reports :=
      (Logged.runSteps step (start new) (before ++ build :: (between ++ [call n q]))).value.2
    reports[before.length]? = some (.built n) ∧ reports.getLast? = some (.replied (reply q))

theorem Calls.built_runSteps (h : Calls step call reply) (w : Workbench β ε) (is : List ι) :
    w.built <+: (Logged.runSteps step w is).value.1.built := by
  induction is generalizing w with
  | nil => exact List.prefix_refl _
  | cons i is ih =>
    rw [Logged.value_runSteps_cons]
    exact (h.keeps w i).trans (ih _)

theorem Calls.value_call (h : Calls step call reply) {w : Workbench β ε} {n : Nat} {e : ε}
    (hw : w.built[n]? = some e) (q : Request U) :
    (Logged.runSteps step w [call n q]).value.2 = [.replied (reply e q).value] := by
  rw [Logged.value_runSteps_cons, h.replies w n q e hw]
  rfl

/-- What has just been built has its number for good. -/
theorem Calls.getElem?_built (h : Calls step call reply) (w : Workbench β ε) (e : ε)
    (between : List ι) :
    (Logged.runSteps step (w.keep e) between).value.1.built[w.built.length]? = some e := by
  obtain ⟨more, hmore⟩ := h.built_runSteps (w.keep e) between
  rw [← hmore, keep, List.append_assoc, List.getElem?_append_right (Nat.le_refl _), Nat.sub_self]
  rfl

/-- **What is built stays.** The replies of an escaper when it is built are its replies for good. -/
theorem Calls.snapshot (h : Calls step call reply) {new : β} {before : List ι} {build : ι}
    {Right : (Request U → Reply U) → Prop} {w : Workbench β ε} {e : ε}
    (hw : (Logged.runSteps step (start new) before).value.1 = w)
    (hbuild : (step w build).value = (w.keep e, .built w.built.length))
    (he : Right fun q => (reply e q).value) : Snapshot step call new before build Right := by
  refine ⟨w.built.length, fun q => (reply e q).value, he, fun between q => ?_⟩
  -- The reports up to the build, the number, the reports in between, and the reply.
  have hreports : (Logged.runSteps step (start new)
        (before ++ build :: (between ++ [call w.built.length q]))).value.2 =
      (Logged.runSteps step (start new) before).value.2 ++
        .built w.built.length :: ((Logged.runSteps step (w.keep e) between).value.2 ++
          [.replied (reply e q).value]) := by
    rw [Logged.value_runSteps_append, hw, Logged.value_runSteps_cons, hbuild,
      Logged.value_runSteps_append, h.value_call (h.getElem?_built w e between)]
  rw [hreports]
  constructor
  · rw [List.getElem?_append_right (Nat.le_of_eq (Logged.length_reports _ _)),
      Logged.length_reports, Nat.sub_self]
    rfl
  · rw [← List.cons_append, ← List.append_assoc, List.getLast?_concat]

end Workbench

/-! ## Runs -/

section Runs

variable [EscapeUnit U] [DecidableEq U]

theorem Builder.calls :
    Workbench.Calls (Builder.Step.run (U := U)) .call RangeEscaper.reply where
  keeps w s := by
    cases s with
    | build => exact List.prefix_append _ _
    | buildWith fallback => exact List.prefix_append _ _
    | restore => exact w.built_restore ▸ List.prefix_refl w.built
    | call n q =>
      rw [Builder.Step.run]
      split <;> exact List.prefix_refl _
    | add | addAll | safeRange | replaceOthers | reset | save => exact List.prefix_refl _
  replies w n q e he := by
    rw [Builder.Step.run, he]
    rfl

variable [LawfulUnit U] [LawfulCode U]

theorem Builder.snapshot_buildWith (before : List (Builder.Step U))
    (fallback : U → Option (List U)) :
    Workbench.Snapshot Builder.Step.run .call .new before (.buildWith fallback)
      (RepliesBy (Change.answer (lineage before) fallback)) := by
  have hreflects := reflects_runScript before
  refine calls.snapshot rfl rfl ?_
  rw [← hreflects.replace_buildWith_eq]
  exact RangeEscaper.repliesBy _

theorem Builder.snapshot_build (before : List (Builder.Step U)) :
    Workbench.Snapshot Builder.Step.run .call .new before .build
      (RepliesBy (Change.answer (lineage before) fun _ => Change.others (lineage before))) := by
  have hreflects := reflects_runScript before
  refine calls.snapshot rfl rfl ?_
  rw [← hreflects.replace_buildWith_eq, ← hreflects.others]
  exact RangeEscaper.repliesBy _

end Runs

theorem Mappings.calls : Workbench.Calls Mappings.Step.run .call ByteEscaper.reply where
  keeps w s := by
    cases s with
    | build => exact List.prefix_append _ _
    | buildRange low high fallback => exact List.prefix_append _ _
    | restore => exact w.built_restore ▸ List.prefix_refl w.built
    | call n q =>
      rw [Mappings.Step.run]
      split <;> exact List.prefix_refl _
    | add | addAll | reset | save | table => exact List.prefix_refl _
  replies w n q e he := by
    rw [Mappings.Step.run, he]
    rfl

theorem Mappings.get?_toTable (before : List Mappings.Step) (b : UInt8) :
    (runScript (.start .empty) before).value.1.builder.toTable.get? b =
      latest? (Change.additions (lineage before)) b := by
  rw [toTable, Table.get?_ofPairs, reflects_runScript before b]

/-- The table of the mappings is looked into at once. -/
theorem Mappings.getLast?_table (before : List Mappings.Step) (b : UInt8) :
    (runScript (.start .empty) (before ++ [.table (.get b)])).value.2.getLast? =
      some (.replied (.replacement (latest? (Change.additions (lineage before)) b))) := by
  rw [runScript, Logged.value_runSteps_append]
  exact List.getLast?_concat.trans
    (congrArg (fun r => some (StepReport.replied (Reply.replacement r))) (get?_toTable before b))

theorem Mappings.snapshot_build (before : List Mappings.Step) :
    Workbench.Snapshot Mappings.Step.run .call .empty before .build
      (RepliesBy (latest? (Change.additions (lineage before)))) := by
  have hreflects := reflects_runScript before
  refine calls.snapshot (e := .table ⟨_⟩) rfl rfl ?_
  rw [← funext hreflects, ← TableEscaper.replace_ofPairs]
  exact TableEscaper.repliesBy _

/-- The table of the mappings is kept in an escaper, and looked into whenever that is called. -/
theorem Mappings.snapshot_buildRange (before : List Mappings.Step) (low high : UInt8)
    (fallback : UInt8 → Option Bytes) :
    Workbench.Snapshot Mappings.Step.run .call .empty before (.buildRange low high fallback)
      fun reply =>
        RepliesBy (resolve (Change.additions (lineage before)) low high fallback) reply ∧
          ∀ b, reply (.table (.get b)) =
            .replacement (latest? (Change.additions (lineage before)) b) := by
  have hreflects := reflects_runScript before
  refine calls.snapshot (e := .range (.make _ low high fallback)) rfl rfl ⟨?_, fun b => ?_⟩
  · rw [← resolve_congr hreflects, ← RangeEscaper.replace_make]
    exact RangeEscaper.repliesBy _
  · rw [← get?_toTable before b]
    exact congrArg (fun t : Table UInt8 => Reply.replacement (t.get? b)) RangeEscaper.table_make

/-- **An escaper keeps what its builder was when it was built.** Whenever and however often it is
called, it answers by the changes in the lineage of the builder before that build, for characters and
for octets, and so do the tables and the escapers made of mappings. Only what was added last for a
unit counts, and so additions for distinct units may be exchanged. -/
theorem snapshots_follow_lineage :
    (∀ before : List (Builder.Step Char),
      Workbench.Snapshot Builder.Step.run .call .new before .build
          (RepliesBy (Change.answer (Builder.lineage before) fun _ =>
            Change.others (Builder.lineage before))) ∧
        ∀ fallback, Workbench.Snapshot Builder.Step.run .call .new before (.buildWith fallback)
          (RepliesBy (Change.answer (Builder.lineage before) fallback))) ∧
    (∀ before : List (Builder.Step UInt8),
      Workbench.Snapshot Builder.Step.run .call .new before .build
          (RepliesBy (Change.answer (Builder.lineage before) fun _ =>
            Change.others (Builder.lineage before))) ∧
        ∀ fallback, Workbench.Snapshot Builder.Step.run .call .new before (.buildWith fallback)
          (RepliesBy (Change.answer (Builder.lineage before) fallback))) ∧
    (∀ before : List Mappings.Step,
      Workbench.Snapshot Mappings.Step.run .call .empty before .build
          (RepliesBy (latest? (Change.additions (Mappings.lineage before)))) ∧
        (∀ low high fallback,
          Workbench.Snapshot Mappings.Step.run .call .empty before (.buildRange low high fallback)
            fun reply =>
              RepliesBy (resolve (Change.additions (Mappings.lineage before)) low high fallback)
                reply ∧
              ∀ b, reply (.table (.get b)) =
                .replacement (latest? (Change.additions (Mappings.lineage before)) b)) ∧
        ∀ b, (Mappings.runScript (.start .empty) (before ++ [.table (.get b)])).value.2.getLast? =
          some (.replied (.replacement (latest? (Change.additions (Mappings.lineage before)) b)))) ∧
    (∀ (s t : Builder.Step Char) us vs, s.Adds us → t.Adds vs → us.Disjoint vs →
      Logged.Exchangeable Builder.Step.run (.start .new) s t) ∧
    (∀ (s t : Builder.Step UInt8) us vs, s.Adds us → t.Adds vs → us.Disjoint vs →
      Logged.Exchangeable Builder.Step.run (.start .new) s t) ∧
    ∀ (s t : Mappings.Step) bs cs, s.Adds bs → t.Adds cs → bs.Disjoint cs →
      Logged.Exchangeable Mappings.Step.run (.start .empty) s t := by
  refine ⟨fun before => ?characters, fun before => ?octets, fun before => ?mappings, ?_, ?_, ?_⟩
  case characters => exact ⟨Builder.snapshot_build before, Builder.snapshot_buildWith before⟩
  case octets => exact ⟨Builder.snapshot_build before, Builder.snapshot_buildWith before⟩
  case mappings =>
    exact ⟨Mappings.snapshot_build before, Mappings.snapshot_buildRange before,
      Mappings.getLast?_table before⟩
  · exact fun _ _ _ _ hs ht huv => hs.exchangeable ht huv
  · exact fun _ _ _ _ hs ht huv => hs.exchangeable ht huv
  · exact fun _ _ _ _ hs ht hbc => hs.exchangeable ht hbc

theorem snapshots_follow_lineage_taken_back :
    Workbench.Snapshot Builder.Step.run .call .new
        [.add '<' ['('], .safeRange 'a' 'z', .save, .add '<' ['['], .reset, .restore] .build
        (RepliesBy (Change.answer [.add '<' ['('], .safeRange 'a' 'z'] fun _ => none)) ∧
      Logged.Exchangeable Builder.Step.run (.start .new)
        (.add '<' ['(']) (.addAll ['>', ']'] [')']) ∧
      Logged.Exchangeable (Builder.Step.run (U := UInt8)) (.start .new)
        (.addAll [60, 91] [40]) (.addAll [62, 93] [41]) ∧
      Logged.Exchangeable Mappings.Step.run (.start .empty) (.add 60 [40]) (.add 62 [41]) := by
  obtain ⟨hcharacters, -, -, hexchange, hexchangeOctets, hexchangeMappings⟩ :=
    snapshots_follow_lineage
  have hlineage : Builder.lineage [.add '<' ['('], .safeRange 'a' 'z', .save, .add '<' ['['],
      .reset, .restore] = [.add '<' ['('], .safeRange 'a' 'z'] := by
    have hsaved : Workbench.beforeSave? 0 [.reset, .change (.add '<' ['[']), .save,
        .change (.safeRange 'a' 'z'), .change (.add '<' ['('])] =
      some [.change (.safeRange 'a' 'z'), .change (Change.add '<' ['('])] := rfl
    exact (Workbench.lineage_restore_of_some hsaved).trans (by simp [Workbench.lineage])
  refine ⟨?snapshot, ?characters, ?octets, ?mappings⟩
  case snapshot =>
    have hsnapshot := (hcharacters [.add '<' ['('], .safeRange 'a' 'z', .save, .add '<' ['['],
      .reset, .restore]).1
    rwa [hlineage] at hsnapshot
  case characters => exact hexchange _ _ _ _ (.add _ _) (.addAll _ _) (by simp)
  case octets => exact hexchangeOctets _ _ _ _ (.addAll _ _) (.addAll _ _) (by simp)
  case mappings => exact hexchangeMappings _ _ _ _ (.add _ _) (.add _ _) (by simp)

end TextOps
