import Mathlib.Data.List.Nodup
import TextOps.Escape.Workbench
import TextOps.Proofs.Escape.Run
import TextOps.Proofs.Escape.Table.Contents

/-!
# `TextOps/Proofs/Escape/Exchange.lean` — the order of additions for distinct units does not show

A builder keeps its pairs of units and replacements in the order in which they were added, and that
order is not part of what it means. Two builders are `Alike` if their pairs are the same up to order,
with one pair for each unit, and the rest of them is equal. Every step keeps builders alike, and
whatever is built from one is *equal* to what is built from the other, down to the slots of the table
and the reported number of mappings. So two runs that differ in the order of two neighbouring
additions for distinct units cannot be told apart by any later report or event.
-/

set_option autoImplicit false

namespace TextOps

variable {U : Type}

/-! ## Mappings and builders -/

theorem Mappings.pairs_add_add [DecidableEq U] (m : Mappings U) {u v : U} (huv : u ≠ v)
    (r q : List U) :
    ((m.add u r).add v q).pairs =
      (m.pairs.filter (·.1 ≠ u)).filter (·.1 ≠ v) ++ [(u, r), (v, q)] := by
  rw [Mappings.add, Mappings.add, List.filter_append, List.filter_cons_of_pos (by simpa using huv),
    List.filter_nil, List.append_assoc]
  rfl

/-- The same pairs up to order, one for each unit. -/
structure Mappings.Alike (m m' : Mappings U) : Prop where
  perm : m.pairs.Perm m'.pairs
  nodup : (m.pairs.map Prod.fst).Nodup

namespace Mappings.Alike

variable {m m' m'' : Mappings U}

theorem right (h : Alike m m') : Alike m' m' :=
  ⟨.refl _, (h.perm.map Prod.fst).nodup_iff.mp h.nodup⟩

theorem trans (h : Alike m m') (h' : Alike m' m'') : Alike m m'' := ⟨h.perm.trans h'.perm, h.nodup⟩

theorem empty : Alike (.empty : Mappings U) .empty := ⟨.nil, List.nodup_nil⟩

theorem count_eq (h : Alike m m') : m.count = m'.count := h.perm.length_eq

theorem toTable_eq [EscapeUnit U] [LawfulCode U] (h : Alike m m') : m.toTable = m'.toTable :=
  Table.ofPairs_perm h.perm h.nodup

variable [DecidableEq U]

theorem add (h : Alike m m') (u : U) (r : List U) : Alike (m.add u r) (m'.add u r) where
  perm := (h.perm.filter _).append_right _
  nodup := by
    rw [Mappings.add, List.map_append, List.nodup_append]
    refine ⟨h.nodup.sublist (List.filter_sublist.map _), List.nodup_singleton _, ?_⟩
    intro v hv w hw
    obtain ⟨p, hp, rfl⟩ := List.mem_map.mp hv
    obtain rfl := List.mem_singleton.mp hw
    exact of_decide_eq_true (List.mem_filter.mp hp).2

theorem addAll (h : Alike m m') (us : List U) (r : List U) :
    Alike (m.addAll us r) (m'.addAll us r) := by
  induction us generalizing m m' with
  | nil => exact h
  | cons u us ih => exact ih (h.add u r)

/-- Of two additions for distinct units, neither takes away the pair of the other. -/
theorem add_add (h : Alike m m') {u v : U} (huv : u ≠ v) (r q : List U) :
    Alike ((m.add u r).add v q) ((m'.add v q).add u r) where
  nodup := ((h.add u r).add v q).nodup
  perm := by
    rw [pairs_add_add m huv, pairs_add_add m' huv.symm, List.filter_comm]
    exact ((h.perm.filter _).filter _).append (List.Perm.swap _ _ _)

theorem add_addAll (h : Alike m m') {u : U} {vs : List U} (hu : u ∉ vs) (r q : List U) :
    Alike ((m.add u r).addAll vs q) ((m'.addAll vs q).add u r) := by
  induction vs generalizing m m' with
  | nil => exact h.add u r
  | cons v vs ih =>
    have hfirst : Alike (((m.add u r).add v q).addAll vs q) (((m'.add v q).add u r).addAll vs q) :=
      (h.add_add (List.ne_of_not_mem_cons hu) r q).addAll vs q
    exact hfirst.trans (ih (h.right.add v q) (List.not_mem_of_not_mem_cons hu))

theorem addAll_addAll (h : Alike m m') {us vs : List U} (huv : us.Disjoint vs) (r q : List U) :
    Alike ((m.addAll us r).addAll vs q) ((m'.addAll vs q).addAll us r) := by
  induction us generalizing m m' with
  | nil => exact h.addAll vs q
  | cons u us ih =>
    obtain ⟨hu, hus⟩ := List.disjoint_cons_left.mp huv
    have hfirst : Alike (((m'.add u r).addAll vs q).addAll us r)
        (((m'.addAll vs q).add u r).addAll us r) := (h.right.add_addAll hu r q).addAll us r
    exact (ih (h.add u r) hus).trans hfirst

end Mappings.Alike

structure Builder.Alike (b b' : Builder U) : Prop where
  mappings : b.mappings.Alike b'.mappings
  low : b.low = b'.low
  high : b.high = b'.high
  otherwise : b.otherwise = b'.otherwise

namespace Builder.Alike

variable {b b' : Builder U}

theorem new [EscapeUnit U] : Alike (.new : Builder U) .new := ⟨.empty, rfl, rfl, rfl⟩

theorem buildWith_eq [EscapeUnit U] [LawfulCode U] (h : Alike b b')
    (fallback : U → Option (List U)) : b.buildWith fallback = b'.buildWith fallback := by
  rw [buildWith, buildWith, h.mappings.count_eq, h.mappings.toTable_eq, h.low, h.high]

theorem build_eq [EscapeUnit U] [LawfulCode U] (h : Alike b b') : b.build = b'.build := by
  rw [build, build, h.otherwise, h.buildWith_eq]

end Builder.Alike

/-! ## Workbenches -/

namespace Workbench

variable {β ε : Type}

/-- Related builders, related copies, and the same escapers built. -/
structure Alike (R : β → β → Prop) (w w' : Workbench β ε) : Prop where
  builder : R w.builder w'.builder
  saved : List.Forall₂ R w.saved w'.saved
  built : w.built = w'.built

namespace Alike

variable {R : β → β → Prop} {w w' : Workbench β ε}

theorem start {b : β} (h : R b b) : Alike R (start b : Workbench β ε) (Workbench.start b) :=
  ⟨h, .nil, rfl⟩

theorem set (h : Alike R w w') {b b' : β} (hb : R b b') : Alike R (w.set b) (w'.set b') :=
  ⟨hb, h.saved, h.built⟩

theorem save (h : Alike R w w') : Alike R w.save w'.save :=
  ⟨h.builder, .cons h.builder h.saved, h.built⟩

theorem restore (h : Alike R w w') : Alike R w.restore w'.restore := by
  have hsaved := h.saved
  unfold Workbench.restore
  cases hw : w.saved with
  | nil =>
    rw [hw] at hsaved
    rw [List.forall₂_nil_left_iff.mp hsaved]
    exact h
  | cons b rest =>
    rw [hw] at hsaved
    obtain ⟨b', rest', hb, hrest, hw'⟩ := List.forall₂_cons_left_iff.mp hsaved
    rw [hw']
    exact ⟨hb, hrest, h.built⟩

theorem keep (h : Alike R w w') (e : ε) : Alike R (w.keep e) (w'.keep e) :=
  ⟨h.builder, h.saved, congrArg (· ++ [e]) h.built⟩

end Alike

end Workbench

/-! ## Runs -/

inductive Builder.Step.Adds : Builder.Step U → List U → Prop where
  | add (u : U) (r : List U) : Adds (.add u r) [u]
  | addAll (us r : List U) : Adds (.addAll us r) us

inductive Mappings.Step.Adds : Mappings.Step → Bytes → Prop where
  | add (b : UInt8) (r : Bytes) : Adds (.add b r) [b]
  | addAll (bs r : Bytes) : Adds (.addAll bs r) bs

section Runs

variable [EscapeUnit U] [LawfulCode U] [DecidableEq U]

/-- **A step from workbenches that are alike** reports the same and leaves workbenches that are. -/
theorem Builder.Step.alike {w w' : Workbench (Builder U) (RangeEscaper U)}
    (h : w.Alike Builder.Alike w') (s : Builder.Step U) :
    Logged.Alike (Workbench.Alike Builder.Alike) (run w s) (run w' s) := by
  have hb := h.builder
  cases s with
  | add u r => exact ⟨h.set ⟨hb.mappings.add u r, hb.low, hb.high, hb.otherwise⟩, rfl, rfl⟩
  | addAll us r => exact ⟨h.set ⟨hb.mappings.addAll us r, hb.low, hb.high, hb.otherwise⟩, rfl, rfl⟩
  | safeRange low high => exact ⟨h.set ⟨hb.mappings, rfl, rfl, hb.otherwise⟩, rfl, rfl⟩
  | replaceOthers r => exact ⟨h.set ⟨hb.mappings, hb.low, hb.high, rfl⟩, rfl, rfl⟩
  | reset => exact ⟨h.set .new, rfl, rfl⟩
  | save => exact ⟨h.save, rfl, rfl⟩
  | restore => exact ⟨h.restore, rfl, rfl⟩
  | build =>
    rw [run, run, hb.build_eq, h.built]
    exact ⟨h.keep _, rfl, rfl⟩
  | buildWith fallback =>
    rw [run, run, hb.buildWith_eq, h.built]
    exact ⟨h.keep _, rfl, rfl⟩
  | call n q =>
    rw [run, run, h.built]
    cases w'.built[n]? with
    | none => exact ⟨h, rfl, rfl⟩
    | some e => exact ⟨h, rfl, rfl⟩

omit [LawfulCode U] in
theorem Builder.Step.Adds.run_eq {s : Builder.Step U} {us : List U} (h : s.Adds us) :
    ∃ r, ∀ w : Workbench (Builder U) (RangeEscaper U),
      run w s = pure (w.set (w.builder.addAll us r), .done) := by
  cases h with
  | add u r => exact ⟨r, fun _ => rfl⟩
  | addAll us r => exact ⟨r, fun _ => rfl⟩

/-- **Additions for distinct units may be exchanged.** -/
theorem Builder.Step.Adds.exchangeable {s t : Builder.Step U} {us vs : List U} (hs : s.Adds us)
    (ht : t.Adds vs) (huv : us.Disjoint vs) : Logged.Exchangeable run (.start .new) s t := by
  obtain ⟨r, hs⟩ := hs.run_eq
  obtain ⟨q, ht⟩ := ht.run_eq
  refine Logged.Alike.exchangeable (fun _ _ s h => s.alike h) (.start .new) fun w w' h => ?_
  have hb := h.builder
  rw [Logged.runSteps_pair hs ht, Logged.runSteps_pair ht hs]
  exact ⟨h.set ⟨hb.mappings.addAll_addAll huv r q, hb.low, hb.high, hb.otherwise⟩, rfl, rfl⟩

end Runs

theorem Mappings.Step.alike {w w' : Workbench (Mappings UInt8) ByteEscaper}
    (h : w.Alike Mappings.Alike w') (s : Mappings.Step) :
    Logged.Alike (Workbench.Alike Mappings.Alike) (run w s) (run w' s) := by
  have hm := h.builder
  cases s with
  | add b r => exact ⟨h.set (hm.add b r), rfl, rfl⟩
  | addAll bs r => exact ⟨h.set (hm.addAll bs r), rfl, rfl⟩
  | reset => exact ⟨h.set .empty, rfl, rfl⟩
  | save => exact ⟨h.save, rfl, rfl⟩
  | restore => exact ⟨h.restore, rfl, rfl⟩
  | build =>
    rw [run, run, toEscaper, toEscaper, hm.toTable_eq, hm.count_eq, h.built]
    exact ⟨h.keep _, rfl, rfl⟩
  | buildRange low high fallback =>
    rw [run, run, hm.toTable_eq, h.built]
    exact ⟨h.keep _, rfl, rfl⟩
  | table q =>
    rw [run, run, hm.toTable_eq]
    exact ⟨h, rfl, rfl⟩
  | call n q =>
    rw [run, run, h.built]
    cases w'.built[n]? with
    | none => exact ⟨h, rfl, rfl⟩
    | some e => exact ⟨h, rfl, rfl⟩

theorem Mappings.Step.Adds.run_eq {s : Mappings.Step} {bs : Bytes} (h : s.Adds bs) :
    ∃ r, ∀ w, run w s = pure (w.set (w.builder.addAll bs r), .done) := by
  cases h with
  | add b r => exact ⟨r, fun _ => rfl⟩
  | addAll bs r => exact ⟨r, fun _ => rfl⟩

theorem Mappings.Step.Adds.exchangeable {s t : Mappings.Step} {bs cs : Bytes} (hs : s.Adds bs)
    (ht : t.Adds cs) (hbc : bs.Disjoint cs) : Logged.Exchangeable run (.start .empty) s t := by
  obtain ⟨r, hs⟩ := hs.run_eq
  obtain ⟨q, ht⟩ := ht.run_eq
  refine Logged.Alike.exchangeable (fun _ _ s h => s.alike h) (.start .empty) fun w w' h => ?_
  rw [Logged.runSteps_pair hs ht, Logged.runSteps_pair ht hs]
  exact ⟨h.set (h.builder.addAll_addAll hbc r q), rfl, rfl⟩

end TextOps
