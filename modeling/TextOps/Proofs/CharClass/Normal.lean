import TextOps.CharClass.Script
import TextOps.Proofs.CharClass.Meaning

/-!
# `TextOps/Proofs/CharClass/Normal.lean` — what the operations on classes never leave behind

Most forms of a class could be written in a simpler way: a complement of a complement, an
intersection with everything, a table of two characters. The operations of `CharClass.Algebra` make
none of these. The condition is about each node of a class on its own (`Simplified`), and it is not
a matter of form alone: behind `allBut c` there is an intersection only if the second operand has
`c`, for otherwise the second operand is all there is to it. A class is `Normal` if the condition
holds at all of its nodes.

Each operation hands on operands or puts one node on top of them, so it keeps classes normal, which
is one lemma for each operation. What is made in any order, by expressions or by scripts, is then
normal by induction. Three things rest on it: the search in the table of `oneOf`, a double complement
that takes itself back, and descriptions that tell classes apart.
-/

set_option autoImplicit false

namespace TextOps

namespace CharClass

variable {P : Type}

/-! ## Nodes -/

/-- A class and all classes that it is made from, at any depth. -/
def nodes : CharClass P → List (CharClass P)
  | complement m => complement m :: m.nodes
  | both a b => both a b :: (a.nodes ++ b.nodes)
  | either a b => either a b :: (a.nodes ++ b.nodes)
  | m => [m]

theorem mem_nodes_self (m : CharClass P) : m ∈ m.nodes := by
  cases m <;> simp [nodes]

variable [CharPredicate P]

/-- The outermost node of a class is none that the operations simplify. -/
def Simplified : CharClass P → Prop
  | pair a b => a < b
  | oneOf cs => cs.toList.Pairwise (· < ·) ∧ 3 ≤ cs.size
  | complement m =>
    match m with
    | anything | nothing | single _ | allBut _ | complement _ => False
    | _ => True
  | both a b =>
    match a with
    | anything | nothing | single _ => False
    | allBut c => b.accepts c = true
    | _ => True
  | either a b =>
    match a with
    | anything | nothing | allBut _ => False
    | single c => b.accepts c = false
    | _ => True
  | _ => True

/-- No node of a class is one that the operations simplify. -/
def Normal (m : CharClass P) : Prop := ∀ n ∈ m.nodes, n.Simplified

theorem Normal.simplified {m : CharClass P} (h : m.Normal) : m.Simplified := h m m.mem_nodes_self

theorem normal_complement {m : CharClass P} :
    (complement m).Normal ↔ (complement m).Simplified ∧ m.Normal := by
  simp [Normal, nodes]

theorem normal_both {a b : CharClass P} :
    (both a b).Normal ↔ (both a b).Simplified ∧ a.Normal ∧ b.Normal := by
  simp [Normal, nodes, or_imp, forall_and]

theorem normal_either {a b : CharClass P} :
    (either a b).Normal ↔ (either a b).Simplified ∧ a.Normal ∧ b.Normal := by
  simp [Normal, nodes, or_imp, forall_and]

/-! ## The operations -/

theorem Normal.negate {m : CharClass P} (h : m.Normal) : m.negate.Normal := by
  cases m
  case complement m => exact (normal_complement.mp h).2
  case anything | nothing | single | allBut =>
    simp [CharClass.negate, Normal, nodes, Simplified]
  all_goals exact normal_complement.mpr ⟨trivial, h⟩

theorem Normal.and {a b : CharClass P} (ha : a.Normal) (hb : b.Normal) : (a.and b).Normal := by
  cases a
  case anything => exact hb
  case nothing => exact ha
  case single c =>
    rw [CharClass.and]
    split
    · exact ha
    · simp [Normal, nodes, Simplified]
  case allBut c =>
    rw [CharClass.and]
    split
    · next hc => exact normal_both.mpr ⟨hc, ha, hb⟩
    · exact hb
  all_goals exact normal_both.mpr ⟨trivial, ha, hb⟩

theorem Normal.or {a b : CharClass P} (ha : a.Normal) (hb : b.Normal) : (a.or b).Normal := by
  cases a
  case anything => exact ha
  case nothing => exact hb
  case single c =>
    rw [CharClass.or]
    split
    · exact hb
    · next hc => exact normal_either.mpr ⟨Bool.eq_false_iff.mpr hc, ha, hb⟩
  case allBut c =>
    rw [CharClass.or]
    split
    · simp [Normal, nodes, Simplified]
    · exact ha
  all_goals exact normal_either.mpr ⟨trivial, ha, hb⟩

/-- A table has the length that its form calls for, because shorter ones have forms of their own. -/
theorem normal_ofSorted {cs : Text} (hs : cs.Pairwise (· < ·)) :
    (ofSorted cs : CharClass P).Normal := by
  match cs with
  | [] | [_] => simp [ofSorted, Normal, nodes, Simplified]
  | [a, b] => simpa [ofSorted, Normal, nodes, Simplified] using hs
  | c :: d :: e :: cs =>
    have hlength : 3 ≤ (c :: d :: e :: cs).toArray.size := by simp
    intro n hn
    rw [List.mem_singleton.mp hn]
    exact ⟨hs, hlength⟩

theorem normal_anyOf (s : Text) : (anyOf s : CharClass P).Normal :=
  normal_ofSorted (pairwise_sortedSet s)

end CharClass

/-! ## Expressions -/

section Expressions

variable {P : Type} [CharPredicate P]

theorem Atom.normal_build (a : Atom P) : a.build.Normal := by
  cases a
  case anyOf s => exact CharClass.normal_anyOf s
  case noneOf s => exact (CharClass.normal_anyOf s).negate
  all_goals simp [build, CharClass.Normal, CharClass.nodes, CharClass.Simplified]

/-- **The class that an expression builds is normal.** -/
theorem CharExpr.normal_build (e : CharExpr P) : e.build.Normal := by
  induction e with
  | atom a => exact a.normal_build
  | negate e ih => exact ih.negate
  | and a b iha ihb => exact iha.and ihb
  | or a b iha ihb => exact iha.or ihb

end Expressions

/-! ## Scripts -/

namespace CharClass

variable {Q : Type} [CharPredicate Q]

/-- Every register holds the class of an expression. -/
def Registers.Built (regs : Registers Q) : Prop :=
  ∀ m ∈ regs, ∃ e : CharExpr (Shared Q), e.build = m

theorem Registers.Built.getElem? {regs : Registers Q} (h : regs.Built) {i : Nat}
    {m : CharClass (Shared Q)} (hm : regs[i]? = some m) : ∃ e : CharExpr (Shared Q), e.build = m :=
  h m (List.mem_of_getElem? hm)

/-- A step makes the class of an expression from classes of expressions. -/
theorem Step.made?_built {regs : Registers Q} (h : regs.Built) {st : Step Q}
    {m : CharClass (Shared Q)} (hm : st.made? regs = some m) :
    ∃ e : CharExpr (Shared Q), e.build = m := by
  cases st with
  | make a => exact ⟨.atom (a.map (Shared.mk regs.length)), Option.some.inj hm⟩
  | copy i => exact h.getElem? hm
  | negate i =>
    obtain ⟨a, ha, rfl⟩ := Option.map_eq_some_iff.mp hm
    obtain ⟨e, rfl⟩ := h.getElem? ha
    exact ⟨.negate e, rfl⟩
  | and i j =>
    obtain ⟨a, ha, hm⟩ := Option.bind_eq_some_iff.mp hm
    obtain ⟨b, hb, hm⟩ := Option.bind_eq_some_iff.mp hm
    obtain ⟨e, rfl⟩ := h.getElem? ha
    obtain ⟨f, rfl⟩ := h.getElem? hb
    exact ⟨.and e f, Option.some.inj hm⟩
  | or i j =>
    obtain ⟨a, ha, hm⟩ := Option.bind_eq_some_iff.mp hm
    obtain ⟨b, hb, hm⟩ := Option.bind_eq_some_iff.mp hm
    obtain ⟨e, rfl⟩ := h.getElem? ha
    obtain ⟨f, rfl⟩ := h.getElem? hb
    exact ⟨.or e f, Option.some.inj hm⟩
  | equal | describe | ask => exact absurd hm (by simp [made?])

variable [DecidableEq Q]

theorem Step.built_run {regs : Registers Q} (h : regs.Built) (st : Step Q) :
    (st.run regs).1.Built := by
  rw [run]
  split
  · next m hm =>
    intro n hn
    rcases List.mem_append.mp hn with hn | hn
    · exact h n hn
    · rw [List.mem_singleton.mp hn]
      exact made?_built h hm
  · exact h

theorem built_runScript (steps : List (Step Q)) : Registers.Built (runScript [] steps).1 := by
  have hstart : Registers.Built ([] : Registers Q) := fun _ hm => absurd hm List.not_mem_nil
  exact runSteps_invariant (fun _ st h => st.built_run h) hstart steps

/-- **No class ever made has a node that could be simplified**, whether it is asked for by an
expression or is left in a register by the steps of a script. -/
theorem simplified_of_mem_nodes :
    (∀ (P : Type) [CharPredicate P] (e : CharExpr P), ∀ n ∈ e.build.nodes, n.Simplified) ∧
    ∀ (Q : Type) [CharPredicate Q] [DecidableEq Q] (steps : List (Step Q)),
      ∀ m ∈ (runScript [] steps).1, ∀ n ∈ m.nodes, n.Simplified := by
  constructor
  · intro P _ e
    exact e.normal_build
  · intro Q _ _ steps m hm
    obtain ⟨e, rfl⟩ := built_runScript steps m hm
    exact e.normal_build

theorem simplified_of_mem_nodes_table :
    let table : CharClass (Shared CharRule) := oneOf #['a', 'b', 'c']
    let m := both (allBut 'a') table
    m ∈ (runScript [] [Step.make (.anyOf ['c', 'a', 'b']), .make (.allBut 'a'), .and 1 0]).1 ∧
      table ∈ m.nodes ∧ table.Simplified := by
  intro table m
  have hm : m ∈ (runScript [] [Step.make (.anyOf ['c', 'a', 'b']), .make (.allBut 'a'),
      .and 1 0]).1 := List.mem_of_getElem? (i := 2) rfl
  have htable : table ∈ m.nodes := by simp [m, nodes, table]
  exact ⟨hm, htable, simplified_of_mem_nodes.2 CharRule _ m hm table htable⟩

end CharClass

end TextOps
