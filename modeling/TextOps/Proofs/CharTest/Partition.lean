import TextOps.Proofs.CharClass.Meaning
import TextOps.Proofs.CharTest.Search
import TextOps.Proofs.CharTest.Slice

/-!
# `TextOps/Proofs/CharTest/Partition.lean` — what is kept and what is dropped make up the text

Keeping and dropping are two passes over one text, and each of them writes without regard to the
other. That nothing gets lost between them, or is written by both, means that the text can be put
together again: its characters say from which of the two results the next character is to come
(`rebuild?`). For given results this comes out right only if they are the characters that pass and
those that fail (`rebuild?_eq_some_iff`), and then nothing is left over.

A text is handed back by one of the passes exactly if the other has nothing to write. The questions
whether all, none or any of the characters pass ask the same thing in other words, and so does a
count of zero.
-/

set_option autoImplicit false

namespace TextOps.CharTest

variable {p : CharTest}

/-! ## Putting a text together -/

/-- Writes a character for each character of a text: the next one of `passing` if it passes, and the
next one of `failing` if it fails. The result is what is written and what is left of the two; there is
none if one of them comes to its end too early. -/
def rebuild? (p : CharTest) : (s passing failing : Text) → Option (Text × Text × Text)
  | [], passing, failing => some ([], passing, failing)
  | c :: s, passing, failing =>
    if p c then
      match passing with
      | [] => none
      | d :: passing => (rebuild? p s passing failing).map (Prod.map (d :: ·) id)
    else
      match failing with
      | [] => none
      | d :: failing => (rebuild? p s passing failing).map (Prod.map (d :: ·) id)

theorem rebuild?_cons_of_pos {c : Char} (hc : p c = true) (d : Char) (s passing failing : Text) :
    p.rebuild? (c :: s) (d :: passing) failing =
      (p.rebuild? s passing failing).map (Prod.map (d :: ·) id) := by
  simp only [rebuild?, hc, if_true]

theorem rebuild?_cons_of_neg {c : Char} (hc : p c = false) (d : Char) (s passing failing : Text) :
    p.rebuild? (c :: s) passing (d :: failing) =
      (p.rebuild? s passing failing).map (Prod.map (d :: ·) id) := by
  simp only [rebuild?, hc, Bool.false_eq_true, if_false]

theorem map_write_eq_some_iff {o : Option (Text × Text × Text)} {c d : Char} {s : Text}
    {left : Text × Text} :
    o.map (Prod.map (d :: ·) id) = some (c :: s, left) ↔ d = c ∧ o = some (s, left) := by
  cases o with
  | none => simp
  | some x => simp [Prod.ext_iff, and_assoc]

/-- **A text is rebuilt from the characters that pass and those that fail**, and from nothing else;
what stands behind them is left. -/
theorem rebuild?_eq_some_iff {s passing failing a b : Text} :
    p.rebuild? s passing failing = some (s, a, b) ↔
      passing = s.filter p ++ a ∧ failing = (s.filter fun c => !p c) ++ b := by
  induction s generalizing passing failing with
  | nil => simp [rebuild?]
  | cons c s ih =>
    cases hc : p c with
    | true =>
      rw [List.filter_cons_of_pos hc, List.filter_cons_of_neg (by simp [hc])]
      cases passing with
      | nil => simp [rebuild?, hc]
      | cons d passing =>
        rw [rebuild?_cons_of_pos hc, map_write_eq_some_iff, ih, List.cons_append, List.cons.injEq,
          and_assoc]
    | false =>
      rw [List.filter_cons_of_neg (by simp [hc]), List.filter_cons_of_pos (by simp [hc])]
      cases failing with
      | nil => simp [rebuild?, hc]
      | cons d failing =>
        rw [rebuild?_cons_of_neg hc, map_write_eq_some_iff, ih, List.cons_append, List.cons.injEq,
          and_left_comm]

/-! ## Nothing to write -/

theorem noneIn_eq (p : CharTest) (s : Text) : p.noneIn s = (p.countIn s == 0) := by
  rw [noneIn, indexIn_eq, ← length_indices]
  cases p.indices s 0 <;> rfl

theorem isKept_removeFrom_eq_noneIn (p : CharTest) (s : Text) :
    (p.removeFrom s).isKept = p.noneIn s := by
  rw [isKept_removeFrom, noneIn_eq, countIn, Bool.eq_iff_iff]
  simp

end TextOps.CharTest

namespace TextOps.CharClass

variable {P : Type} [CharPredicate P]

/-- **Keeping and dropping divide a text.** From the two results the text is put together again, with
nothing left of either, and it is not from any other two. All that is kept is of the class and nothing
that is dropped. To keep is to drop for the complement, whether a text is handed back included. It is
handed back by the one if all of its characters are of the class, and by the other if none is, which
is a count of zero. Neither of them asks for a slice that does not exist. -/
theorem retain_remove_partition (m : CharClass P) (s : Text) :
    (m.test.rebuild? s (m.test.retainFrom s).value (m.test.removeFrom s).value = some (s, [], []) ∧
        ∀ passing failing, m.test.rebuild? s passing failing = some (s, [], []) →
          passing = (m.test.retainFrom s).value ∧ failing = (m.test.removeFrom s).value) ∧
      ((∀ c ∈ (m.test.retainFrom s).value, m.accepts c = true) ∧
        ∀ c ∈ (m.test.removeFrom s).value, m.accepts c = false) ∧
      (m.negate.test.retainFrom s = m.test.removeFrom s ∧
        m.negate.test.removeFrom s = m.test.retainFrom s) ∧
      (m.test.retainFrom s).isKept = m.allIn s ∧
      ((m.test.removeFrom s).isKept = m.test.noneIn s ∧
        m.test.noneIn s = (m.countIn s == 0) ∧ m.test.noneIn s = !m.test.anyIn s) ∧
      (m.test.retainSliced? s = some (m.test.retainFrom s) ∧
        CharTest.retainSliced? (fun c => !m.test c) s = some (m.test.removeFrom s)) := by
  refine ⟨⟨?rebuilt, ?only⟩, ⟨?pass, ?fail⟩, ⟨?negateRetain, ?negateRemove⟩, ?all,
    ⟨?none, ?count, ?any⟩, ?retainSliced, ?removeSliced⟩
  case rebuilt =>
    rw [CharTest.rebuild?_eq_some_iff, CharTest.value_retainFrom, CharTest.value_removeFrom,
      List.append_nil, List.append_nil]
    exact ⟨rfl, rfl⟩
  case only =>
    intro passing failing h
    rw [CharTest.rebuild?_eq_some_iff, List.append_nil, List.append_nil] at h
    rwa [CharTest.value_retainFrom, CharTest.value_removeFrom]
  case pass =>
    intro c hc
    rw [CharTest.value_retainFrom] at hc
    exact (List.mem_filter.mp hc).2
  case fail =>
    intro c hc
    rw [CharTest.value_removeFrom] at hc
    have hfail : m.test c = false := by simpa using (List.mem_filter.mp hc).2
    exact hfail
  case negateRetain => rw [m.test_negate, CharTest.removeFrom]
  case negateRemove =>
    rw [m.test_negate, CharTest.removeFrom]
    simp only [Bool.not_not]
  case all => rw [CharTest.isKept_retainFrom, m.allIn_eq, CharTest.allIn]
  case none => exact CharTest.isKept_removeFrom_eq_noneIn m.test s
  case count => rw [CharTest.noneIn_eq, m.countIn_eq]
  case any => rw [CharTest.anyIn, Bool.not_not]
  case retainSliced => exact CharTest.retainSliced?_eq m.test s
  case removeSliced => exact CharTest.retainSliced?_eq _ s

/-- Characters of one, two and three octets, of which the class has two that stand apart. -/
theorem retain_remove_partition_accents :
    let m : CharClass Empty := pair 'é' '日'
    let s : Text := ['日', 'a', 'é', 'é', 'b']
    let kept : Text := ['日', 'é', 'é']
    let dropped : Text := ['a', 'b']
    m.test.rebuild? s kept dropped = some (s, [], []) ∧
      (kept = (m.test.retainFrom s).value ∧ dropped = (m.test.removeFrom s).value) ∧
      ('日' ∈ (m.test.retainFrom s).value ∧ m.accepts '日' = true) ∧
      ('b' ∈ (m.test.removeFrom s).value ∧ m.accepts 'b' = false) := by
  intro m s kept dropped
  obtain ⟨⟨-, honly⟩, ⟨hpass, hfail⟩, -⟩ := retain_remove_partition m s
  have hrebuilt : m.test.rebuild? s kept dropped = some (s, [], []) := by decide
  have hkept : '日' ∈ (m.test.retainFrom s).value := by decide
  have hdropped : 'b' ∈ (m.test.removeFrom s).value := by decide
  exact ⟨hrebuilt, honly kept dropped hrebuilt, ⟨hkept, hpass _ hkept⟩,
    ⟨hdropped, hfail _ hdropped⟩⟩

end TextOps.CharClass
