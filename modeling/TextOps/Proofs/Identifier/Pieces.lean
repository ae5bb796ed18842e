import Mathlib.Data.List.DropRight
import TextOps.Identifier.Words
import TextOps.Proofs.Identifier.Casing
import TextOps.Proofs.Offset

/-!
# `TextOps/Proofs/Identifier/Pieces.lean` — the words of an identifier are pieces of its text

Words are cut out by octet offsets. Here they become the pieces of a list that is cut at certain
characters (`cutAt`), a recursion on the characters in which no offset occurs. There are two ways to
cut: a separator is dropped, while an upper-case letter begins the next piece.

Between the two stands `Cuts`: boundaries that cut a text into words, each of them a slice that exists.
That the boundaries of a text cut it into its pieces is one induction on its characters
(`cuts_cutAt`), in which the text is held in three parts: the words that are done, the characters of
the unfinished one, and the rest. All offsets are extents of such parts. Whatever is done with the
boundaries afterwards is an induction on `Cuts`, without characters; `cut_of_cuts` is one.

The two equations `words_of_separator` and `words_cons_of_camel` are what later proofs know about the
words. An upper-case letter at the very start of a camel identifier ends no word; the second equation
says so by not looking at the first character.
-/

set_option autoImplicit false

namespace TextOps.CaseFormat

open Letter Offset

/-! ## Cutting a text at characters -/

/-- A text in pieces. There is always a first one. -/
structure Pieces where
  /-- The piece that begins with the text. -/
  first : Text
  /-- The pieces behind it. -/
  others : List Text

/-- The pieces of a text between the characters that pass a test. Such a character begins the piece
behind it if `keep` says so, and belongs to none otherwise. -/
def cutAt (test : Char → Bool) (keep : Bool) : Text → Pieces
  | [] => ⟨[], []⟩
  | c :: s =>
    let rest := cutAt test keep s
    if test c then ⟨[], (if keep then c :: rest.first else rest.first) :: rest.others⟩
    else ⟨c :: rest.first, rest.others⟩

section CutAt

variable {test : Char → Bool} {keep : Bool}

theorem cutAt_cons_of_not {c : Char} (h : test c = false) (s : Text) :
    cutAt test keep (c :: s) = ⟨c :: (cutAt test keep s).first, (cutAt test keep s).others⟩ := by
  rw [cutAt, if_neg (Bool.eq_false_iff.mp h)]

theorem cutAt_cons_of_keep {c : Char} (h : test c = true) (s : Text) :
    cutAt test true (c :: s) =
      ⟨[], (c :: (cutAt test true s).first) :: (cutAt test true s).others⟩ := by
  rw [cutAt, if_pos h, if_pos rfl]

theorem cutAt_cons_of_drop {c : Char} (h : test c = true) (s : Text) :
    cutAt test false (c :: s) = ⟨[], (cutAt test false s).first :: (cutAt test false s).others⟩ := by
  rw [cutAt, if_pos h, if_neg Bool.false_ne_true]

theorem cutAt_append {w : Text} (h : ∀ c ∈ w, test c = false) (s : Text) :
    cutAt test keep (w ++ s) = ⟨w ++ (cutAt test keep s).first, (cutAt test keep s).others⟩ := by
  induction w with
  | nil => rfl
  | cons c w ih =>
    rw [List.cons_append, cutAt_cons_of_not (h c List.mem_cons_self),
      ih fun d hd => h d (List.mem_cons_of_mem _ hd), List.cons_append]

/-- There are as many pieces behind the first as there are characters to cut at. -/
theorem length_others_cutAt (s : Text) : (cutAt test keep s).others.length = s.countP test := by
  induction s with
  | nil => rfl
  | cons c s ih =>
    rw [cutAt, List.countP_cons]
    split
    · rw [List.length_cons, ih]
    · exact ih

theorem mem_of_mem_cutAt (test : Char → Bool) (keep : Bool) (s : Text) :
    (∀ c ∈ (cutAt test keep s).first, c ∈ s) ∧
      ∀ w ∈ (cutAt test keep s).others, ∀ c ∈ w, c ∈ s := by
  induction s with
  | nil => exact ⟨fun c hc => hc, fun w hw => absurd hw List.not_mem_nil⟩
  | cons d s ih =>
    obtain ⟨hfirst, hothers⟩ := ih
    rw [cutAt]
    split
    · refine ⟨fun c hc => absurd hc List.not_mem_nil, fun w hw c hc => ?_⟩
      rcases List.mem_cons.mp hw with rfl | hw
      · cases keep with
        | false => exact List.mem_cons_of_mem _ (hfirst c hc)
        | true =>
          rcases List.mem_cons.mp hc with rfl | hc
          · exact List.mem_cons_self
          · exact List.mem_cons_of_mem _ (hfirst c hc)
      · exact List.mem_cons_of_mem _ (hothers w hw c hc)
    · refine ⟨fun c hc => ?_, fun w hw c hc => List.mem_cons_of_mem _ (hothers w hw c hc)⟩
      rcases List.mem_cons.mp hc with rfl | hc
      · exact List.mem_cons_self
      · exact List.mem_cons_of_mem _ (hfirst c hc)

theorem not_test_of_mem_cutAt (test : Char → Bool) (s : Text) :
    (∀ c ∈ (cutAt test false s).first, test c = false) ∧
      ∀ w ∈ (cutAt test false s).others, ∀ c ∈ w, test c = false := by
  induction s with
  | nil => exact ⟨fun c hc => absurd hc List.not_mem_nil, fun w hw => absurd hw List.not_mem_nil⟩
  | cons d s ih =>
    obtain ⟨hfirst, hothers⟩ := ih
    cases hd : test d with
    | false =>
      rw [cutAt_cons_of_not hd]
      refine ⟨fun c hc => ?_, hothers⟩
      rcases List.mem_cons.mp hc with rfl | hc
      · exact hd
      · exact hfirst c hc
    | true =>
      rw [cutAt_cons_of_drop hd]
      refine ⟨fun c hc => absurd hc List.not_mem_nil, fun w hw c hc => ?_⟩
      rcases List.mem_cons.mp hw with rfl | hw
      · exact hfirst c hc
      · exact hothers w hw c hc

theorem any_head?_first_cutAt {a : Char → Bool} (h : ∀ c, test c = true → a c = false) (s : Text) :
    (cutAt test false s).first.head?.any a = s.head?.any a := by
  cases s with
  | nil => rfl
  | cons c s =>
    cases hc : test c with
    | false => rw [cutAt_cons_of_not hc]; rfl
    | true =>
      rw [cutAt_cons_of_drop hc]
      exact (h c hc).symm

/-- Pieces put together again with another separator, each character changed on the way. -/
theorem flatMap_cutAt_of_drop (h : Char → Char) (q : Char) (s : Text) :
    (cutAt test false s).first.map h ++
        (cutAt test false s).others.flatMap (fun w => q :: w.map h) =
      s.map fun c => if test c then q else h c := by
  induction s with
  | nil => rfl
  | cons c s ih =>
    cases hc : test c with
    | false =>
      rw [cutAt_cons_of_not hc, List.map_cons, List.map_cons, List.cons_append, ih]
      simp [hc]
    | true =>
      rw [cutAt_cons_of_drop hc, List.map_nil, List.nil_append, List.flatMap_cons,
        List.cons_append, ih]
      simp [hc]

/-- Words without a character to cut at, each put behind one that is dropped, are cut out again. -/
theorem cutAt_flatMap_of_drop {p : Char} {ws : List Text} (h : ∀ w ∈ ws, ∀ c ∈ w, test c = false)
    (hp : test p = true) :
    cutAt test false (ws.flatMap fun w => p :: w) = ⟨[], ws⟩ := by
  induction ws with
  | nil => rfl
  | cons w ws ih =>
    have hrest := ih fun v hv => h v (List.mem_cons_of_mem _ hv)
    rw [List.flatMap_cons, List.cons_append, cutAt_cons_of_drop hp,
      cutAt_append (h w List.mem_cons_self), hrest, List.append_nil]

/-- Words that begin with a character to cut at, and have no other one, are cut out of the text that
they make up. -/
theorem cutAt_flatten_of_keep {ws : List Text}
    (h : ∀ w ∈ ws, ∃ c v, w = c :: v ∧ test c = true ∧ ∀ d ∈ v, test d = false) :
    cutAt test true ws.flatten = ⟨[], ws⟩ := by
  induction ws with
  | nil => rfl
  | cons w ws ih =>
    have hrest := ih fun v hv => h v (List.mem_cons_of_mem _ hv)
    obtain ⟨c, v, rfl, hc, hv⟩ := h w List.mem_cons_self
    rw [List.flatten_cons, List.cons_append, cutAt_cons_of_keep hc, cutAt_append hv, hrest,
      List.append_nil]

end CutAt

/-! ## From offsets to pieces -/

/-- The offsets of the passing characters of a text that starts at `base`. -/
def testOffsets (test : Char → Bool) (base : Nat) (s : Text) : List Nat :=
  ((locate Char.utf8Size base s).filter (test ·.2)).map (·.1)

section Offsets

variable {test : Char → Bool}

theorem testOffsets_cons_of_pos {c : Char} (h : test c = true) (base : Nat) (s : Text) :
    testOffsets test base (c :: s) = base :: testOffsets test (base + c.utf8Size) s := by
  rw [testOffsets, locate_cons, List.filter_cons_of_pos (by simpa using h), List.map_cons,
    ← testOffsets]

theorem testOffsets_cons_of_neg {c : Char} (h : test c = false) (base : Nat) (s : Text) :
    testOffsets test base (c :: s) = testOffsets test (base + c.utf8Size) s := by
  rw [testOffsets, locate_cons, List.filter_cons_of_neg (by simp [h]), ← testOffsets]

/-- The boundaries `js` cut what begins at `start` into the word `w` and the words behind it, each of
them a slice that exists. A boundary ends a word, and the next one begins `skip` octets further on.
If that would be zero again, no word has ended. -/
inductive Cuts (skip : Nat) (s : Text) : Nat → List Nat → Text → List Text → Prop where
  | last {start : Nat} {w : Text}
      (hw : slice? Char.utf8Size s start (extent Char.utf8Size s) = some w) :
      Cuts skip s start [] w []
  | next {start j : Nat} {js : List Nat} {w v : Text} {vs : List Text} (hj : j + skip ≠ 0)
      (hw : slice? Char.utf8Size s start j = some w) (rest : Cuts skip s (j + skip) js v vs) :
      Cuts skip s start (j :: js) w (v :: vs)
  | stay {js : List Nat} {w : Text} {ws : List Text} (hskip : skip = 0)
      (rest : Cuts skip s 0 js w ws) : Cuts skip s 0 (0 :: js) w ws

theorem slice?_pending (done pending rest : Text) :
    slice? Char.utf8Size (done ++ pending ++ rest) (extent Char.utf8Size done)
        (extent Char.utf8Size (done ++ pending)) = some pending := by
  rw [extent_append]
  exact slice?_append Char.utf8Size_pos done pending rest

/-- The word behind a boundary character, with as much of it as the character itself. -/
theorem exists_next {keep : Bool} {skip : Nat} {c : Char} (hc : test c = true)
    (hskip : skip = if keep then 0 else c.utf8Size) (before rest : Text) :
    ∃ done pending, done ++ pending = before ++ [c] ∧
      extent Char.utf8Size done = extent Char.utf8Size before + skip ∧
      cutAt test keep (c :: rest) =
        ⟨[], (pending ++ (cutAt test keep rest).first) :: (cutAt test keep rest).others⟩ := by
  cases keep with
  | true => exact ⟨before, [c], rfl, by rw [hskip]; rfl, cutAt_cons_of_keep hc rest⟩
  | false =>
    refine ⟨before ++ [c], [], List.append_nil _, ?_, cutAt_cons_of_drop hc rest⟩
    rw [hskip, extent_append]
    rfl

/-- **The boundaries of a text cut it into its pieces**, from any point of the text. The words in
`done` are behind, and the unfinished one has the characters `pending` so far. -/
theorem cuts_cutAt (keep : Bool) {skip : Nat}
    (hskip : ∀ c, test c = true → skip = if keep then 0 else c.utf8Size) (rest : Text) :
    ∀ done pending : Text, extent Char.utf8Size (done ++ pending) + skip ≠ 0 →
      Cuts skip (done ++ pending ++ rest) (extent Char.utf8Size done)
        (testOffsets test (extent Char.utf8Size (done ++ pending)) rest)
        (pending ++ (cutAt test keep rest).first) (cutAt test keep rest).others := by
  induction rest with
  | nil =>
    intro done pending _
    have hslice := slice?_pending done pending []
    rw [List.append_nil] at hslice
    rw [List.append_nil, cutAt, List.append_nil]
    exact .last hslice
  | cons c rest ih =>
    intro done pending hpos
    have hwidth := Char.utf8Size_pos c
    have hextent : extent Char.utf8Size (done ++ pending ++ [c]) =
        extent Char.utf8Size (done ++ pending) + c.utf8Size := extent_append _ _
    have hstep : done ++ pending ++ [c] ++ rest = done ++ pending ++ c :: rest := by
      rw [List.append_assoc _ [c], List.singleton_append]
    cases hc : test c with
    | false =>
      -- The character joins the unfinished word.
      have h := ih done (pending ++ [c])
      rw [← List.append_assoc, hstep, hextent, List.append_assoc pending,
        List.singleton_append] at h
      rw [testOffsets_cons_of_neg hc, cutAt_cons_of_not hc]
      exact h (by omega)
    | true =>
      -- The unfinished word ends, and the next one does not begin at zero.
      obtain ⟨done', pending', hjoin, hstart, hcut⟩ :=
        exists_next hc (hskip c hc) (done ++ pending) rest
      have h := ih done' pending'
      rw [hjoin, hstep, hextent, hstart] at h
      rw [testOffsets_cons_of_pos hc, hcut, List.append_nil]
      exact .next hpos (slice?_pending done pending (c :: rest)) (h (by omega))

end Offsets

/-! ## From boundaries to words -/

section Spans

theorem exists_spansFrom (skip stop start : Nat) (js : List Nat) :
    ∃ j spans, spansFrom skip stop start js = (start, j) :: spans := by
  induction js with
  | nil => exact ⟨stop, [], rfl⟩
  | cons j js ih =>
    rw [spansFrom]
    split
    · exact ih
    · exact ⟨j, _, rfl⟩

theorem cut_dropWhile {n start : Nat} (h : n ≤ start) (items : List (Nat × Char))
    (skip stop : Nat) (js : List Nat) :
    cut (items.dropWhile (·.1 < n)) (spansFrom skip stop start js) =
      cut items (spansFrom skip stop start js) := by
  obtain ⟨j, spans, hspans⟩ := exists_spansFrom skip stop start js
  rw [hspans, cut, cut, dropWhile_dropWhile h]

variable {skip start : Nat} {s w : Text} {js : List Nat} {ws : List Text}

theorem cut_of_cuts (h : Cuts skip s start js w ws) :
    cut (locate Char.utf8Size 0 s) (spansFrom skip (extent Char.utf8Size s) start js) =
      w :: ws := by
  induction h with
  | last hw => rw [spansFrom, cut, (of_slice?_eq_some hw).2, cut]
  | @next start j js w v vs hj hw _ ih =>
    obtain ⟨hle, hword⟩ := of_slice?_eq_some hw
    rw [spansFrom, if_neg hj, cut, hword, dropWhile_dropWhile hle,
      cut_dropWhile (Nat.le_add_right j skip), ih]
  | stay hskip _ ih => rw [spansFrom, if_pos (by rw [hskip]), ih]

end Spans

/-! ## The words of the formats -/

section Delimited

variable {f : CaseFormat} {p : Char}

theorem cuts_of_separator (h : f.separator = [p]) (s : Text) :
    Cuts (extent Char.utf8Size f.separator) s 0 (f.boundaryOffsets s)
      (cutAt (· == p) false s).first (cutAt (· == p) false s).others := by
  have hextent : extent Char.utf8Size f.separator = p.utf8Size := by
    rw [h]
    rfl
  have hskip : ∀ c, (c == p) = true →
      extent Char.utf8Size f.separator = if false then 0 else c.utf8Size := by
    intro c hc
    rw [beq_iff_eq.mp hc, if_neg Bool.false_ne_true, hextent]
  have hpos : 0 + extent Char.utf8Size f.separator ≠ 0 := by
    rw [hextent, Nat.zero_add]
    exact (Char.utf8Size_pos p).ne'
  rw [boundaryOffsets, boundary_of_separator h]
  exact cuts_cutAt false hskip s [] [] hpos

/-- **The words of a delimited identifier** are the pieces between separators. -/
theorem words_of_separator (h : f.separator = [p]) (s : Text) :
    f.words s = (cutAt (· == p) false s).first :: (cutAt (· == p) false s).others :=
  cut_of_cuts (cuts_of_separator h s)

end Delimited

section Camel

variable {f : CaseFormat}

theorem accepts_boundary_of_camel (h : f.separator = []) : f.boundary.accepts = Char.isUpper := by
  funext c
  rw [boundary_of_camel h, Bool.eq_iff_iff, isUpper_iff, CharClass.accepts, Bool.and_eq_true,
    decide_eq_true_iff, decide_eq_true_iff, Char.le_def, Char.le_def, UInt32.le_iff_toNat_le,
    UInt32.le_iff_toNat_le]
  rfl

theorem cuts_cons_of_camel (h : f.separator = []) (c : Char) (s : Text) :
    Cuts (extent Char.utf8Size f.separator) (c :: s) 0 (f.boundaryOffsets (c :: s))
      (c :: (cutAt Char.isUpper true s).first) (cutAt Char.isUpper true s).others := by
  have hpos : c.utf8Size + 0 ≠ 0 := (Char.utf8Size_pos c).ne'
  have hcuts : Cuts 0 (c :: s) 0 (testOffsets Char.isUpper c.utf8Size s)
      (c :: (cutAt Char.isUpper true s).first) (cutAt Char.isUpper true s).others :=
    cuts_cutAt true (fun _ _ => (if_pos rfl).symm) s [] [c] hpos
  rw [boundaryOffsets, accepts_boundary_of_camel h, h, extent_nil, ← testOffsets]
  cases hc : c.isUpper with
  | false =>
    rw [testOffsets_cons_of_neg hc, Nat.zero_add]
    exact hcuts
  | true =>
    -- A boundary at the very start would end an empty word, and is passed over.
    rw [testOffsets_cons_of_pos hc, Nat.zero_add]
    exact .stay rfl hcuts

/-- **The words of a camel identifier** are the pieces that begin at its upper-case letters. What
the first character is makes no difference. -/
theorem words_cons_of_camel (h : f.separator = []) (c : Char) (s : Text) :
    f.words (c :: s) =
      (c :: (cutAt Char.isUpper true s).first) :: (cutAt Char.isUpper true s).others :=
  cut_of_cuts (cuts_cons_of_camel h c s)

end Camel

theorem words_nil (f : CaseFormat) : f.words [] = [[]] := rfl

theorem exists_cuts (f : CaseFormat) (s : Text) :
    ∃ w ws, f.words s = w :: ws ∧
      Cuts (extent Char.utf8Size f.separator) s 0 (f.boundaryOffsets s) w ws := by
  rcases f.separator_cases with hf | ⟨p, hf⟩
  · cases s with
    | nil => exact ⟨[], [], f.words_nil, .last rfl⟩
    | cons c s => exact ⟨_, _, words_cons_of_camel hf c s, cuts_cons_of_camel hf c s⟩
  · exact ⟨_, _, words_of_separator hf s, cuts_of_separator hf s⟩

theorem exists_words_cons (f : CaseFormat) (s : Text) : ∃ w ws, f.words s = w :: ws := by
  obtain ⟨w, ws, hwords, -⟩ := f.exists_cuts s
  exact ⟨w, ws, hwords⟩

end TextOps.CaseFormat
