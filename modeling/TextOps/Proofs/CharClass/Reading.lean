import TextOps.Proofs.CharClass.Same
import TextOps.Proofs.Numeral
import TextOps.Proofs.SelfDelimiting

/-!
# `TextOps/Proofs/CharClass/Reading.lean` — a description tells which class it describes

A description is a row of symbols: fixed pieces such as `Matcher::is('` and `.and(`, and characters by
code point. Two things make it readable. The symbols can be told apart in front of any text, because
none of them begins another one (`Word.prefixFree`) and a code point ends with its brace, so a text is
the writing of one row of symbols at most. And a row of symbols is read from left to right with a
stack, on which a class waits until what follows has been read: a complement is put on top of what is
there, and the operand in parentheses is read as if it stood alone (`foldl_read_symbols`).

The one form that cannot be told from another is a table of two characters, which is described as a
pair is. A normal class has none.
-/

set_option autoImplicit false

namespace TextOps.CharClass

/-! ## Symbols -/

/-- The fixed pieces of descriptions. -/
inductive Word where
  | anything
  | nothing
  | whitespace
  | breakingWhitespace
  | ascii
  | digit
  | invisible
  | singleWidth
  /-- What comes before the characters that a class is given by. -/
  | single
  | allBut
  | range
  | members
  /-- What comes between the bounds of a range. -/
  | between
  /-- What comes behind the characters. -/
  | endQuoted
  | endMembers
  | negate
  | and
  | or
  | close
deriving DecidableEq

namespace Word

def text : Word → Text
  | anything => "Matcher::any()".toList
  | nothing => "Matcher::none()".toList
  | whitespace => "Matcher::whitespace()".toList
  | breakingWhitespace => "Matcher::breaking_whitespace()".toList
  | ascii => "Matcher::ascii()".toList
  | digit => "Matcher::digit()".toList
  | invisible => "Matcher::invisible()".toList
  | singleWidth => "Matcher::single_width()".toList
  | single => "Matcher::is(".toList ++ ['\x27']
  | allBut => "Matcher::is_not(".toList ++ ['\x27']
  | range => "Matcher::in_range(".toList ++ ['\x27']
  | members => "Matcher::any_of(\"".toList
  | between => ['\x27'] ++ ", ".toList ++ ['\x27']
  | endQuoted => ['\x27'] ++ ")".toList
  | endMembers => "\")".toList
  | negate => ".negate()".toList
  | and => ".and(".toList
  | or => ".or(".toList
  | close => ")".toList

/-- All fixed pieces. -/
def all : List Word :=
  [anything, nothing, whitespace, breakingWhitespace, ascii, digit, invisible, singleWidth, single,
    allBut, range, members, between, endQuoted, endMembers, negate, and, or, close]

theorem mem_all (w : Word) : w ∈ all := by
  cases w <;> decide

/-- No fixed piece is the beginning of another one. -/
theorem prefixFree : ∀ v ∈ all, ∀ w ∈ all, v.text <+: w.text → v = w := by decide

/-- No fixed piece begins as a code point does. -/
theorem head?_text : ∀ w ∈ all, w.text ≠ [] ∧ w.text.head? ≠ some '\x5c' := by decide

theorem eq_of_append_eq {v w : Word} {rest rest' : Text} (h : v.text ++ rest = w.text ++ rest') :
    v = w := by
  have hprefix : w.text <+: v.text ++ rest := h ▸ List.prefix_append w.text rest'
  rcases List.prefix_or_prefix_of_prefix (List.prefix_append v.text rest) hprefix with hvw | hwv
  · exact prefixFree v v.mem_all w w.mem_all hvw
  · exact (prefixFree w w.mem_all v v.mem_all hwv).symm

end Word

/-- A code point ends with its brace, so it can be told from what follows. -/
theorem selfDelimiting_writtenChar : SelfDelimiting writtenChar := by
  refine selfDelimiting_closed (fun c d h => ?_) fun c hbrace => ?_
  · have hnumbers := congrArg Numeral.ofUpperHex h
    rw [Numeral.ofUpperHex_leftpad, Numeral.ofUpperHex_leftpad] at hnumbers
    exact Char.toNat_inj.mp hnumbers
  · obtain ⟨k, hk, heq⟩ := Numeral.exists_hexDigit_of_mem_leftpad hbrace
    have hdigits : ∀ k < 16, '\x7d' ≠ Numeral.hexDigit k := by decide
    exact hdigits k hk heq

/-- A piece of a description: a fixed one, or a character by code point. -/
inductive Symbol where
  | word (w : Word)
  | char (c : Char)

namespace Symbol

def text : Symbol → Text
  | word w => w.text
  | char c => writtenChar c

theorem text_ne_nil (s : Symbol) : s.text ≠ [] := by
  cases s with
  | word w => exact (Word.head?_text w w.mem_all).1
  | char c => simp [text, writtenChar]

theorem ne_of_word_char {w : Word} {c : Char} {rest rest' : Text} :
    (word w).text ++ rest ≠ (char c).text ++ rest' := by
  intro h
  obtain ⟨hne, hhead⟩ := Word.head?_text w w.mem_all
  obtain ⟨x, xs, hx⟩ := List.exists_cons_of_ne_nil hne
  rw [text, hx] at h
  have hfirst : x = '\x5c' := List.head_eq_of_cons_eq h
  exact hhead (by rw [hx, hfirst]; rfl)

/-- **Symbols can be told apart**, whatever follows. -/
theorem eq_of_append_eq {s t : Symbol} {rest rest' : Text}
    (h : s.text ++ rest = t.text ++ rest') : s = t := by
  cases s with
  | word v =>
    cases t with
    | word w => rw [Word.eq_of_append_eq h]
    | char d => exact absurd h ne_of_word_char
  | char c =>
    cases t with
    | word w => exact absurd h.symm ne_of_word_char
    | char d => rw [selfDelimiting_writtenChar.eq_of_append_eq h]

theorem selfDelimiting_text : SelfDelimiting text := ⟨text_ne_nil, eq_of_append_eq⟩

end Symbol

/-! ## Writing -/

/-- The symbols for a class that is given by its members. -/
def memberSymbols (cs : Text) : List Symbol :=
  .word .members :: cs.map .char ++ [.word .endMembers]

/-- The symbols of the description of a class. -/
def symbols : CharClass Empty → List Symbol
  | anything => [.word .anything]
  | nothing => [.word .nothing]
  | single c => [.word .single, .char c, .word .endQuoted]
  | allBut c => [.word .allBut, .char c, .word .endQuoted]
  | pair a b => memberSymbols [a, b]
  | oneOf cs => memberSymbols cs.toList
  | range lo hi => [.word .range, .char lo, .word .between, .char hi, .word .endQuoted]
  | whitespace => [.word .whitespace]
  | breakingWhitespace => [.word .breakingWhitespace]
  | ascii => [.word .ascii]
  | digit => [.word .digit]
  | invisible => [.word .invisible]
  | singleWidth => [.word .singleWidth]
  | complement m => m.symbols ++ [.word .negate]
  | both a b => a.symbols ++ .word .and :: b.symbols ++ [.word .close]
  | either a b => a.symbols ++ .word .or :: b.symbols ++ [.word .close]

theorem append_writtenQuoted (s : Text) (c : Char) (t : Text) :
    s ++ writtenQuoted c ++ t = (s ++ ['\x27']) ++ (writtenChar c ++ (['\x27'] ++ t)) := by
  simp only [writtenQuoted, List.append_assoc]

theorem append_writtenQuoted_range (s : Text) (lo : Char) (t : Text) (hi : Char) (u : Text) :
    s ++ writtenQuoted lo ++ t ++ writtenQuoted hi ++ u =
      (s ++ ['\x27']) ++ (writtenChar lo ++ ((['\x27'] ++ t ++ ['\x27']) ++
        (writtenChar hi ++ (['\x27'] ++ u)))) := by
  simp only [writtenQuoted, List.append_assoc]

theorem writtenMembers_eq (cs : Text) :
    writtenMembers cs = (memberSymbols cs).flatMap Symbol.text := by
  have hchars : (cs.map Symbol.char).flatMap Symbol.text = cs.flatMap writtenChar := by
    rw [List.flatMap_map]
    rfl
  simp only [memberSymbols, List.cons_append, List.flatMap_cons, List.flatMap_append, hchars,
    List.flatMap_nil, List.append_nil]
  exact List.append_assoc _ _ _

/-- **A description is the writing of its symbols.** -/
theorem description_eq (m : CharClass Empty) : m.description = m.symbols.flatMap Symbol.text := by
  induction m with
  | pair a b => exact writtenMembers_eq [a, b]
  | oneOf cs => exact writtenMembers_eq cs.toList
  | predicate p => exact nomatch p
  | single c | allBut c =>
    simp only [symbols, List.flatMap_cons, List.flatMap_nil, List.append_nil]
    exact append_writtenQuoted _ c _
  | range lo hi =>
    simp only [symbols, List.flatMap_cons, List.flatMap_nil, List.append_nil]
    exact append_writtenQuoted_range _ lo _ hi _
  | complement m ih =>
    rw [symbols, List.flatMap_append, ← ih, List.flatMap_singleton]
    rfl
  | both a b iha ihb | either a b iha ihb =>
    simp only [symbols, List.append_assoc, List.cons_append, List.flatMap_append, List.flatMap_cons,
      List.flatMap_nil, List.append_nil, ← iha, ← ihb]
    rw [← List.append_assoc, ← List.append_assoc]
    rfl
  | _ => exact (List.append_nil _).symm

/-! ## Reading -/

/-- What is on the stack of the reader. -/
inductive Item where
  /-- A class that has been read. -/
  | done (m : CharClass Empty)
  /-- A piece, and the characters that have been read behind it. -/
  | begun (w : Word) (cs : Text)

/-- The class that a piece and the characters behind it stand for. -/
def ofCharacters : Word → Text → CharClass Empty
  | .single, [c] => single c
  | .allBut, [c] => allBut c
  | .range, [lo, hi] => range lo hi
  | .members, cs => ofSorted cs
  | _, _ => nothing

/-- Reads a symbol. -/
def read : List Item → Symbol → List Item
  | st, .word .anything => .done anything :: st
  | st, .word .nothing => .done nothing :: st
  | st, .word .whitespace => .done whitespace :: st
  | st, .word .breakingWhitespace => .done breakingWhitespace :: st
  | st, .word .ascii => .done ascii :: st
  | st, .word .digit => .done digit :: st
  | st, .word .invisible => .done invisible :: st
  | st, .word .singleWidth => .done singleWidth :: st
  | .begun w cs :: st, .char c => .begun w (cs ++ [c]) :: st
  | st, .word .between => st
  | .begun w cs :: st, .word .endQuoted => .done (ofCharacters w cs) :: st
  | .begun w cs :: st, .word .endMembers => .done (ofCharacters w cs) :: st
  | .done m :: st, .word .negate => .done (complement m) :: st
  | .done b :: .begun .and _ :: .done a :: st, .word .close => .done (both a b) :: st
  | .done b :: .begun .or _ :: .done a :: st, .word .close => .done (either a b) :: st
  | st, .word w => .begun w [] :: st
  | st, .char _ => st

theorem foldl_read_chars (w : Word) (cs ds : Text) (st : List Item) :
    (ds.map Symbol.char).foldl read (.begun w cs :: st) = .begun w (cs ++ ds) :: st := by
  induction ds generalizing cs with
  | nil => simp
  | cons d ds ih => simp [read, ih]

theorem foldl_read_memberSymbols (cs : Text) (st : List Item) :
    (memberSymbols cs).foldl read st = .done (ofSorted cs) :: st := by
  simp [memberSymbols, read, foldl_read_chars, ofCharacters]

theorem ofSorted_toList {cs : Array Char} (h : 3 ≤ cs.size) :
    (ofSorted cs.toList : CharClass Empty) = oneOf cs := by
  obtain ⟨cs⟩ := cs
  match cs with
  | [] | [_] | [_, _] => exact absurd h (by simp)
  | _ :: _ :: _ :: _ => rfl

/-- **The symbols of a class are read as that class**, on top of whatever is there. -/
theorem foldl_read_symbols {m : CharClass Empty} (h : m.Normal) (st : List Item) :
    m.symbols.foldl read st = .done m :: st := by
  induction m generalizing st with
  | pair a b => exact foldl_read_memberSymbols [a, b] st
  | oneOf cs =>
    rw [symbols, foldl_read_memberSymbols, ofSorted_toList h.simplified.2]
  | predicate p => exact nomatch p
  | complement m ih =>
    have hm := (normal_complement.mp h).2
    simp [symbols, ih hm, read]
  | both a b iha ihb =>
    obtain ⟨-, ha, hb⟩ := normal_both.mp h
    simp [symbols, iha ha, ihb hb, read]
  | either a b iha ihb =>
    obtain ⟨-, ha, hb⟩ := normal_either.mp h
    simp [symbols, iha ha, ihb hb, read]
  | _ => rfl

theorem Normal.eq_of_description_eq {a b : CharClass Empty} (ha : a.Normal) (hb : b.Normal)
    (h : a.description = b.description) : a = b := by
  rw [description_eq, description_eq] at h
  have hsymbols : a.symbols = b.symbols := Symbol.selfDelimiting_text.flatMap_injective h
  have hread : [Item.done a] = [.done b] := by
    rw [← foldl_read_symbols ha, ← foldl_read_symbols hb, hsymbols]
  simpa using hread

/-- **A description tells which class it describes.** Two expressions that rest on no predicate build
the same class exactly if the classes that they build are described alike. -/
theorem description_eq_iff_same (e f : CharExpr Empty) :
    e.build.description = f.build.description ↔ e.build == f.build := by
  constructor
  · intro h
    exact beq_of_eq (e.normal_build.eq_of_description_eq f.normal_build h)
  · intro h
    rw [eq_of_beq h]

end TextOps.CharClass
