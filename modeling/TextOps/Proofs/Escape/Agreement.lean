import TextOps.Proofs.Escape.Resolution

/-!
# `TextOps/Proofs/Escape/Agreement.lean` — octets and characters, escaped to the same text

An escaper of octets walks over the octets of a text and reads what it has written as a text again.
An escaper of characters never sees an octet. They give the same text if they agree on each single
character (`AgreesAt`): what the one writes for the octets of the character is the encoding of what the
other writes for the character, and if one of them leaves it alone so does the other. Then the octets
that are written are the encoding of a text, and reading them gives that text and nothing broken.

For an ASCII character there is one octet to look at. The octets of any other character are no ASCII
octets, so an escaper that knows ASCII units only can do two things to them: leave all of them alone,
or delete all of them. Anything else would put a replacement in for each octet.
-/

set_option autoImplicit false

namespace TextOps

/-! ## Agreement on characters -/

section Agreement

variable {f : UInt8 → Option Bytes} {g : Char → Option Text} {c : Char}

/-- On a character, a function on octets does what a function on characters does. -/
structure AgreesAt (f : UInt8 → Option Bytes) (g : Char → Option Text) (c : Char) : Prop where
  written : replaceEach f (String.utf8EncodeChar c) = Utf8.encode ((g c).getD [c])
  untouched : (∀ b ∈ String.utf8EncodeChar c, f b = none) ↔ g c = none

theorem agreesAt_of_none (hf : ∀ b ∈ String.utf8EncodeChar c, f b = none) (hg : g c = none) :
    AgreesAt f g c where
  written := by rw [replaceEach_eq_self hf, hg, Option.getD_none, Utf8.encode_singleton]
  untouched := iff_of_true hf hg

theorem agreesAt_of_deleted (hf : ∀ b ∈ String.utf8EncodeChar c, f b = some [])
    (hg : g c = some []) : AgreesAt f g c where
  written := by
    rw [hg, Option.getD_some, Utf8.encode_nil, replaceEach, List.flatMap_eq_nil_iff]
    intro b hb
    rw [hf b hb, Option.getD_some]
  untouched := by
    -- There is an octet, and it is deleted rather than left alone.
    obtain ⟨b, hb⟩ := List.exists_mem_of_ne_nil _ (String.utf8EncodeChar_ne_nil (c := c))
    refine iff_of_false (fun hnone => ?_) (by simp [hg])
    exact absurd (hnone b hb) (by simp [hf b hb])

theorem agreesAt_of_ascii (hc : c.toNat < 0x80)
    (h : f (UInt8.ofNat c.toNat) = (g c).map Utf8.encode) : AgreesAt f g c where
  written := by
    rw [Utf8.encodeChar_of_ascii hc, replaceEach_cons, h]
    cases g c with
    | none => simp [replaceEach, Utf8.encodeChar_of_ascii hc]
    | some r => simp [replaceEach]
  untouched := by simp [Utf8.encodeChar_of_ascii hc, h]

theorem replaceEach_encode (h : ∀ c, AgreesAt f g c) (s : Text) :
    replaceEach f (Utf8.encode s) = Utf8.encode (replaceEach g s) := by
  induction s with
  | nil => rfl
  | cons c s ih =>
    rw [Utf8.encode_cons, replaceEach_cons, Utf8.encode_append, ← (h c).written, ← ih]
    exact List.flatMap_append

theorem untouched_encode_iff (h : ∀ c, AgreesAt f g c) (s : Text) :
    (∀ b ∈ Utf8.encode s, f b = none) ↔ ∀ c ∈ s, g c = none := by
  constructor
  · intro hnone c hc
    exact (h c).untouched.mp fun b hb => hnone b (List.mem_flatMap.mpr ⟨c, hc, hb⟩)
  · intro hnone b hb
    obtain ⟨c, hc, hb⟩ := List.mem_flatMap.mp hb
    exact (h c).untouched.mpr (hnone c hc) b hb

/-- **Escapers that agree on every character** give the same result for every text. -/
theorem value_escape_of_agreesAt (h : ∀ c, AgreesAt f g c) (s : Text) :
    ((FunctionEscaper.mk f).escape s).value = ((FunctionEscaper.mk g).escape s).value := by
  have hwritten := replaceEach_encode h s
  have huntouched : ((Utf8.encode s).all fun b => (f b).isNone) = s.all fun c => (g c).isNone := by
    rw [Bool.eq_iff_iff, all_isNone_iff, all_isNone_iff, untouched_encode_iff h]
  have hoctets : ((FunctionEscaper.mk f).escape s).value =
      (replacedAfter f [] (Utf8.encode s)).onto s Utf8.decode :=
    congrArg (Edited.onto s Utf8.decode) (FunctionEscaper.value_escapeUnits f (Utf8.encode s))
  rw [hoctets, FunctionEscaper.value_escape, replacedAfter, replacedAfter, huntouched]
  split
  · rfl
  · -- What was written is the encoding of a text, so reading it breaks nothing.
    rw [List.nil_append, hwritten]
    exact congrArg Edited.built (Utf8.decode_encode _)

end Agreement

/-! ## Functions that know ASCII only -/

/-- The octet of an ASCII character. -/
def asciiOctet (c : Char) : UInt8 := UInt8.ofNat c.toNat

/-- A function on octets as a function on characters: an ASCII character is replaced as its octet
is, and any other is left alone. -/
def onAscii (f : UInt8 → Option Bytes) (c : Char) : Option Text :=
  if c.toNat < 0x80 then (f (asciiOctet c)).map Utf8.decode else none

theorem toNat_asciiOctet {c : Char} (hc : c.toNat < 256) : (asciiOctet c).toNat = c.toNat :=
  UInt8.toNat_ofNat_of_lt' hc

theorem asciiOctet_lt {c : Char} (hc : c.toNat < 0x80) : asciiOctet c < 0x80 := by
  rw [UInt8.lt_iff_toNat_lt, toNat_asciiOctet (by omega)]
  exact hc

theorem asciiOctet_inj {c d : Char} (hc : c.toNat < 0x80) (hd : d.toNat < 0x80) :
    asciiOctet c = asciiOctet d ↔ c = d := by
  rw [← UInt8.toNat_inj, toNat_asciiOctet (by omega), toNat_asciiOctet (by omega), Char.toNat_inj]

theorem agreesAt_onAscii {f : UInt8 → Option Bytes} (hhigh : ∀ b, 0x80 ≤ b → f b = none)
    (hvalid : ∀ b < 0x80, ∀ r, f b = some r → Utf8.Valid r) (c : Char) :
    AgreesAt f (onAscii f) c := by
  by_cases hc : c.toNat < 0x80
  · refine agreesAt_of_ascii hc ?_
    rw [onAscii, if_pos hc, ← asciiOctet]
    cases hr : f (asciiOctet c) with
    | none => rfl
    | some r =>
      have hr := (hvalid _ (asciiOctet_lt hc) r hr).encode_decode
      rw [Option.map_some, Option.map_some, hr]
  · refine agreesAt_of_none (fun b hb => hhigh b ?_) (if_neg hc)
    exact Utf8.le_of_mem_encodeChar (by omega) b hb

/-! ## Builders -/

section Builders

variable {adds : List (Char × Text)} {c : Char}

/-- Additions of ASCII characters, made for their octets. -/
def octetAdds (adds : List (Char × Text)) : List (UInt8 × Bytes) :=
  adds.map fun p => (asciiOctet p.1, Utf8.encode p.2)

theorem latest?_octetAdds (hadds : ∀ p ∈ adds, p.1.toNat < 0x80) (hc : c.toNat < 0x80) :
    latest? (octetAdds adds) (asciiOctet c) = (latest? adds c).map Utf8.encode := by
  induction adds using List.reverseRecOn with
  | nil => rfl
  | append_singleton adds p ih =>
    have hp := hadds p (by simp)
    have ih := ih fun q hq => hadds q (by simp [hq])
    have hlast : octetAdds (adds ++ [p]) =
        octetAdds adds ++ [(asciiOctet p.1, Utf8.encode p.2)] := List.map_append
    rw [hlast, latest?_append_singleton, latest?_append_singleton, ih]
    dsimp only
    by_cases hpc : p.1 = c
    · rw [if_pos hpc, if_pos (congrArg asciiOctet hpc), Option.map_some]
    · rw [if_neg hpc, if_neg (mt (asciiOctet_inj hp hc).mp hpc)]

theorem latest?_octetAdds_of_le (hadds : ∀ p ∈ adds, p.1.toNat < 0x80) {b : UInt8}
    (hb : 0x80 ≤ b) : latest? (octetAdds adds) b = none := by
  refine latest?_eq_none_iff.mpr fun q hq => ?_
  obtain ⟨p, hp, rfl⟩ := List.mem_map.mp hq
  rintro rfl
  exact absurd hb (UInt8.not_le.mpr (asciiOctet_lt (hadds p hp)))

theorem latest?_of_le (hadds : ∀ p ∈ adds, p.1.toNat < 0x80) (hc : 0x80 ≤ c.toNat) :
    latest? adds c = none := by
  refine latest?_eq_none_iff.mpr fun p hp => ?_
  rintro rfl
  exact absurd (hadds p hp) (by omega)

/-- If the bounds agree on an ASCII character, the two builders' functions do. -/
theorem resolve_octetAdds (hadds : ∀ p ∈ adds, p.1.toNat < 0x80) (hc : c.toNat < 0x80)
    {low high : Char} {low' high' : UInt8} (others : Option Text)
    (hrange : low'.toNat ≤ c.toNat ∧ c.toNat ≤ high'.toNat ↔
      low.toNat ≤ c.toNat ∧ c.toNat ≤ high.toNat) :
    resolve (octetAdds adds) low' high' (fun _ => others.map Utf8.encode) (asciiOctet c) =
      (resolve adds low high (fun _ => others) c).map Utf8.encode := by
  have hlatest := latest?_octetAdds hadds hc
  cases hlisted : latest? adds c with
  | some r =>
    rw [hlisted] at hlatest
    rw [resolve, resolve, hlatest, hlisted]
    rfl
  | none =>
    rw [hlisted] at hlatest
    have hcode : EscapeUnit.code (asciiOctet c) = c.toNat := toNat_asciiOctet (by omega)
    rw [resolve_of_not_listed hlisted, resolve_of_not_listed hlatest, hcode,
      apply_ite (Option.map Utf8.encode)]
    exact if_congr hrange rfl rfl

/-- Everything from some bound up is safe, and the bound is not behind the ASCII characters. -/
theorem agreesAt_of_safeFrom (hadds : ∀ p ∈ adds, p.1.toNat < 0x80) {m : Char}
    (hm : m.toNat ≤ 0x80) (others : Option Text) (c : Char) :
    AgreesAt
      (resolve (octetAdds adds) (asciiOctet m) EscapeUnit.greatest fun _ => others.map Utf8.encode)
      (resolve adds m EscapeUnit.greatest fun _ => others) c := by
  have hbound : (asciiOctet m).toNat = m.toNat := toNat_asciiOctet (by omega)
  by_cases hc : c.toNat < 0x80
  · refine agreesAt_of_ascii hc (resolve_octetAdds hadds hc others ?_)
    -- The upper bounds differ, but an ASCII character is below both.
    have hoctet : c.toNat ≤ 255 := by omega
    have hchar : c.toNat ≤ 0x10FFFF := by omega
    rw [hbound]
    exact and_congr_right fun _ => iff_of_true hoctet hchar
  · refine agreesAt_of_none (fun b hb => ?_) ?_
    · have hb := Utf8.le_of_mem_encodeChar (by omega) b hb
      have hsafe : (asciiOctet m).toNat ≤ b.toNat ∧ b.toNat ≤ 255 := by
        have hle : 128 ≤ b.toNat := UInt8.le_iff_toNat_le.mp hb
        have hlt := b.toNat_lt
        rw [hbound]
        omega
      rw [resolve_of_not_listed (latest?_octetAdds_of_le hadds hb)]
      exact if_pos hsafe
    · have hsafe : m.toNat ≤ c.toNat ∧ c.toNat ≤ 0x10FFFF := by
        have hvalid := Utf8.codePoint_valid c
        omega
      rw [resolve_of_not_listed (latest?_of_le hadds (by omega))]
      exact if_pos hsafe

/-- Only ASCII is safe, and what is neither listed nor safe is left alone or deleted. -/
theorem agreesAt_of_asciiRange (hadds : ∀ p ∈ adds, p.1.toNat < 0x80) {low high : Char}
    (hlow : low.toNat < 0x80) (hhigh : high.toNat < 0x80) {others : Option Text}
    (hothers : others = none ∨ others = some []) (c : Char) :
    AgreesAt
      (resolve (octetAdds adds) (asciiOctet low) (asciiOctet high) fun _ => others.map Utf8.encode)
      (resolve adds low high fun _ => others) c := by
  have hlow' : (asciiOctet low).toNat = low.toNat := toNat_asciiOctet (by omega)
  have hhigh' : (asciiOctet high).toNat = high.toNat := toNat_asciiOctet (by omega)
  by_cases hc : c.toNat < 0x80
  · refine agreesAt_of_ascii hc (resolve_octetAdds hadds hc others ?_)
    rw [hlow', hhigh']
  · have hchar : resolve adds low high (fun _ => others) c = others := by
      rw [resolve_of_not_listed (latest?_of_le hadds (by omega))]
      refine if_neg fun hsafe => hc ?_
      exact Nat.lt_of_le_of_lt hsafe.2 hhigh
    have hoctets : ∀ b ∈ String.utf8EncodeChar c,
        resolve (octetAdds adds) (asciiOctet low) (asciiOctet high)
          (fun _ => others.map Utf8.encode) b = others.map Utf8.encode := by
      intro b hb
      have hb := Utf8.le_of_mem_encodeChar (by omega) b hb
      rw [resolve_of_not_listed (latest?_octetAdds_of_le hadds hb)]
      refine if_neg fun hsafe => ?_
      have hle : 128 ≤ b.toNat := UInt8.le_iff_toNat_le.mp hb
      have hge : b.toNat ≤ high.toNat := hhigh' ▸ hsafe.2
      omega
    rcases hothers with rfl | rfl
    · exact agreesAt_of_none hoctets hchar
    · exact agreesAt_of_deleted hoctets hchar

end Builders

/-- **Octets and characters agree on ASCII configurations**: escapers by a function that leaves all
but ASCII alone and writes valid encodings, and builders with ASCII additions whose safe range
either takes in everything behind a bound, or is within ASCII while other units are left alone or
deleted. -/
theorem escape_octets_eq_characters :
    (∀ f : UInt8 → Option Bytes, (∀ b, 0x80 ≤ b → f b = none) →
      (∀ b < 0x80, ∀ r, f b = some r → Utf8.Valid r) →
      ∀ s : Text, ((FunctionEscaper.mk f).escape s).value =
        ((FunctionEscaper.mk (onAscii f)).escape s).value) ∧
    (∀ adds : List (Char × Text), (∀ p ∈ adds, p.1.toNat < 0x80) →
      (∀ (m : Char) (others : Option Text), m.toNat ≤ 0x80 →
        ∀ s : Text, ((Builder.configured (octetAdds adds) (asciiOctet m) EscapeUnit.greatest
            (others.map Utf8.encode)).build.value.escape s).value =
          ((Builder.configured adds m EscapeUnit.greatest others).build.value.escape s).value) ∧
      (∀ (low high : Char) (others : Option Text), low.toNat < 0x80 → high.toNat < 0x80 →
        others = none ∨ others = some [] →
        ∀ s : Text, ((Builder.configured (octetAdds adds) (asciiOctet low) (asciiOctet high)
            (others.map Utf8.encode)).build.value.escape s).value =
          ((Builder.configured adds low high others).build.value.escape s).value)) := by
  refine ⟨?functions, fun adds hadds => ⟨?safeFrom, ?asciiRange⟩⟩
  case functions =>
    intro f hhigh hvalid s
    exact value_escape_of_agreesAt (agreesAt_onAscii hhigh hvalid) s
  case safeFrom =>
    intro m others hm s
    rw [Builder.value_escape_configured, Builder.value_escape_configured]
    exact value_escape_of_agreesAt (agreesAt_of_safeFrom hadds hm others) s
  case asciiRange =>
    intro low high others hlow hhigh hothers s
    rw [Builder.value_escape_configured, Builder.value_escape_configured]
    exact value_escape_of_agreesAt (agreesAt_of_asciiRange hadds hlow hhigh hothers) s

/-- A replacement of two octets, a deletion that is added twice, and a range in the wrong order. -/
theorem escape_octets_eq_characters_ampersand :
    let f : UInt8 → Option Bytes := fun b => if b = 0x26 then some [0xC3, 0xA9] else none
    let adds : List (Char × Text) := [('-', ['+']), ('&', ['é']), ('-', [])]
    let s : Text := ['a', '&', '日', '-']
    (∀ b, 0x80 ≤ b → f b = none) ∧ (∀ b < 0x80, ∀ r, f b = some r → Utf8.Valid r) ∧
      (∀ p ∈ adds, p.1.toNat < 0x80) ∧
      ((FunctionEscaper.mk f).escape s).value = ((FunctionEscaper.mk (onAscii f)).escape s).value ∧
      ((Builder.configured (octetAdds adds) (asciiOctet 'b') EscapeUnit.greatest
          ((some ['?']).map Utf8.encode)).build.value.escape s).value =
        ((Builder.configured adds 'b' EscapeUnit.greatest (some ['?'])).build.value.escape s).value ∧
      ((Builder.configured (octetAdds adds) (asciiOctet 'z') (asciiOctet 'a')
          ((some []).map Utf8.encode)).build.value.escape s).value =
        ((Builder.configured adds 'z' 'a' (some [])).build.value.escape s).value := by
  intro f adds s
  have hhigh : ∀ b, 0x80 ≤ b → f b = none := by
    intro b hb
    refine if_neg ?_
    rintro rfl
    exact absurd hb (by decide)
  have hvalid : ∀ b < 0x80, ∀ r, f b = some r → Utf8.Valid r := by
    intro b _ r hr
    by_cases hb : b = 0x26
    · rw [← Option.some.inj ((if_pos hb).symm.trans hr)]
      exact ⟨['é'], by decide⟩
    · exact absurd ((if_neg hb).symm.trans hr) (by simp)
  have hadds : ∀ p ∈ adds, p.1.toNat < 0x80 := by decide
  obtain ⟨hfunctions, hbuilders⟩ := escape_octets_eq_characters
  obtain ⟨hsafeFrom, hasciiRange⟩ := hbuilders adds hadds
  exact ⟨hhigh, hvalid, hadds, hfunctions f hhigh hvalid s,
    hsafeFrom 'b' (some ['?']) (by decide) s,
    hasciiRange 'z' 'a' (some []) (by decide) (by decide) (Or.inr rfl) s⟩

end TextOps
