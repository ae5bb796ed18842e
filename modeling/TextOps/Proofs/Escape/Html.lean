import TextOps.Escape.Html
import TextOps.Proofs.Escape.Markup

/-!
# `TextOps/Proofs/Escape/Html.lean` — escaped HTML reads as the text that was escaped

The escaper for HTML lists five characters with their entities and takes every other one for safe.
So what replaces a character is the entity that is listed for it (`replace_escaper`), and escaping is
writing in the sense of `Markup.Writes`. The text may contain what looks like an entity, or a lone
ampersand; each ampersand of it becomes an entity, and resolving gives the ampersand back.
-/

set_option autoImplicit false

namespace TextOps.Html

theorem replace_escaper : escaper.replace = latest? entities := by
  have hbuilder : builder = { Builder.new with
      mappings := entities.foldl (fun m p => m.add p.1 p.2) .empty } :=
    Builder.foldl_add entities Builder.new
  have hreplace : escaper.replace =
      resolve builder.mappings.pairs builder.low builder.high fun _ => builder.otherwise :=
    builder.replace_buildWith fun _ => builder.otherwise
  funext c
  rw [hreplace, hbuilder, resolve_foldl_add]
  -- Nothing is listed before, and what is not listed stays, safe or not.
  have hrest : resolve (Mappings.empty : Mappings Char).pairs Builder.new.low Builder.new.high
      (fun _ => none) c = none := (resolve_of_not_listed rfl).trans (ite_self none)
  exact (congrArg (latest? entities c).or hrest).trans Option.or_none

theorem wellFormed_entities : Markup.WellFormed entities where
  ampersand := by decide
  opens := by decide
  prefixFree := by decide

theorem value_value_escape (s : Text) :
    (escaper.escape s).value.value = s.flatMap fun c => (latest? entities c).getD [c] := by
  rw [RangeEscaper.value_value_escape, replace_escaper, replaceEach]

theorem not_mem_escape {d : Char} (hd : d ∈ entities.map Prod.fst) (hne : d ≠ '&') (s : Text) :
    d ∉ (escaper.escape s).value.value := by
  rw [value_value_escape]
  exact Markup.not_mem_flatMap wellFormed_entities (Markup.writes_latest? _) hd hne s

theorem ampersandsRefer_escape (s : Text) :
    Markup.AmpersandsRefer entities (escaper.escape s).value.value := by
  rw [value_value_escape]
  exact Markup.ampersandsRefer_flatMap wellFormed_entities (Markup.writes_latest? _) s

theorem unescape_escape (s : Text) :
    Markup.unescape entities (escaper.escape s).value.value = s := by
  rw [value_value_escape, Markup.unescape_flatMap wellFormed_entities (Markup.writes_latest? _)]
  exact List.map_id s

/-- **Escaping for HTML is safe and can be undone.** An escaped text has no quotation mark, no
apostrophe and no angle bracket, every ampersand in it begins one of the five entities, and resolving
these gives the text that was escaped. So no two texts are escaped alike. -/
theorem escape_reversible :
    (∀ s : Text,
      let t := (escaper.escape s).value.value
      ('\x22' ∉ t ∧ '\x27' ∉ t ∧ '<' ∉ t ∧ '>' ∉ t) ∧
        Markup.AmpersandsRefer entities t ∧ Markup.unescape entities t = s) ∧
    Function.Injective fun s => (escaper.escape s).value.value := by
  constructor
  · intro s t
    refine ⟨⟨?_, ?_, ?_, ?_⟩, ampersandsRefer_escape s, unescape_escape s⟩
    all_goals exact not_mem_escape (by decide) (by decide) s
  · intro s t hst
    calc s = Markup.unescape entities (escaper.escape s).value.value := (unescape_escape s).symm
      _ = Markup.unescape entities (escaper.escape t).value.value :=
        congrArg (Markup.unescape entities) hst
      _ = t := unescape_escape t

/-- What looks like an entity is resolved once, and a lone ampersand not at all. -/
example : Markup.unescape entities "&amp;lt;&#39;&".toList = "&lt;'&".toList := by decide

end TextOps.Html
