import TextOps.Escape.Url
import TextOps.Proofs.Escape.Percent

/-!
# `TextOps/Proofs/Escape/Url.lean` — a URL that is put together can be taken apart

A URL has delimiters on three levels: a number sign before the fragment, a question mark before the
query, and slashes, ampersands and equal signs between the parts of these. Each component is escaped
on its own and the delimiters are put in between. Whoever takes the URL apart cuts at the delimiters
first and decodes the pieces afterwards, so an escaped component must not contain a delimiter at
which it, or something that it is a part of, will be cut.

Which delimiters these are depends on the place. A fragment is cut off first and may contain
anything. A path segment must be free of number sign, question mark and slash, but it keeps
ampersands, equal signs and plus signs. A key or value must be free of number sign, ampersand and
equal sign, and it is only in them that a plus sign is a space.
-/

set_option autoImplicit false

namespace TextOps.Url

/-! ## Putting together and taking apart -/

/-- The components of a URL that are escaped one by one. -/
structure Components where
  segments : List Text
  /-- Keys and values, in order. -/
  parameters : List (Text × Text)
  fragment : Text

def writeParameter (p : Text × Text) : Text :=
  (formParameterEscaper.escape p.1).value.value ++
    '=' :: (formParameterEscaper.escape p.2).value.value

def writePath (segments : List Text) : Text :=
  ['/'].intercalate (segments.map fun s => (pathSegmentEscaper.escape s).value.value)

def writeQuery (parameters : List (Text × Text)) : Text :=
  ['&'].intercalate (parameters.map writeParameter)

/-- The URL with the given components. -/
def Components.write (u : Components) : Text :=
  (writePath u.segments ++ '?' :: writeQuery u.parameters) ++
    '#' :: (fragmentEscaper.escape u.fragment).value.value

/-- Cuts a text at the first occurrence of a delimiter, which belongs to neither part. -/
def cutFirst? (delimiter : Char) : Text → Option (Text × Text)
  | [] => none
  | c :: t =>
    if c = delimiter then some ([], t)
    else (cutFirst? delimiter t).map fun (front, back) => (c :: front, back)

def readParameter? (t : Text) : Option (Text × Text) := do
  let (key, value) ← cutFirst? '=' t
  return (← Percent.decode? true key, ← Percent.decode? true value)

/-- Takes a URL apart: at the first number sign, then at the first question mark, then at every slash
of the path and at every ampersand of the query. -/
def Components.read? (t : Text) : Option Components := do
  let (reference, fragment) ← cutFirst? '#' t
  let (path, query) ← cutFirst? '?' reference
  let segments ← (path.splitOn '/').mapM (Percent.decode? false)
  let parameters ← (query.splitOn '&').mapM readParameter?
  return ⟨segments, parameters, ← Percent.decode? false fragment⟩

/-! ## Cutting -/

theorem cutFirst?_append {d : Char} {front : Text} (h : d ∉ front) (back : Text) :
    cutFirst? d (front ++ d :: back) = some (front, back) := by
  induction front with
  | nil => exact if_pos rfl
  | cons c front ih =>
    have hc : c ≠ d := fun hcd => h (hcd ▸ List.mem_cons_self)
    rw [List.cons_append, cutFirst?, if_neg hc, ih fun hd => h (List.mem_cons_of_mem _ hd)]
    rfl

theorem mem_intercalate_singleton {c d : Char} {ts : List Text} (h : c ∈ [d].intercalate ts) :
    c = d ∨ ∃ t ∈ ts, c ∈ t := by
  induction ts with
  | nil => simp at h
  | cons t ts ih =>
    cases ts with
    | nil =>
      rw [List.intercalate_singleton] at h
      exact Or.inr ⟨t, List.mem_cons_self, h⟩
    | cons t' ts =>
      rw [List.intercalate_cons_cons, List.mem_append, List.mem_append, List.mem_singleton] at h
      rcases h with (h | h) | h
      · exact Or.inr ⟨t, List.mem_cons_self, h⟩
      · exact Or.inl h
      · rcases ih h with h | ⟨v, hv, h⟩
        · exact Or.inl h
        · exact Or.inr ⟨v, List.mem_cons_of_mem _ hv, h⟩

theorem mapM_map_eq_some {α β : Type} {write : α → β} {read? : β → Option α}
    (h : ∀ a, read? (write a) = some a) (as : List α) :
    (as.map write).mapM read? = some as := by
  induction as with
  | nil => rfl
  | cons a as ih => simp [h, ih]

/-- Parts that are joined by a delimiter are found again, if none of them contains it and each can be
read. -/
theorem mapM_splitOn_intercalate {α : Type} {write : α → Text} {read? : Text → Option α} {d : Char}
    (hread : ∀ a, read? (write a) = some a) (hd : ∀ a, d ∉ write a) {as : List α} (has : as ≠ []) :
    (([d].intercalate (as.map write)).splitOn d).mapM read? = some as := by
  have hparts : ∀ t ∈ as.map write, d ∉ t := by
    intro t ht
    obtain ⟨a, -, rfl⟩ := List.mem_map.mp ht
    exact hd a
  rw [List.splitOn_intercalate d hparts (by simpa using has), mapM_map_eq_some hread]

theorem not_mem_intercalate {α : Type} {write : α → Text} {c d : Char} (hcd : c ≠ d)
    (hc : ∀ a, c ∉ write a) (as : List α) : c ∉ [d].intercalate (as.map write) := by
  intro h
  rcases mem_intercalate_singleton h with h | ⟨t, ht, h⟩
  · exact hcd h
  · obtain ⟨a, -, rfl⟩ := List.mem_map.mp ht
    exact hc a h

/-! ## Components -/

/-- What is neither safe nor used for writing is in no escaped text. -/
theorem not_mem_escape {safe : Text} {plus : Bool} {d : Char}
    (hd : d.isAlphanum = false ∧ d ∉ safe ∧ d ≠ '%' ∧ d ≠ '+') (s : Text) :
    d ∉ ((PercentEscaper.ofSafe safe plus).escape s).value.value := by
  obtain ⟨hletter, hsafe, hpercent, hplus⟩ := hd
  intro h
  rcases PercentEscaper.mem_escape h with h | h | h | h
  · exact absurd h (Bool.eq_false_iff.mp (PercentEscaper.not_isSafe_of_not_mem hletter hsafe))
  · exact absurd h (Bool.eq_false_iff.mp hletter)
  · exact hpercent h
  · exact hplus h.1

/-- A segment contains none of the delimiters at which the path is cut, or cut off. -/
theorem not_mem_escape_pathSegment {d : Char} (hd : d ∈ ['#', '?', '/']) (s : Text) :
    d ∉ (pathSegmentEscaper.escape s).value.value := by
  simp only [List.mem_cons, List.not_mem_nil, or_false] at hd
  rcases hd with rfl | rfl | rfl
  all_goals exact not_mem_escape (by decide) s

/-- A key or value contains none of the delimiters at which the query is cut, or cut off. -/
theorem not_mem_escape_formParameter {d : Char} (hd : d ∈ ['#', '&', '=']) (s : Text) :
    d ∉ (formParameterEscaper.escape s).value.value := by
  simp only [List.mem_cons, List.not_mem_nil, or_false] at hd
  rcases hd with rfl | rfl | rfl
  all_goals exact not_mem_escape (by decide) s

theorem not_mem_writeParameter {d : Char} (hd : d ∈ ['#', '&']) (p : Text × Text) :
    d ∉ writeParameter p := by
  have hboth : d ∈ ['#', '&', '='] ∧ d ≠ '=' := by
    simp only [List.mem_cons, List.not_mem_nil, or_false] at hd
    rcases hd with rfl | rfl <;> decide
  obtain ⟨hd, heq⟩ := hboth
  intro h
  rcases List.mem_append.mp h with h | h
  · exact not_mem_escape_formParameter hd p.1 h
  · rcases List.mem_cons.mp h with h | h
    · exact heq h
    · exact not_mem_escape_formParameter hd p.2 h

theorem readParameter?_writeParameter (p : Text × Text) :
    readParameter? (writeParameter p) = some p := by
  have hdecode : ∀ s, Percent.decode? true (formParameterEscaper.escape s).value.value = some s :=
    PercentEscaper.decode?_escape (by decide) fun _ => by decide
  rw [readParameter?, writeParameter, cutFirst?_append (not_mem_escape_formParameter (by decide) _)]
  simp [hdecode]

/-- **No component can forge a delimiter.** A URL that is put together from at least one segment, at
least one parameter and a fragment is taken apart into exactly these. -/
theorem read?_write {u : Components} (hsegments : u.segments ≠ [])
    (hparameters : u.parameters ≠ []) : Components.read? u.write = some u := by
  have hreference : '#' ∉ writePath u.segments ++ '?' :: writeQuery u.parameters := by
    intro h
    rcases List.mem_append.mp h with h | h
    · exact not_mem_intercalate (by decide) (not_mem_escape_pathSegment (by decide)) _ h
    · rcases List.mem_cons.mp h with h | h
      · exact absurd h (by decide)
      · exact not_mem_intercalate (by decide) (not_mem_writeParameter (by decide)) _ h
  have hpath : '?' ∉ writePath u.segments :=
    not_mem_intercalate (by decide) (not_mem_escape_pathSegment (by decide)) _
  have hsegments : ((writePath u.segments).splitOn '/').mapM (Percent.decode? false) =
      some u.segments :=
    mapM_splitOn_intercalate (PercentEscaper.decode?_escape (by decide) (by decide))
      (not_mem_escape_pathSegment (by decide)) hsegments
  have hparameters : ((writeQuery u.parameters).splitOn '&').mapM readParameter? =
      some u.parameters :=
    mapM_splitOn_intercalate readParameter?_writeParameter (not_mem_writeParameter (by decide))
      hparameters
  have hfragment : Percent.decode? false (fragmentEscaper.escape u.fragment).value.value =
      some u.fragment := PercentEscaper.decode?_escape (by decide) (by decide) _
  simp only [Components.read?, Components.write, cutFirst?_append hreference,
    cutFirst?_append hpath, hsegments, hparameters, hfragment, Option.bind_eq_bind,
    Option.bind_some]
  rfl

/-- Every delimiter in every place, a parameter without a key, and an empty segment. -/
theorem read?_write_delimiters :
    let text : Text := ['/', '?', '#', '&', '=', '+', ' ', '%', '日']
    let u : Components := ⟨[text, []], [(text, text), ([], text)], text⟩
    u.segments ≠ [] ∧ u.parameters ≠ [] ∧ Components.read? u.write = some u :=
  ⟨by simp, by simp, read?_write (by simp) (by simp)⟩

end TextOps.Url
