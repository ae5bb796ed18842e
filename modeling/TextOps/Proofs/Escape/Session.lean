import TextOps.Proofs.Escape.Percent.Configuration
import TextOps.Proofs.Escape.Scan

/-!
# `TextOps/Proofs/Escape/Session.lean` — a session is the making of an escaper and then its calls

A caller from outside makes an escaper and asks it one question after the other (`session`). Escapers
keep nothing from one call to the next, so each answer is the one that the call has by itself, and
what is reported is the report on the making followed by the reports on the calls. If no escaper is
made, there are no calls.

For percent escapers a session can be told from its events: it warns exactly if the configuration was
refused, and then the warning is all that there is.
-/

set_option autoImplicit false

namespace TextOps

variable {U : Type}

/-! ## Calls -/

theorem value_replies {reply : Request U → Logged (Reply U)} (qs : List (Request U)) :
    (replies reply qs).value = qs.map fun q => (reply q).value := by
  induction qs with
  | nil => rfl
  | cons q qs ih =>
    rw [replies, Logged.value_bind, Logged.value_bind, Logged.value_pure, ih, List.map_cons]

theorem replies_append {reply : Request U → Logged (Reply U)} (qs qs' : List (Request U)) :
    replies reply (qs ++ qs') = (do
      let front ← replies reply qs
      return front ++ (← replies reply qs')) := by
  apply Logged.ext
  · rw [Logged.value_bind, Logged.value_bind, Logged.value_pure, value_replies, value_replies,
      value_replies, List.map_append]
  · rw [Logged.events_bind, Logged.events_bind, Logged.events_pure, events_replies, events_replies,
      events_replies, List.append_nil, List.flatMap_append]

/-! ## Sessions -/

section Sessions

variable {ε E : Type} {make : Logged (Except ε E)} {reply : E → Request U → Logged (Reply U)}

/-- **A session with an escaper**: its answers are those of the calls, and its events are those of
the making and then those of the calls. -/
theorem session_of_ok {e : E} (h : make.value = .ok e) (qs : List (Request U)) :
    session make reply qs =
      ⟨.ok (qs.map fun q => (reply e q).value),
        make.events ++ qs.flatMap fun q => (reply e q).events⟩ := by
  apply Logged.ext
  · rw [session, Logged.value_bind, h]
    exact congrArg Except.ok (value_replies qs)
  · rw [session, Logged.events_bind, h]
    refine congrArg (make.events ++ ·) ?_
    exact (Logged.events_map _ _).trans (events_replies qs)

/-- **A session without an escaper** ends with the reason, before any call. -/
theorem session_of_error {err : ε} (h : make.value = .error err) (qs : List (Request U)) :
    session make reply qs = ⟨.error err, make.events⟩ := by
  apply Logged.ext
  · rw [session, Logged.value_bind, h]
    rfl
  · rw [session, Logged.events_bind, h]
    exact List.append_nil _

end Sessions

/-! ## Sessions with a percent escaper -/

theorem level_of_mem_slowPathEvents [EscapeUnit U] {stops : U → Bool} {us : List U} {e : Event}
    (h : e ∈ slowPathEvents stops us) : e.level = .trace := by
  unfold slowPathEvents at h
  split at h
  · rw [List.mem_singleton.mp h]
    rfl
  · exact absurd h List.not_mem_nil

namespace PercentEscaper

variable {safe : Text} {plus : Bool}

theorem level_of_mem_events {q : Request Char} {e : Event}
    (h : e ∈ (CharEscaper.Origin.percent safe plus).events q) : e.level = .trace := by
  cases q with
  | escape s => exact level_of_mem_slowPathEvents h
  | escapeUnit | escapeUnits | escapeSlow | isSafe | table | describe =>
    exact absurd h List.not_mem_nil

/-- A refusal is a fault, and one warning is all that is reported. -/
theorem session_insist_of_error {err : ConfigError} (h : (make safe plus).value = .error err)
    (qs : List (Request Char)) :
    session (insist safe plus) reply qs =
      ⟨.error (.refused err), [report safe plus (.error err)]⟩ := by
  have hinsist : (insist safe plus).value = .error (.refused err) :=
    insist_eq_error_iff.mpr ⟨err, h, rfl⟩
  rw [session_of_error hinsist, events_insist, events_make, h]

theorem session_insist_of_ok {e : PercentEscaper} (h : (make safe plus).value = .ok e)
    (qs : List (Request Char)) :
    session (insist safe plus) reply qs =
      ⟨.ok (qs.map fun q => (e.reply q).value),
        .buildingPercent safe plus ::
          qs.flatMap (CharEscaper.Origin.percent safe plus).events⟩ := by
  have hcalls : (fun q => (e.reply q).events) = (CharEscaper.Origin.percent safe plus).events := by
    funext q
    obtain rfl := eq_ofSafe_of_make h
    exact (CharEscaper.Origin.percent safe plus).events_reply q
  rw [session_of_ok (insist_eq_ok_iff.mpr h), events_insist, events_make, h, hcalls]
  rfl

/-- **A session warns exactly if its configuration is refused**, whatever is asked in it. -/
theorem session_warns_iff (qs : List (Request Char)) :
    (∃ e ∈ (session (insist safe plus) reply qs).events, e.level = .warn) ↔
      ∃ fault, (session (insist safe plus) reply qs).value = .error fault := by
  cases h : (make safe plus).value with
  | error err =>
    rw [session_insist_of_error h]
    refine iff_of_true ?_ ⟨_, rfl⟩
    exact ⟨_, List.mem_singleton_self _, level_report_eq_warn_iff.mpr ⟨err, rfl⟩⟩
  | ok e =>
    rw [session_insist_of_ok h]
    refine iff_of_false ?_ nofun
    rintro ⟨event, hmem, hlevel⟩
    rcases List.mem_cons.mp hmem with rfl | hmem
    · exact nomatch hlevel
    · obtain ⟨q, -, hq⟩ := List.mem_flatMap.mp hmem
      exact nomatch (level_of_mem_events hq).symm.trans hlevel

end PercentEscaper

end TextOps
