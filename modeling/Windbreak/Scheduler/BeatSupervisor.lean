import Mathlib.Data.Rat.Defs
import Windbreak.Core.Alarms
import Windbreak.Core.OrderedDict
import Windbreak.Core.Runs

/-!
# Beats that fail

`BeatSupervisor.observe` runs one beat's hook.  What the hook did decides which conditions the beat
could observe, and each condition keeps its own count of the beats that found it gone.

* **One beat** — `observe_active`: each condition's count takes one look at the beat;
  `mem_escalations_iff`: an alert is a condition that is present and was not being counted.
* **A run of beats** — `active_supervised`, `escalatingBeats_supervised`: the counts, from the
  beats alone.
* **`alerts_once_per_episode`** — a beat pages for a condition it observes when the condition has
  rearmed, and every observed condition was paged since it last rearmed.
-/

namespace Windbreak.Beats

open Alarms Machine

/-- `MODE_RESEARCH` -/
def modeResearch : String := "RESEARCH"

/-- `MODE_TICK_FAILED` -/
def modeTickFailed : String := "TICK_FAILED"

/-- `_ESCALATION_BEAT_FAILED` -/
def escalationBeatFailed : String := "beat-failed"

/-- `_ESCALATION_KERNEL_HALT` -/
def escalationKernelHalt : String := "kernel-halt"

/-- `_ESCALATION_CLEAR_RUN_BEATS` -/
def escalationClearRunBeats : ℕ := 3

/-- `_MAX_ESCALATION_BACKOFF_DOUBLINGS` -/
def maxEscalationBackoffDoublings : ℕ := 4

/-- What a hook that returns reports. -/
structure BeatReport where
  mode : String
  halted : Bool
  researchHalted : Bool
  deriving DecidableEq, Repr

/-- An exception, by the name of its type and its text. -/
structure RaisedError where
  typeName : String
  text : String
  deriving DecidableEq, Repr

/-- What the hook of a beat did. -/
inductive BeatOutcome
  | raised (exc : RaisedError)
  | nothing
  | reported (report : BeatReport)
  deriving DecidableEq, Repr

/-- A beat: its sequence number and what its hook did. -/
structure Beat where
  seq : ℕ
  outcome : BeatOutcome
  deriving DecidableEq, Repr

/-- What a beat makes the supervisor do, in order. `alert` is a dispatch of `HALT_KILL`; the
dispatcher and the mode writer swallow their own failures. -/
inductive Action
  | warning (component message : String)
  | critical (component message : String) (exc : Option RaisedError)
  | alert (message : String)
  | recordMode (seq : ℕ) (mode : String)
  deriving DecidableEq, Repr

/-- The supervisor: the conditions escalated now, each with the beats that have since observed it
gone, and the beats in a row that escalated. -/
structure BeatSupervisor where
  component : String
  hasModeWriter : Bool
  active : OrderedDict String ℕ
  escalatingBeats : ℕ

namespace BeatSupervisor

/-- `__init__` -/
def new (component : String) (hasModeWriter : Bool) : BeatSupervisor :=
  ⟨component, hasModeWriter, .empty, 0⟩

/-- `_clear` -/
def clear (s : BeatSupervisor) (kind : String) : BeatSupervisor :=
  match s.active.get? kind with
  | none => s
  | some streak =>
    if escalationClearRunBeats ≤ streak + 1 then { s with active := s.active.pop kind }
    else { s with active := s.active.set kind (streak + 1) }

/-- `_escalate` -/
def escalate (s : BeatSupervisor) (kind message : String) (exc : Option RaisedError) :
    List Action × BeatSupervisor :=
  (.critical s.component message exc ::
      if (s.active.get? kind).isNone then [.alert message] else [],
    { s with active := s.active.set kind 0 })

/-- The loop of `_settle` over what the beat observed. -/
def settleEach (exc : Option RaisedError) :
    List (String × Option String) → BeatSupervisor → List Action × BeatSupervisor
  | [], s => ([], s)
  | (kind, none) :: observed, s => settleEach exc observed (s.clear kind)
  | (kind, some message) :: observed, s =>
    let escalated := s.escalate kind message exc
    let settled := settleEach exc observed escalated.2
    (escalated.1 ++ settled.1, settled.2)

/-- `_settle` -/
def settle (s : BeatSupervisor) (observed : OrderedDict String (Option String))
    (exc : Option RaisedError) : List Action × BeatSupervisor :=
  settleEach exc observed.items
    { s with
      escalatingBeats := if observed.values.any Option.isSome then s.escalatingBeats + 1 else 0 }

/-- `wait_seconds`. Floats multiply by a power of two exactly. -/
def waitSeconds (s : BeatSupervisor) (intervalSeconds : ℚ) : ℚ :=
  intervalSeconds * 2 ^ min s.escalatingBeats maxEscalationBackoffDoublings

end BeatSupervisor

/-- The message of a beat whose hook raised. -/
def beatFailedMessage (seq : ℕ) (exc : RaisedError) : String :=
  "beat seq=" ++ toString seq ++ " failed: " ++ exc.typeName ++ ": " ++ exc.text

/-- The message of a beat that reports a halted kernel. -/
def kernelHaltMessage (seq : ℕ) (report : BeatReport) : Option String :=
  if report.halted then
    some ("risk kernel HALT at beat seq=" ++ toString seq ++ " (mode=" ++ report.mode ++ ")")
  else none

/-- The two conditions differ. -/
theorem kinds_nodup (failed halted : Option String) :
    ([(escalationBeatFailed, failed), (escalationKernelHalt, halted)].map Prod.fst).Nodup := by
  have hkinds : [escalationBeatFailed, escalationKernelHalt].Nodup := by decide
  exact hkinds

/-- The conditions a beat could observe, each with its message when it is present. -/
def observed (beat : Beat) : OrderedDict String (Option String) :=
  match beat.outcome with
  | .raised exc =>
    ⟨[(escalationBeatFailed, some (beatFailedMessage beat.seq exc))], List.nodup_singleton _⟩
  | .nothing => ⟨[(escalationBeatFailed, none)], List.nodup_singleton _⟩
  | .reported report =>
    ⟨[(escalationBeatFailed, none), (escalationKernelHalt, kernelHaltMessage beat.seq report)],
      kinds_nodup _ _⟩

/-- The warning of a beat whose research is halted. -/
def researchWarning (component : String) (beat : Beat) : List Action :=
  match beat.outcome with
  | .reported report =>
    if report.researchHalted then
      [.warning component ("research budget halted at beat seq=" ++ toString beat.seq ++
        " (mode=" ++ report.mode ++ ")")]
    else []
  | _ => []

/-- The exception a beat logs with its message. -/
def raisedError (beat : Beat) : Option RaisedError :=
  match beat.outcome with
  | .raised exc => some exc
  | _ => none

/-- The mode a beat's heartbeat reports. -/
def beatMode (beat : Beat) : String :=
  match beat.outcome with
  | .raised _ => modeTickFailed
  | .nothing => modeResearch
  | .reported report => report.mode

/-- The row that a failed beat ledgers. -/
def modeRow (s : BeatSupervisor) (beat : Beat) : List Action :=
  match beat.outcome with
  | .raised _ => if s.hasModeWriter then [.recordMode beat.seq modeTickFailed] else []
  | _ => []

/-- `observe` -/
def observe (s : BeatSupervisor) (beat : Beat) : (String × List Action) × BeatSupervisor :=
  let settled := s.settle (observed beat) (raisedError beat)
  ((beatMode beat, researchWarning s.component beat ++ settled.1 ++ modeRow s beat), settled.2)

/-! ## What one beat does -/

/-- The messages of the alerts among the actions. -/
def paged (actions : List Action) : List String :=
  actions.filterMap fun action =>
    match action with
    | .alert message => some message
    | _ => none

/-- What an entry of the observed conditions says. -/
def found : Option (Option String) → Sighting
  | none => .unobserved
  | some none => .absent
  | some (some _) => .present

/-- What a beat finds of a condition. -/
def sighting (kind : String) (beat : Beat) : Sighting := found ((observed beat).get? kind)

/-- A beat that observes some condition. -/
def escalates (beat : Beat) : Bool := (observed beat).values.any Option.isSome

/-- The message of a condition that is present and was not escalated. -/
def newly (s : BeatSupervisor) (entry : String × Option String) : Option String :=
  if (s.active.get? entry.1).isNone then entry.2 else none

section

open BeatSupervisor

variable {s : BeatSupervisor} {exc : Option RaisedError}

theorem clear_active (kind j : String) : (s.clear kind).active.get? j =
    if j = kind then look escalationClearRunBeats (s.active.get? kind) .absent
    else s.active.get? j := by
  unfold clear
  cases hstreak : s.active.get? kind with
  | none =>
      by_cases hj : j = kind
      · rw [if_pos hj, hj]
        exact hstreak
      · rw [if_neg hj]
  | some streak =>
      rw [look_absent]
      by_cases hfull : escalationClearRunBeats ≤ streak + 1
      · simp only [if_pos hfull, OrderedDict.get?_pop]
      · simp only [if_neg hfull, OrderedDict.get?_set]

theorem escalate_active (kind message j : String) :
    (s.escalate kind message exc).2.active.get? j =
      if j = kind then look escalationClearRunBeats (s.active.get? kind) .present
      else s.active.get? j := by
  have hlook : look escalationClearRunBeats (s.active.get? kind) .present = some 0 := by
    cases s.active.get? kind <;> rfl
  rw [hlook]
  exact OrderedDict.get?_set s.active kind j 0

/-- **Each condition's count takes one look at the beat.** -/
theorem settleEach_active (j : String) {ps : List (String × Option String)}
    (h : (ps.map Prod.fst).Nodup) :
    (settleEach exc ps s).2.active.get? j =
      look escalationClearRunBeats (s.active.get? j) (found (ps.lookup j)) := by
  induction ps generalizing s with
  | nil => exact (look_unobserved _).symm
  | cons p ps ih =>
      obtain ⟨kind, message⟩ := p
      have hfresh := (List.nodup_cons.mp h).1
      have hrest := (List.nodup_cons.mp h).2
      by_cases hj : j = kind
      · have hnone : ps.lookup j = none := by
          rw [List.lookup_eq_none_iff]
          intro p hp
          rw [bne_iff_ne, hj]
          exact fun heq => hfresh (List.mem_map.mpr ⟨p, hp, heq.symm⟩)
        have hself : ((kind, message) :: ps).lookup j = some message := by
          rw [hj, List.lookup_cons_self]
        rw [hself]
        cases message with
        | none =>
            rw [settleEach, ih hrest, hnone, clear_active, if_pos hj, hj]
            exact look_unobserved _
        | some message =>
            rw [settleEach]
            rw [ih hrest, hnone, escalate_active, if_pos hj, hj]
            exact look_unobserved _
      · have hother : ((kind, message) :: ps).lookup j = ps.lookup j := by
          rw [List.lookup_cons, beq_false_of_ne hj]
        rw [hother]
        cases message with
        | none => rw [settleEach, ih hrest, clear_active, if_neg hj]
        | some message =>
            rw [settleEach]
            rw [ih hrest, escalate_active, if_neg hj]

theorem clear_escalatingBeats (kind : String) :
    (s.clear kind).escalatingBeats = s.escalatingBeats := by
  unfold clear
  cases s.active.get? kind with
  | none => rfl
  | some streak => dsimp only; split <;> rfl

theorem settleEach_escalatingBeats (ps : List (String × Option String)) :
    (settleEach exc ps s).2.escalatingBeats = s.escalatingBeats := by
  induction ps generalizing s with
  | nil => rfl
  | cons p ps ih =>
      obtain ⟨kind, _ | message⟩ := p
      · rw [settleEach, ih, clear_escalatingBeats]
      · exact ih

theorem paged_append (xs ys : List Action) : paged (xs ++ ys) = paged xs ++ paged ys :=
  List.filterMap_append

/-- Conditions other than the one just settled are as new as before. -/
theorem newly_congr {s' : BeatSupervisor} {kind : String} {ps : List (String × Option String)}
    (hfresh : kind ∉ ps.map Prod.fst) (hsame : ∀ j ≠ kind, s'.active.get? j = s.active.get? j) :
    ps.filterMap (newly s') = ps.filterMap (newly s) := by
  refine List.filterMap_congr fun p hp => ?_
  have hne : p.1 ≠ kind := fun heq => hfresh (heq ▸ List.mem_map_of_mem hp)
  rw [newly, newly, hsame p.1 hne]

/-- **The alerts of a beat** are the conditions it observes that were not escalated. -/
theorem paged_settleEach {ps : List (String × Option String)} (h : (ps.map Prod.fst).Nodup) :
    paged (settleEach exc ps s).1 = ps.filterMap (newly s) := by
  induction ps generalizing s with
  | nil => rfl
  | cons p ps ih =>
      obtain ⟨kind, message⟩ := p
      have hfresh := (List.nodup_cons.mp h).1
      have hrest := (List.nodup_cons.mp h).2
      cases message with
      | none =>
          have hnew : newly s (kind, none) = none := by
            unfold newly
            split <;> rfl
          rw [settleEach, ih hrest, List.filterMap_cons_none hnew]
          exact newly_congr hfresh fun j hj => by rw [clear_active, if_neg hj]
      | some message =>
          have hothers : ps.filterMap (newly (s.escalate kind message exc).2) =
              ps.filterMap (newly s) :=
            newly_congr hfresh fun j hj => by rw [escalate_active, if_neg hj]
          rw [settleEach]
          rw [paged_append, ih hrest, hothers]
          cases hactive : s.active.get? kind with
          | none =>
              have hnew : newly s (kind, some message) = some message := by
                rw [newly, hactive]
                rfl
              rw [List.filterMap_cons_some hnew, escalate, hactive]
              rfl
          | some streak =>
              have hnew : newly s (kind, some message) = none := by
                rw [newly, hactive]
                rfl
              rw [List.filterMap_cons_none hnew, escalate, hactive]
              rfl

/-- Neither the warning nor the row of a failed beat is an alert. -/
theorem paged_observe (s : BeatSupervisor) (beat : Beat) :
    paged (observe s beat).1.2 = (observed beat).items.filterMap (newly s) := by
  have hwarning : paged (researchWarning s.component beat) = [] := by
    unfold researchWarning
    cases beat.outcome with
    | raised exc => rfl
    | nothing => rfl
    | reported report => dsimp only; split <;> rfl
  have hrow : paged (modeRow s beat) = [] := by
    unfold modeRow
    cases beat.outcome with
    | raised exc => cases s.hasModeWriter <;> rfl
    | nothing => rfl
    | reported report => rfl
  unfold observe
  rw [paged_append, paged_append, hwarning, hrow, List.nil_append, List.append_nil]
  exact paged_settleEach (observed beat).nodup

/-- A beat observes at most one condition. -/
theorem length_paged_observe_le (s : BeatSupervisor) (beat : Beat) :
    (paged (observe s beat).1.2).length ≤ 1 := by
  have hnone : ∀ kind, newly s (kind, none) = none := by
    intro kind
    unfold newly
    split <;> rfl
  rw [paged_observe]
  obtain ⟨seq, outcome⟩ := beat
  cases outcome with
  | raised exc => exact List.length_filterMap_le _ _
  | nothing => exact List.length_filterMap_le _ _
  | reported report =>
      unfold observed
      rw [List.filterMap_cons_none (hnone _)]
      exact List.length_filterMap_le _ _

theorem observe_active (s : BeatSupervisor) (beat : Beat) (kind : String) :
    (observe s beat).2.active.get? kind =
      look escalationClearRunBeats (s.active.get? kind) (sighting kind beat) :=
  settleEach_active kind (observed beat).nodup

theorem observe_escalatingBeats (s : BeatSupervisor) (beat : Beat) :
    (observe s beat).2.escalatingBeats =
      if escalates beat then s.escalatingBeats + 1 else 0 :=
  settleEach_escalatingBeats _

/-- **A beat that raised** is no evidence about the kernel. -/
theorem observe_raised_kernelHalt (s : BeatSupervisor) (seq : ℕ) (exc : RaisedError) :
    (observe s ⟨seq, .raised exc⟩).2.active.get? escalationKernelHalt =
      s.active.get? escalationKernelHalt := by
  have hunobserved : sighting escalationKernelHalt ⟨seq, .raised exc⟩ = .unobserved := by
    have hkind : (escalationKernelHalt == escalationBeatFailed) = false := by decide
    unfold sighting observed OrderedDict.get?
    rw [List.lookup_cons, hkind]
    rfl
  rw [observe_active, hunobserved, look_unobserved]

end

/-! ## A run of beats -/

/-- The supervisor after some beats. -/
def supervised (component : String) (hasModeWriter : Bool) (history : List Beat) :
    BeatSupervisor :=
  run observe (.new component hasModeWriter) history

/-- What a run of beats has found of a condition. -/
def sightings (kind : String) (history : List Beat) : List Sighting :=
  history.map (sighting kind)

/-- The beats in a row, up to the last, that observed some condition. -/
def escalatingRun (history : List Beat) : ℕ := (history.reverse.takeWhile escalates).length

variable {component : String} {hasModeWriter : Bool}

theorem supervised_concat (history : List Beat) (beat : Beat) :
    supervised component hasModeWriter (history ++ [beat]) =
      (observe (supervised component hasModeWriter history) beat).2 :=
  run_append ..

theorem sightings_concat (kind : String) (history : List Beat) (beat : Beat) :
    sightings kind (history ++ [beat]) = sightings kind history ++ [sighting kind beat] :=
  List.map_append ..

/-- **The counts, from the beats alone.** -/
theorem active_supervised (history : List Beat) (kind : String) :
    (supervised component hasModeWriter history).active.get? kind =
      raised escalationClearRunBeats (sightings kind history) := by
  induction history using List.reverseRecOn with
  | nil => rfl
  | append_singleton history beat ih =>
      rw [supervised_concat, observe_active, ih, sightings_concat, raised_concat]

theorem escalatingBeats_supervised (history : List Beat) :
    (supervised component hasModeWriter history).escalatingBeats = escalatingRun history := by
  induction history using List.reverseRecOn with
  | nil => rfl
  | append_singleton history beat ih =>
      rw [supervised_concat, observe_escalatingBeats, ih]
      unfold escalatingRun
      rw [List.reverse_concat, List.takeWhile_cons]
      by_cases hbeat : escalates beat
      · rw [if_pos hbeat, if_pos hbeat, List.length_cons]
      · rw [if_neg hbeat, if_neg hbeat, List.length_nil]

/-- The beat after a history pages for a condition. -/
def Pages (component : String) (hasModeWriter : Bool) (history : List Beat) (beat : Beat)
    (kind : String) : Prop :=
  ∃ message, (kind, some message) ∈ (observed beat).items ∧
    message ∈ paged (observe (supervised component hasModeWriter history) beat).1.2

/-- The condition is due for a page: it was never present, or enough beats that could observe it
have found it gone since it last was. -/
def Due (kind : String) (history : List Beat) : Prop :=
  Rearmed escalationClearRunBeats (sightings kind history)

theorem clearRun_pos : 0 < escalationClearRunBeats := by decide

/-- A condition is not escalated exactly when it is due. -/
theorem active_eq_none_iff (history : List Beat) (kind : String) :
    (supervised component hasModeWriter history).active.get? kind = none ↔ Due kind history := by
  rw [active_supervised]
  exact raised_eq_none_iff clearRun_pos _

theorem sighting_eq_present_iff {kind : String} {beat : Beat} :
    sighting kind beat = .present ↔ ∃ message, (kind, some message) ∈ (observed beat).items := by
  unfold sighting
  constructor
  · intro h
    cases hentry : (observed beat).get? kind with
    | none =>
        rw [hentry] at h
        cases h
    | some entry =>
        cases entry with
        | none =>
            rw [hentry] at h
            cases h
        | some message => exact ⟨message, OrderedDict.mem_items_iff.mpr hentry⟩
  · rintro ⟨message, hmem⟩
    rw [OrderedDict.mem_items_iff.mp hmem]
    rfl

/-- A beat observes one condition at the most. -/
theorem present_unique {beat : Beat} {kind kind' message message' : String}
    (h : (kind, some message) ∈ (observed beat).items)
    (h' : (kind', some message') ∈ (observed beat).items) : kind = kind' := by
  obtain ⟨seq, outcome⟩ := beat
  cases outcome with
  | raised exc => rw [(Prod.mk.inj (List.mem_singleton.mp h)).1,
      (Prod.mk.inj (List.mem_singleton.mp h')).1]
  | nothing => cases (Prod.mk.inj (List.mem_singleton.mp h)).2
  | reported report =>
      rcases List.mem_cons.mp h with h | h
      · cases (Prod.mk.inj h).2
      · rcases List.mem_cons.mp h' with h' | h'
        · cases (Prod.mk.inj h').2
        · rw [(Prod.mk.inj (List.mem_singleton.mp h)).1, (Prod.mk.inj (List.mem_singleton.mp h')).1]

/-- **The alerts of the beat after a history** are the conditions that it observes and that are due. -/
theorem mem_paged_iff (history : List Beat) (beat : Beat) (message : String) :
    message ∈ paged (observe (supervised component hasModeWriter history) beat).1.2 ↔
      ∃ kind, (kind, some message) ∈ (observed beat).items ∧ Due kind history := by
  rw [paged_observe, List.mem_filterMap]
  constructor
  · rintro ⟨⟨kind, entry⟩, hmem, hnew⟩
    unfold newly at hnew
    by_cases hactive :
        ((supervised component hasModeWriter history).active.get? kind).isNone
    · rw [if_pos hactive] at hnew
      dsimp only at hnew
      rw [hnew] at hmem
      exact ⟨kind, hmem, (active_eq_none_iff history kind).mp (Option.isNone_iff_eq_none.mp hactive)⟩
    · rw [if_neg hactive] at hnew
      cases hnew
  · rintro ⟨kind, hmem, hdue⟩
    refine ⟨(kind, some message), hmem, ?_⟩
    rw [newly, (active_eq_none_iff history kind).mpr hdue]
    rfl

theorem pages_iff (history : List Beat) (beat : Beat) (kind : String) :
    Pages component hasModeWriter history beat kind ↔
      sighting kind beat = .present ∧ Due kind history := by
  rw [sighting_eq_present_iff]
  constructor
  · rintro ⟨message, hmem, hpaged⟩
    obtain ⟨kind', hmem', hdue⟩ := (mem_paged_iff history beat message).mp hpaged
    rw [present_unique hmem' hmem] at hdue
    exact ⟨⟨message, hmem⟩, hdue⟩
  · rintro ⟨⟨message, hmem⟩, hdue⟩
    exact ⟨message, hmem, (mem_paged_iff history beat message).mpr ⟨kind, hmem, hdue⟩⟩

/-- **Every observed condition was paged** since it last rearmed. -/
theorem exists_pages {history : List Beat} {kind : String} (h : ¬ Due kind history) :
    ∃ before beat after, history = before ++ beat :: after ∧
      Pages component hasModeWriter before beat kind ∧
      ∀ since, since <+: after → ¬ Due kind (before ++ beat :: since) := by
  obtain ⟨before', after', hsplit, harmed, hsince⟩ := exists_page h
  obtain ⟨before, rest, rfl, rfl, hrest⟩ := List.map_eq_append_iff.mp hsplit
  obtain ⟨beat, after, rfl, hbeat, rfl⟩ := List.map_eq_cons_iff.mp hrest
  refine ⟨before, beat, after, rfl, (pages_iff before beat kind).mpr ⟨hbeat, harmed⟩, ?_⟩
  intro since hstart
  have hnot := hsince (since.map (sighting kind)) (hstart.map _)
  rw [← hbeat, ← List.map_cons, ← List.map_append] at hnot
  exact hnot

/-- A condition observed by the last beat is not due. -/
theorem not_due_of_present {history : List Beat} {beat : Beat} {kind : String}
    (h : sighting kind beat = .present) : ¬ Due kind (history ++ [beat]) := by
  intro hdue
  have hcount := hdue (sightings kind history) [] (by rw [sightings_concat, h]) List.not_mem_nil
  exact absurd hcount (by decide)

/-- **A failing beat pages once and never goes quiet.** -/
theorem alerts_once_per_episode (component : String) (hasModeWriter : Bool) (history : List Beat)
    (beat : Beat) :
    (∀ kind, Pages component hasModeWriter history beat kind ↔
      sighting kind beat = .present ∧ Due kind history) ∧
    (∀ message ∈ paged (observe (supervised component hasModeWriter history) beat).1.2,
      ∃ kind, (kind, some message) ∈ (observed beat).items ∧
        Pages component hasModeWriter history beat kind) ∧
    (paged (observe (supervised component hasModeWriter history) beat).1.2).length ≤ 1 ∧
    (∀ kind, sighting kind beat = .present →
      ∃ before page after, history ++ [beat] = before ++ page :: after ∧
        Pages component hasModeWriter before page kind ∧
        ∀ since, since <+: after → ¬ Due kind (before ++ page :: since)) ∧
    (∀ seq exc,
      (observe (supervised component hasModeWriter history) ⟨seq, .raised exc⟩).2.active.get?
          escalationKernelHalt =
        (supervised component hasModeWriter history).active.get? escalationKernelHalt) ∧
    ∀ intervalSeconds : ℚ,
      (supervised component hasModeWriter history).waitSeconds intervalSeconds =
        intervalSeconds * 2 ^ min (escalatingRun history) maxEscalationBackoffDoublings := by
  refine ⟨pages_iff history beat, ?_, length_paged_observe_le _ _, ?_, ?_, ?_⟩
  · intro message hpaged
    obtain ⟨kind, hmem, hdue⟩ := (mem_paged_iff history beat message).mp hpaged
    exact ⟨kind, hmem, message, hmem, hpaged⟩
  · intro kind hpresent
    exact exists_pages (not_due_of_present hpresent)
  · exact observe_raised_kernelHalt _
  · intro intervalSeconds
    rw [BeatSupervisor.waitSeconds, escalatingBeats_supervised]

/-- Two failed beats around a quiet one: the second pages no more. -/
def intermittent : List Beat :=
  [⟨1, .raised ⟨"OSError", "disk full"⟩⟩, ⟨2, .nothing⟩]

theorem alerts_once_per_episode_intermittent :
    (∃ before page after, intermittent ++ [⟨3, .raised ⟨"OSError", "disk full"⟩⟩] =
        before ++ page :: after ∧ Pages "scheduler" true before page escalationBeatFailed ∧
        ∀ since, since <+: after → ¬ Due escalationBeatFailed (before ++ page :: since)) ∧
      paged (observe (supervised "scheduler" true intermittent)
        ⟨3, .raised ⟨"OSError", "disk full"⟩⟩).1.2 = [] :=
  ⟨(alerts_once_per_episode "scheduler" true intermittent
      ⟨3, .raised ⟨"OSError", "disk full"⟩⟩).2.2.2.1 escalationBeatFailed rfl, by decide⟩

end Windbreak.Beats
