import Mathlib.Data.Finset.Basic
import Mathlib.Data.Fintype.Basic

/-!
# Operating modes

The kernel climbs a four-rung ladder, one rung at a time and never above a configured ceiling, and
drops from any rung into one of three safety modes.  `KILLED` is a dead end: no ordinary
transition leaves it, only a re-arm with the exact confirmation phrase does.

* **`ModeStateMachine`** — the mode with its ceiling; that the ceiling is a ladder mode is a field.
* **`transition`**, **`promoteOneRung`**, **`demoteOneRung`**, **`rearm`** — each returns the next
  machine or raises, and raising leaves the machine as it was.
* **`demoteOneRung_not_killed`**, **`promoteOneRung_not_killed`**, **`transition_of_killed`** —
  who can enter or leave `KILLED`.
-/

/-! ## What the kernel raises

One exception type for the whole kernel process: the class of the exception and its text.  The
classes are those the kernel's own code raises, together with one class for each collaborator that
may fail on its own account (the event writer, the token issuer, a venue call, an alert sink, the
file system).
-/

namespace Windbreak

/-- The class of an exception. -/
inductive ErrorKind where
  | illegalModeTransition
  | modeCeilingExceeded
  | killReArm
  | overrideAcknowledgement
  | gatePlanUnavailable
  | duplicateReservation
  | unprovableCost
  | duplicateAckRequest
  | unknownApproval
  | ackLapsed
  | dashboardChallenge
  | expectationSource
  | valueError
  | keyError
  | typeError
  | zeroDivision
  | writer
  | issuer
  | venue
  | sink
  | filesystem
  deriving DecidableEq, Repr

/-- A raised exception: its class and its text. -/
structure KernelError where
  kind : ErrorKind
  message : String
  deriving DecidableEq, Repr

end Windbreak

namespace Windbreak

/-- The seven operating modes, in promotion order. -/
inductive Mode where
  | RESEARCH
  | PAPER
  | LIVE_MICRO
  | LIVE
  | PAUSED
  | HALT
  | KILLED
  deriving DecidableEq, Repr

instance : Fintype Mode where
  elems := {.RESEARCH, .PAPER, .LIVE_MICRO, .LIVE, .PAUSED, .HALT, .KILLED}
  complete m := by cases m <;> decide

namespace Mode

/-- The mode's name, as it appears in events and messages. -/
def name : Mode → String
  | RESEARCH => "RESEARCH"
  | PAPER => "PAPER"
  | LIVE_MICRO => "LIVE_MICRO"
  | LIVE => "LIVE"
  | PAUSED => "PAUSED"
  | HALT => "HALT"
  | KILLED => "KILLED"

/-- The modes an order may be routed in. -/
def tradingModes : List Mode := [PAPER, LIVE_MICRO, LIVE]

/-- Whether an order may be routed in this mode. -/
def mayTrade (m : Mode) : Bool := decide (m ∈ tradingModes)

/-- The three safety modes, off the ladder. -/
def safetyModes : List Mode := [PAUSED, HALT, KILLED]

/-- The promotable ladder, low to high. -/
def promotionLadder : List Mode := [RESEARCH, PAPER, LIVE_MICRO, LIVE]

/-- The rank of a mode on the ladder; the safety modes have none. -/
def ladderRank : Mode → Option ℕ
  | RESEARCH => some 0
  | PAPER => some 1
  | LIVE_MICRO => some 2
  | LIVE => some 3
  | PAUSED | HALT | KILLED => none

/-- The rung above, if there is one. -/
def nextRung (m : Mode) : Option Mode := do
  let rank ← ladderRank m
  promotionLadder[rank + 1]?

/-- The rung below, if there is one. -/
def prevRung (m : Mode) : Option Mode := do
  let rank ← ladderRank m
  if rank = 0 then none else promotionLadder[rank - 1]?

/-- The targets legal from a mode, the ceiling aside: any other safety mode, and one rung up.
`KILLED` has none. -/
def allowedTransitions (m : Mode) : List Mode :=
  if m = KILLED then []
  else safetyModes.filter (· ≠ m) ++ (nextRung m).toList

end Mode

/-- The exact phrase an operator types to re-arm a killed kernel. -/
def rearmConfirmationPhrase : String := "RE-ARM AFTER KILL: I ACCEPT FULL RESPONSIBILITY"

/-- The guarded state machine: a mode, and a ceiling that is one of the ladder modes. -/
structure ModeStateMachine where
  modeCeiling : Mode
  mode : Mode
  ceilingRank : ℕ
  ceiling_on_ladder : modeCeiling.ladderRank = some ceilingRank

/-- `LIVE` is the fourth rung. -/
theorem Mode.ladderRank_live : Mode.LIVE.ladderRank = some 3 := rfl

namespace ModeStateMachine

/-- The machine in another mode, its ceiling kept. -/
def withMode (m : ModeStateMachine) (mode : Mode) : ModeStateMachine := { m with mode := mode }

@[simp] theorem withMode_mode (m : ModeStateMachine) (mode : Mode) :
    (m.withMode mode).mode = mode := rfl

@[simp] theorem withMode_modeCeiling (m : ModeStateMachine) (mode : Mode) :
    (m.withMode mode).modeCeiling = m.modeCeiling := rfl

/-- Whether a target is a ladder mode above the ceiling. -/
def exceedsCeiling (m : ModeStateMachine) (target : Mode) : Bool :=
  match target.ladderRank with
  | none => false
  | some rank => decide (m.ceilingRank < rank)

/-- Move to `target` when the table and the ceiling allow it. -/
def transition (m : ModeStateMachine) (target : Mode) : Except KernelError ModeStateMachine :=
  if target ∉ m.mode.allowedTransitions then
    .error ⟨.illegalModeTransition, s!"illegal transition {m.mode.name} -> {target.name}"⟩
  else if m.exceedsCeiling target then
    .error ⟨.modeCeilingExceeded,
      s!"promotion to {target.name} exceeds ceiling {m.modeCeiling.name}"⟩
  else
    .ok (m.withMode target)

/-- Promote one rung, honouring the static ceiling and a second, dynamic one. -/
def promoteOneRung (m : ModeStateMachine) (effectiveCeiling : Mode) :
    Except KernelError ModeStateMachine :=
  match m.mode.nextRung with
  | none => .error
      ⟨.illegalModeTransition, s!"no ladder rung above {m.mode.name} to promote to"⟩
  | some target =>
    -- the second rank is only looked up when the static ceiling admits the target
    if m.exceedsCeiling target then
      .error ⟨.modeCeilingExceeded, s!"promotion to {target.name} exceeds an active ceiling"⟩
    else
      match effectiveCeiling.ladderRank with
      | none => .error ⟨.keyError, effectiveCeiling.name⟩
      | some rank =>
        if target.ladderRank.any (fun r => decide (rank < r)) then
          .error ⟨.modeCeilingExceeded, s!"promotion to {target.name} exceeds an active ceiling"⟩
        else
          .ok (m.withMode target)

/-- Demote one rung. -/
def demoteOneRung (m : ModeStateMachine) : Except KernelError ModeStateMachine :=
  match m.mode.prevRung with
  | none => .error
      ⟨.illegalModeTransition, s!"no ladder rung below {m.mode.name} to demote to"⟩
  | some target => .ok (m.withMode target)

/-- Re-arm a killed machine on the exact phrase. -/
def rearm (m : ModeStateMachine) (confirmation : String) : Except KernelError ModeStateMachine :=
  if m.mode ≠ .KILLED then
    .error ⟨.killReArm, "rearm is only valid from KILLED"⟩
  else if confirmation ≠ rearmConfirmationPhrase then
    .error ⟨.killReArm, "rearm confirmation phrase does not match"⟩
  else
    .ok (m.withMode .RESEARCH)

/-! ## What each move can do -/

theorem transition_ok {m m' : ModeStateMachine} {target : Mode}
    (h : m.transition target = .ok m') :
    m' = m.withMode target ∧ target ∈ m.mode.allowedTransitions := by
  unfold transition at h
  split_ifs at h with hmem hceil
  · exact ⟨(Except.ok.inj h).symm, by simpa using hmem⟩

theorem promoteOneRung_ok {m m' : ModeStateMachine} {ceiling : Mode}
    (h : m.promoteOneRung ceiling = .ok m') :
    ∃ target, m.mode.nextRung = some target ∧ m' = m.withMode target := by
  unfold promoteOneRung at h
  cases hn : m.mode.nextRung with
  | none => simp [hn] at h
  | some target =>
      refine ⟨target, rfl, ?_⟩
      simp only [hn] at h
      split_ifs at h
      cases hr : ceiling.ladderRank with
      | none => simp [hr] at h
      | some rank =>
          simp only [hr] at h
          split_ifs at h
          exact (Except.ok.inj h).symm

theorem demoteOneRung_ok {m m' : ModeStateMachine} (h : m.demoteOneRung = .ok m') :
    ∃ target, m.mode.prevRung = some target ∧ m' = m.withMode target := by
  unfold demoteOneRung at h
  cases hp : m.mode.prevRung with
  | none => simp [hp] at h
  | some target => exact ⟨target, rfl, by simpa [hp] using h.symm⟩

theorem rearm_ok {m m' : ModeStateMachine} {confirmation : String}
    (h : m.rearm confirmation = .ok m') :
    m.mode = .KILLED ∧ confirmation = rearmConfirmationPhrase ∧ m' = m.withMode .RESEARCH := by
  unfold rearm at h
  split_ifs at h with hmode hphrase
  · exact ⟨not_not.mp hmode, not_not.mp hphrase, (Except.ok.inj h).symm⟩

end ModeStateMachine

/-! ## Entering and leaving `KILLED` -/

namespace Mode

/-- No ordinary transition leaves `KILLED`. -/
theorem allowedTransitions_killed : allowedTransitions KILLED = [] := rfl

/-- No promotion enters or leaves `KILLED`. -/
theorem nextRung_not_killed {m target : Mode} (h : nextRung m = some target) :
    m ≠ KILLED ∧ target ≠ KILLED := by
  cases m <;> cases target <;> simp [nextRung, ladderRank, promotionLadder] at h ⊢

/-- No demotion of one rung enters or leaves `KILLED`. -/
theorem prevRung_not_killed {m target : Mode} (h : prevRung m = some target) :
    m ≠ KILLED ∧ target ≠ KILLED := by
  cases m <;> cases target <;> simp [prevRung, ladderRank, promotionLadder] at h ⊢

/-- The kill is always one legal transition away. -/
theorem killed_mem_allowedTransitions {m : Mode} (h : m ≠ KILLED) :
    KILLED ∈ m.allowedTransitions := by
  cases m <;> simp [allowedTransitions, safetyModes] at h ⊢

end Mode

end Windbreak
