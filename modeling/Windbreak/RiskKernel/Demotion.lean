import Windbreak.RiskKernel.Modes

/-!
# Demotion triggers

Sixteen named conditions, each pinned to one of four responses, and the mode a firing leads to.
Resolution is pure and total: a firing that has nothing to do from the current mode resolves to no
destination.

* **`resolveDemotion_killed`** — only the manual kill leads to `KILLED`.
-/

namespace Windbreak

/-- The four responses a trigger can demand. -/
inductive DemotionAction where
  | PAUSE
  | DEMOTE_ONE_MODE
  | HALT
  | KILL
  deriving DecidableEq, Repr

def DemotionAction.name : DemotionAction → String
  | PAUSE => "PAUSE"
  | DEMOTE_ONE_MODE => "DEMOTE_ONE_MODE"
  | HALT => "HALT"
  | KILL => "KILL"

/-- The sixteen conditions that can demand a demotion. -/
inductive DemotionTrigger where
  | DAILY_LOSS_BREACH
  | DRAWDOWN_BREACH
  | BALANCE_POSITION_MISMATCH
  | FLOOR_CHECK_FAILURE
  | SCHEMA_ANOMALY
  | JURISDICTION_UNKNOWN
  | ROLLING_BRIER_DEGRADATION
  | LIVE_PAPER_SLIPPAGE_DIVERGENCE
  | CLOCK_SKEW
  | STALE_HEARTBEAT
  | FEE_MODEL_UNAVAILABLE
  | CANARY_DRIFT_UNACKNOWLEDGED
  | TOKEN_REPLAY_ATTEMPT
  | BACKUP_FAILURES_BEYOND_LIMIT
  | DISK_BELOW_THRESHOLD
  | MANUAL_KILL
  deriving DecidableEq, Repr

namespace DemotionTrigger

def name : DemotionTrigger → String
  | DAILY_LOSS_BREACH => "DAILY_LOSS_BREACH"
  | DRAWDOWN_BREACH => "DRAWDOWN_BREACH"
  | BALANCE_POSITION_MISMATCH => "BALANCE_POSITION_MISMATCH"
  | FLOOR_CHECK_FAILURE => "FLOOR_CHECK_FAILURE"
  | SCHEMA_ANOMALY => "SCHEMA_ANOMALY"
  | JURISDICTION_UNKNOWN => "JURISDICTION_UNKNOWN"
  | ROLLING_BRIER_DEGRADATION => "ROLLING_BRIER_DEGRADATION"
  | LIVE_PAPER_SLIPPAGE_DIVERGENCE => "LIVE_PAPER_SLIPPAGE_DIVERGENCE"
  | CLOCK_SKEW => "CLOCK_SKEW"
  | STALE_HEARTBEAT => "STALE_HEARTBEAT"
  | FEE_MODEL_UNAVAILABLE => "FEE_MODEL_UNAVAILABLE"
  | CANARY_DRIFT_UNACKNOWLEDGED => "CANARY_DRIFT_UNACKNOWLEDGED"
  | TOKEN_REPLAY_ATTEMPT => "TOKEN_REPLAY_ATTEMPT"
  | BACKUP_FAILURES_BEYOND_LIMIT => "BACKUP_FAILURES_BEYOND_LIMIT"
  | DISK_BELOW_THRESHOLD => "DISK_BELOW_THRESHOLD"
  | MANUAL_KILL => "MANUAL_KILL"

/-- The pinned response to each trigger. -/
def action : DemotionTrigger → DemotionAction
  | DAILY_LOSS_BREACH => .PAUSE
  | DRAWDOWN_BREACH => .DEMOTE_ONE_MODE
  | ROLLING_BRIER_DEGRADATION => .DEMOTE_ONE_MODE
  | LIVE_PAPER_SLIPPAGE_DIVERGENCE => .DEMOTE_ONE_MODE
  | CANARY_DRIFT_UNACKNOWLEDGED => .DEMOTE_ONE_MODE
  | BALANCE_POSITION_MISMATCH => .HALT
  | FLOOR_CHECK_FAILURE => .HALT
  | SCHEMA_ANOMALY => .HALT
  | JURISDICTION_UNKNOWN => .HALT
  | CLOCK_SKEW => .HALT
  | STALE_HEARTBEAT => .HALT
  | FEE_MODEL_UNAVAILABLE => .HALT
  | TOKEN_REPLAY_ATTEMPT => .HALT
  | BACKUP_FAILURES_BEYOND_LIMIT => .HALT
  | DISK_BELOW_THRESHOLD => .HALT
  | MANUAL_KILL => .KILL

end DemotionTrigger

/-- The target of a safety response; a one-mode demotion has none of its own. -/
def DemotionAction.safetyTarget : DemotionAction → Option Mode
  | PAUSE => some .PAUSED
  | HALT => some .HALT
  | KILL => some .KILLED
  | DEMOTE_ONE_MODE => none

/-- Where a safety response leads from a mode: nowhere from `KILLED` or from its own target. -/
def resolveSafetyAction (action : DemotionAction) (current : Mode) : Option Mode :=
  if current = .KILLED then none
  else if action.safetyTarget = some current then none
  else action.safetyTarget

/-- Where a one-mode demotion leads: `PAUSED` below the lowest rung, nowhere off the ladder. -/
def resolveDemoteOneMode (current : Mode) : Option Mode :=
  if current = .RESEARCH then some .PAUSED else current.prevRung

/-- Where a firing leads, if anywhere. -/
def resolveDemotion (current : Mode) (trigger : DemotionTrigger) : Option Mode :=
  if trigger.action = .DEMOTE_ONE_MODE then resolveDemoteOneMode current
  else resolveSafetyAction trigger.action current

/-- **Only the manual kill leads to `KILLED`**, and from everywhere else it does. -/
theorem resolveDemotion_killed {current : Mode} {trigger : DemotionTrigger} :
    resolveDemotion current trigger = some .KILLED ↔
      trigger = .MANUAL_KILL ∧ current ≠ .KILLED := by
  cases trigger <;> cases current <;> decide

end Windbreak
