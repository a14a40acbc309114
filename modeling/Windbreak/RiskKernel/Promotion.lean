import Windbreak.Core.Json
import Windbreak.RiskKernel.Modes

/-!
# Promotion gates

Each climb on the ladder is guarded by a gate, an ordered list of criteria that must all pass.  A
criterion compares one field of the evidence with a threshold.  The gate out of `PAPER` takes three
of its thresholds from a plan registered beforehand, and is not built without one.

* **`evaluatePromotion`** — every criterion is evaluated, none short-circuits.
* **`overridePromotes`** — what the one-way significance override can rescue.
* **`gateFor`** — the gate out of a mode, or the error a promotion from it raises.
-/

namespace Windbreak

/-! ## Evidence -/

/-- The snapshot of promotion evidence; every default fails its criterion. -/
structure GateEvidence where
  forecastCount : ℤ := 0
  adversarialSuiteGreen : Bool := false
  daysWithoutUnhandledErrors : ℤ := 0
  ledgerRebuildVerified : Bool := false
  resolvedRealtimeForecastCount : ℤ := 0
  independentEventGroupCount : ℤ := 0
  brierSkillPpm : ℤ := 0
  brierSkillCiLowerPpm : ℤ := 0
  brierSkillCiUpperPpm : ℤ := 0
  paperPnlNetMicroUsd : ℤ := 0
  paperWindowDays : ℤ := 0
  paperMaxDrawdownPpm : ℤ := 0
  calibrationSlopePpm : ℤ := 0
  kernelInvariantFailureCount : ℤ := 0
  liveMicroDays : ℤ := 0
  liveSlippageVsPaperPpm : ℤ := 0
  liveBrierDegradationPpm : ℤ := 0
  reconciliationHaltCount : ℤ := 0
  invariantViolationCount : ℤ := 0
  operatorConfirmation : Bool := false

/-- Every field under its own name, in order. -/
def GateEvidence.toPayload (e : GateEvidence) : List (String × Json) :=
  [("forecast_count", .int e.forecastCount),
    ("adversarial_suite_green", .bool e.adversarialSuiteGreen),
    ("days_without_unhandled_errors", .int e.daysWithoutUnhandledErrors),
    ("ledger_rebuild_verified", .bool e.ledgerRebuildVerified),
    ("resolved_realtime_forecast_count", .int e.resolvedRealtimeForecastCount),
    ("independent_event_group_count", .int e.independentEventGroupCount),
    ("brier_skill_ppm", .int e.brierSkillPpm),
    ("brier_skill_ci_lower_ppm", .int e.brierSkillCiLowerPpm),
    ("brier_skill_ci_upper_ppm", .int e.brierSkillCiUpperPpm),
    ("paper_pnl_net_micro_usd", .int e.paperPnlNetMicroUsd),
    ("paper_window_days", .int e.paperWindowDays),
    ("paper_max_drawdown_ppm", .int e.paperMaxDrawdownPpm),
    ("calibration_slope_ppm", .int e.calibrationSlopePpm),
    ("kernel_invariant_failure_count", .int e.kernelInvariantFailureCount),
    ("live_micro_days", .int e.liveMicroDays),
    ("live_slippage_vs_paper_ppm", .int e.liveSlippageVsPaperPpm),
    ("live_brier_degradation_ppm", .int e.liveBrierDegradationPpm),
    ("reconciliation_halt_count", .int e.reconciliationHaltCount),
    ("invariant_violation_count", .int e.invariantViolationCount),
    ("operator_confirmation", .bool e.operatorConfirmation)]

/-- A flag as the integer a comparison sees. -/
def flag (b : Bool) : ℤ := if b then 1 else 0

/-! ## Criteria and gates -/

/-- The comparison operators of a criterion. -/
inductive Comparison where
  | GE
  | GT
  | LE
  | LT
  | EQ
  | IS_TRUE
  deriving DecidableEq, Repr

namespace Comparison

def name : Comparison → String
  | GE => "GE"
  | GT => "GT"
  | LE => "LE"
  | LT => "LT"
  | EQ => "EQ"
  | IS_TRUE => "IS_TRUE"

/-- Whether an observed value passes against a threshold. -/
def holds : Comparison → ℤ → ℤ → Bool
  | GE, observed, threshold => decide (threshold ≤ observed)
  | GT, observed, threshold => decide (threshold < observed)
  | LE, observed, threshold => decide (observed ≤ threshold)
  | LT, observed, threshold => decide (observed < threshold)
  | EQ, observed, threshold => decide (observed = threshold)
  | IS_TRUE, observed, threshold => decide (threshold ≤ observed)

end Comparison

/-- A promotion predicate over one field of the evidence. -/
structure GateCriterion where
  criterionId : String
  evidenceField : GateEvidence → ℤ
  comparison : Comparison
  threshold : ℤ
  overridable : Bool := false

/-- The ordered criteria guarding one climb. -/
structure PromotionGate where
  source : Mode
  target : Mode
  criteria : List GateCriterion

/-- The evaluated outcome of one criterion. -/
structure CriterionResult where
  criterionId : String
  observed : ℤ
  threshold : ℤ
  comparison : Comparison
  passed : Bool
  deriving DecidableEq, Repr

/-- A result under the names an event spells it with. -/
def CriterionResult.toPayload (r : CriterionResult) : Json :=
  .obj [("criterion_id", .str r.criterionId), ("observed", .int r.observed),
    ("threshold", .int r.threshold), ("comparison", .str r.comparison.name),
    ("passed", .bool r.passed)]

/-- The outcome of evaluating a gate. -/
structure PromotionDecision where
  source : Mode
  target : Mode
  approved : Bool
  results : List CriterionResult
  deriving DecidableEq, Repr

/-- The gate out of `RESEARCH`. -/
def researchToPaperGate : PromotionGate where
  source := .RESEARCH
  target := .PAPER
  criteria :=
    [⟨"research_min_forecasts", (·.forecastCount), .GE, 50, false⟩,
      ⟨"research_error_free_days", (·.daysWithoutUnhandledErrors), .GE, 14, false⟩,
      ⟨"research_adversarial_suite_green", fun e => flag e.adversarialSuiteGreen, .IS_TRUE, 1,
        false⟩,
      ⟨"research_ledger_rebuild_verified", fun e => flag e.ledgerRebuildVerified, .IS_TRUE, 1,
        false⟩]

/-- The three thresholds a registered plan supplies. -/
structure GatePlanThresholds where
  promotionMinResolved : ℤ
  promotionMinIndependentEventGroups : ℤ
  brierSkillRequiredPpm : ℤ

/-- The gate out of `PAPER`.  Only its significance criterion is overridable. -/
def paperGateFromThresholds (plan : GatePlanThresholds) : PromotionGate where
  source := .PAPER
  target := .LIVE_MICRO
  criteria :=
    [⟨"paper_resolved_forecasts", (·.resolvedRealtimeForecastCount), .GE,
        plan.promotionMinResolved, false⟩,
      ⟨"paper_independent_event_groups", (·.independentEventGroupCount), .GE,
        plan.promotionMinIndependentEventGroups, false⟩,
      ⟨"paper_brier_skill", (·.brierSkillPpm), .GE, plan.brierSkillRequiredPpm, false⟩,
      ⟨"paper_brier_skill_significance", (·.brierSkillCiLowerPpm), .GT, 0, true⟩,
      ⟨"paper_pnl_positive", (·.paperPnlNetMicroUsd), .GT, 0, false⟩,
      ⟨"paper_window_days", (·.paperWindowDays), .GE, 90, false⟩,
      ⟨"paper_max_drawdown", (·.paperMaxDrawdownPpm), .LT, 300000, false⟩,
      ⟨"paper_calibration_slope_low", (·.calibrationSlopePpm), .GE, 800000, false⟩,
      ⟨"paper_calibration_slope_high", (·.calibrationSlopePpm), .LE, 1200000, false⟩,
      ⟨"paper_kernel_invariant_failures", (·.kernelInvariantFailureCount), .EQ, 0, false⟩]

/-- The gate out of `LIVE_MICRO`. -/
def liveMicroToLiveGate : PromotionGate where
  source := .LIVE_MICRO
  target := .LIVE
  criteria :=
    [⟨"live_micro_days", (·.liveMicroDays), .GE, 60, false⟩,
      ⟨"live_micro_slippage", (·.liveSlippageVsPaperPpm), .LE, 50000, false⟩,
      ⟨"live_micro_brier_degradation", (·.liveBrierDegradationPpm), .LE, 20000, false⟩,
      ⟨"live_micro_reconciliation_halts", (·.reconciliationHaltCount), .EQ, 0, false⟩,
      ⟨"live_micro_invariant_violations", (·.invariantViolationCount), .EQ, 0, false⟩,
      ⟨"live_micro_operator_confirmation", fun e => flag e.operatorConfirmation, .IS_TRUE, 1,
        false⟩]

/-! ## Evaluation -/

/-- Evaluate one criterion. -/
def evaluateCriterion (criterion : GateCriterion) (evidence : GateEvidence) : CriterionResult :=
  let observed := criterion.evidenceField evidence
  { criterionId := criterion.criterionId
    observed := observed
    threshold := criterion.threshold
    comparison := criterion.comparison
    passed := criterion.comparison.holds observed criterion.threshold }

/-- Evaluate every criterion of a gate. -/
def evaluatePromotion (gate : PromotionGate) (evidence : GateEvidence) : PromotionDecision :=
  let results := gate.criteria.map fun criterion => evaluateCriterion criterion evidence
  { source := gate.source
    target := gate.target
    approved := results.all (·.passed)
    results := results }

/-- Whether an active override rescues a rejected promotion: something failed, and everything that
failed is overridable. -/
def overridePromotes (gate : PromotionGate) (decision : PromotionDecision)
    (overrideActive : Bool) : Bool :=
  let overridableIds := (gate.criteria.filter (·.overridable)).map (·.criterionId)
  let failures := decision.results.filter fun r => !r.passed
  overrideActive && !decision.approved && !failures.isEmpty &&
    failures.all fun r => decide (r.criterionId ∈ overridableIds)

/-- The highest mode the override can reach. -/
def overrideCeiling : Mode := .LIVE_MICRO

/-- The lower-ranked of the configured ceiling and the override's.  Both are ladder modes. -/
def effectiveModeCeiling (configured : Mode) (overrideApplied : Bool) : Mode :=
  if !overrideApplied then configured
  else
    match configured.ladderRank, overrideCeiling.ladderRank with
    | some rank, some cap => if rank ≤ cap then configured else overrideCeiling
    | _, _ => overrideCeiling

/-- The phrase an operator types to apply the override. -/
def significanceOverrideAckPhrase : String :=
  "OVERRIDE SIGNIFICANCE GATE: I ACCEPT REDUCED STATISTICAL CONFIDENCE"

/-! ## The gate out of a mode -/

/-- What reading the registered plan from the wired store gives. -/
inductive GatePlanRead where
  | noStore
  | unreadable
  | noRegistration
  | registered (plan : GatePlanThresholds)

/-- The gate out of `PAPER`, from the registered plan. -/
def paperGateFromRegisteredPlan : GatePlanRead → Except KernelError PromotionGate
  | .noStore => .error
      ⟨.gatePlanUnavailable, "no gate plan store wired; promotion blocked (fail-closed)"⟩
  | .unreadable => .error ⟨.gatePlanUnavailable,
      "registered gate plan is unreadable; promotion blocked (fail-closed)"⟩
  | .noRegistration => .error
      ⟨.gatePlanUnavailable, "no registered gate plan; promotion blocked (fail-closed)"⟩
  | .registered plan => .ok (paperGateFromThresholds plan)

/-- The gate guarding the promotion out of a mode. -/
def gateFor (current : Mode) (read : GatePlanRead) : Except KernelError PromotionGate :=
  match current with
  | .PAPER => paperGateFromRegisteredPlan read
  | .RESEARCH => .ok researchToPaperGate
  | .LIVE_MICRO => .ok liveMicroToLiveGate
  | _ => .error ⟨.illegalModeTransition, s!"no promotion gate from {current.name}"⟩

end Windbreak
