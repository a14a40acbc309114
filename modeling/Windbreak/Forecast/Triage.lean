import Windbreak.Forecast.Pipeline

/-!
# Triage

A cheap Stage-0 prior stands in front of the full pipeline.  Where it stays close to the baseline
the run stops with a triage-only record; otherwise the full pipeline runs on what Stage-0 leaves of
the forecast's budget, and the cost of Stage-0 is folded into its record.
-/

namespace Windbreak

/-- What the Stage-0 call returns, as `int` reads it, or that it raises. -/
inductive Stage0Outcome where
  | answered (response : Option ℤ)
  | raised (text : String)
  deriving DecidableEq, Repr

/-- The arguments of a triaged run, and what its calls find. -/
structure TriagedRun where
  marketTicker : String
  marketScreen : Option ProviderVoteError
  createdAt : Option UtcInstant
  budget : ResearchBudget
  baselinePpm : ℤ
  triageThresholdPpm : ℤ
  operatorFlagged : Bool
  refreshTriggered : Bool
  stage0 : Stage0Outcome
  /-- Does the ledger take the decision? -/
  decisionRecorded : Bool
  outside : OutsideCalls

/-- The cost of the Stage-0 prior: a fiftieth of the full pipeline's research charge. -/
def stage0CostMicros : ℤ := researchCostMicros / 50

/-- The prior that a Stage-0 response gives. -/
def parsePriorPpm (response : Option ℤ) : Except PipelineError ℤ :=
  match response with
  | none => .error (.value "stage-0 prior must be an integer ppm string")
  | some value =>
    if 0 ≤ value ∧ value ≤ 1000000 then .ok value
    else .error (.value "stage-0 prior is outside [0, 1000000]")

/-- Make the Stage-0 call.  A response is paid for, whatever it says. -/
def runStage0Prior (run : TriagedRun) : PipelineM ℤ :=
  match run.stage0 with
  | .raised text => throw (.raised text)
  | .answered response => do
    incur stage0CostMicros
    ofExcept (parsePriorPpm response)

/-- Does the expensive pipeline run? -/
def shouldRunFullPipeline (run : TriagedRun) (priorPpm : ℤ) : Bool :=
  decide (run.triageThresholdPpm ≤ |priorPpm - run.baselinePpm|) || run.operatorFlagged ||
    run.refreshTriggered

/-- The full run of a triaged run: on the rest of the budget, and otherwise with the defaults. -/
def TriagedRun.fullRun (run : TriagedRun) (remaining : ResearchBudget) : PipelineRun where
  marketTicker := run.marketTicker
  marketScreen := run.marketScreen
  createdAt := run.createdAt
  minVerifiedCitations := 3
  minEnsembleVotes := 2
  budget := some remaining
  canaryGate := none
  calibrationTrainedAt := none
  providerGate := none
  outside := run.outside

/-- The record of a run that stops. -/
def buildTriageOnlyRecord (run : TriagedRun) : Except PipelineError ForecastRecord :=
  match run.createdAt with
  | none => .error naiveInstantError
  | some createdAt =>
    if run.marketTicker = "" then .error (.value "market_ticker must be non-empty")
    else .ok
      { marketTicker := run.marketTicker
        modelVotes := []
        citations := []
        researchCostMicros := stage0CostMicros
        triageStage := .triageOnly
        createdAt := createdAt
        coherenceGroupSumPpm := none
        abstentionReason := none
        eligibleForLive := false
        live_full := nofun }

/-- The ledger takes the decision, or raises. -/
def TriagedRun.recordDecision (run : TriagedRun) : PipelineM Unit :=
  if run.decisionRecorded then return () else throw .ledger

/-- The full record with the cost of Stage-0 folded in. -/
def ForecastRecord.fold (record : ForecastRecord) (costMicros : ℤ) : ForecastRecord :=
  { record with researchCostMicros := record.researchCostMicros + costMicros }

/-- Stop: a triage-only record. -/
def runStopPath (run : TriagedRun) : PipelineM ForecastRecord := do
  let record ← ofExcept (buildTriageOnlyRecord run)
  run.recordDecision
  return record

/-- Proceed: the full pipeline, on the rest of the budget. -/
def runProceedPath (run : TriagedRun) (remaining : ResearchBudget) : PipelineM ForecastRecord := do
  let record ← runPipeline (run.fullRun remaining)
  run.recordDecision
  return record.fold stage0CostMicros

/-- A triaged run whose day is open. -/
def triageAndDecide (run : TriagedRun) : PipelineM ForecastRecord := do
  let priorPpm ← runStage0Prior run
  let remaining ← callBudget
    (run.budget.chargeStage stage0CostMicros run.marketTicker (run.createdAt.map UtcInstant.date))
  if shouldRunFullPipeline run priorPpm then runProceedPath run remaining
  else runStopPath run

/-- Run the two stages. -/
def runTriagedPipeline (run : TriagedRun) : PipelineM ForecastRecord :=
  match run.marketScreen with
  | some error => throw (.metadataRejected error)
  | none => do
    callBudget (run.budget.ensureDayOpen (run.createdAt.map UtcInstant.date))
    triageAndDecide run

end Windbreak
