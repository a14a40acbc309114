import Windbreak.Evaluation.Temporal
import Windbreak.Evaluation.Windows

/-!
# The registered metrics

Eleven metrics over one set of inputs.  Each call first gates the inputs, then takes the window of
the metric, then scores; a metric without a value is marked so rather than raised.

* `seedMetricSpecs`, `gatedCompute` — the metrics by name, and the gate before each.
* `gatedCompute_eq` — behind the gate a metric sees the admitted forecasts alone.
* **`registered_order_free`** — neither what the gate rejects nor the order of the forecasts has any
  influence.
-/

namespace Windbreak.Metrics

/-- A metric's value. -/
inductive MetricValue where
  | value (ppm : ℤ)
  | notImplemented
  | undefined
  deriving DecidableEq, Repr

/-! ## Cohorts -/

/-- The parts that the forecasts are scored in; they overlap. -/
inductive Cohort where
  | all
  | traded
  | skipped
  | aboveThreshold
  | abstained
  | excludedByLiquidity
  | excludedByCategory
  deriving DecidableEq, Repr

def Cohort.text : Cohort → String
  | .all => "all"
  | .traded => "traded"
  | .skipped => "skipped"
  | .aboveThreshold => "above_threshold"
  | .abstained => "abstained"
  | .excludedByLiquidity => "excluded_by_liquidity"
  | .excludedByCategory => "excluded_by_category"

/-- `_is_above_threshold` -/
def isAboveThreshold (forecast : FixtureForecast) : Bool :=
  30000 ≤ |forecast.probabilityPpm - forecast.baselineExecutablePricePips * 100|

/-- `_is_abstained` -/
def isAbstained (forecast : FixtureForecast) : Bool :=
  !forecast.traded && !forecast.eligibleForLive &&
    match forecast.abstentionReason with
    | none => false
    | some reason => reason != "low_liquidity" && reason != "excluded_category"

/-- `_exclusion_cohorts` -/
def exclusionCohorts (reason : Option String) : List Cohort :=
  (if reason = some "low_liquidity" then [.excludedByLiquidity] else []) ++
    if reason = some "excluded_category" then [.excludedByCategory] else []

/-- `assign_cohorts` -/
def assignCohorts (forecast : FixtureForecast) : List Cohort :=
  [.all, if forecast.traded then .traded else .skipped] ++
    (if isAboveThreshold forecast then [.aboveThreshold] else []) ++
    exclusionCohorts forecast.abstentionReason ++
    if isAbstained forecast then [.abstained] else []

/-- `_cohort_forecasts` -/
def cohortForecasts (inputs : EvaluationInputs) (cohort : Cohort) : List FixtureForecast :=
  inputs.forecasts.filter fun forecast => cohort ∈ assignCohorts forecast

/-- `_windowed_cohort_forecasts` -/
def windowedCohortForecasts (inputs : EvaluationInputs) (cohort : Cohort)
    (window : ObservationWindow) : Except MetricError (List FixtureForecast) :=
  resolveWindow (cohortForecasts inputs cohort) window

/-- `_resolved_count` -/
def resolvedCount (forecasts : List FixtureForecast) (inputs : EvaluationInputs) : ℕ :=
  forecasts.countP fun forecast => (inputs.resolutions.get? forecast.marketTicker).isSome

/-- A cohort without a resolved forecast. -/
def emptyCohort (cohort : Cohort) : MetricError :=
  .emptyCohort s!"cohort '{cohort.text}' has no resolved records; the traded-vs-skipped delta is undefined"

/-- `_cohort_mean_brier` -/
def cohortMeanBrier (inputs : EvaluationInputs) (cohort : Cohort) (window : ObservationWindow) :
    Except MetricError ℤ := do
  let forecasts ← windowedCohortForecasts inputs cohort window
  if resolvedCount forecasts inputs = 0 then .error (emptyCohort cohort)
  else meanBrier { inputs with forecasts := forecasts }

/-- `traded_vs_skipped_brier_delta` -/
def tradedVsSkippedBrierDelta (inputs : EvaluationInputs) (window : ObservationWindow) :
    Except MetricError ℤ := do
  let skipped ← cohortMeanBrier inputs .skipped window
  let traded ← cohortMeanBrier inputs .traded window
  return skipped - traded

/-- `_resolved_track_forecasts` -/
def resolvedTrackForecasts (inputs : EvaluationInputs) (live : Bool) : List FixtureForecast :=
  inputs.forecasts.filter fun forecast => forecast.live == live &&
    (inputs.resolutions.get? forecast.marketTicker).isSome && forecast.createdSequence.isSome

/-- `_rolling_window`: the forecasts with the highest sequences; a stable sort. -/
def rollingWindow (forecasts : List FixtureForecast) (windowSize : ℕ) : List FixtureForecast :=
  (forecasts.insertionSort fun a b =>
    a.createdSequence.getD 0 ≥ b.createdSequence.getD 0).take windowSize

def noLiveRecords : MetricError :=
  .emptyCohort "LIVE cohort has no resolved records; live-brier degradation is undefined"

def noPaperRecords : MetricError :=
  .emptyCohort "PAPER cohort has no resolved records; live-brier degradation is undefined"

/-- The two means apart, when there are both. -/
def degradationOf (inputs : EvaluationInputs) (live paper : List FixtureForecast) :
    Except MetricError ℤ :=
  if live = [] then .error noLiveRecords
  else if paper = [] then .error noPaperRecords
  else do
    let liveMean ← meanBrier { inputs with forecasts := live }
    let paperMean ← meanBrier { inputs with forecasts := paper }
    return liveMean - paperMean

/-- `live_brier_degradation` -/
def liveBrierDegradation (inputs : EvaluationInputs) (window : ObservationWindow)
    (windowSize : ℕ) : Except MetricError ℤ := do
  let liveCollapsed ← resolveWindow (resolvedTrackForecasts inputs true) window
  let live := rollingWindow liveCollapsed windowSize
  let paper ← resolveWindow (resolvedTrackForecasts inputs false) window
  degradationOf inputs live paper

/-! ## Execution quality -/

/-- `live_slippage_ratio` -/
def liveSlippageRatio (records : List ExecutionQualityRecord) : Except MetricError MetricValue :=
  if records = [] then .ok .undefined
  else if (records.map (·.modeledCostMicros)).sum = 0 then .error .zeroModeledCost
  else (divided ((records.map (·.actualCostMicros)).sum * ppmScale)
    (records.map (·.modeledCostMicros)).sum .overstateCost).map .value

/-- The window that the live metrics look back over. -/
def liveRollingWindowSize : ℕ := 100

/-- `_windowed_execution_records` -/
def windowedExecutionRecords (inputs : EvaluationInputs) : List ExecutionQualityRecord :=
  (inputs.executionRecords.insertionSort fun a b =>
    a.createdSequence ≥ b.createdSequence).take liveRollingWindowSize

/-! ## The computations behind the names -/

/-- `_windowed` -/
def windowed (inputs : EvaluationInputs) : Except MetricError EvaluationInputs := do
  let forecasts ← resolveWindow inputs.forecasts headlineObservationWindow
  return { inputs with forecasts := forecasts }

/-- A metric of the window of the latest forecasts. -/
def ofWindow (metric : EvaluationInputs → Except MetricError ℤ) (inputs : EvaluationInputs) :
    Except MetricError MetricValue := do
  let inputs ← windowed inputs
  return .value (← metric inputs)

/-- An empty cohort leaves a metric undefined. -/
def emptyUndefined (result : Except MetricError ℤ) : Except MetricError MetricValue :=
  match result with
  | .ok ppm => .ok (.value ppm)
  | .error (.emptyCohort _) => .ok .undefined
  | .error e => .error e

/-- `_compute_brier` -/
def computeBrier := ofWindow meanBrier

/-- `_compute_brier_skill_vs_executable_price` -/
def computeBrierSkillVsExecutablePrice := ofWindow brierSkill

/-- `_compute_log_score` -/
def computeLogScore := ofWindow meanLogScore

/-- `_compute_expected_calibration_error` -/
def computeExpectedCalibrationError := ofWindow expectedCalibrationError

/-- `_compute_calibration_slope` -/
def computeCalibrationSlope := ofWindow calibrationSlope

/-- `_compute_calibration_intercept` -/
def computeCalibrationIntercept := ofWindow calibrationIntercept

/-- `_compute_sharpness` -/
def computeSharpness := ofWindow sharpness

/-- `_compute_traded_vs_skipped_brier_delta` -/
def computeTradedVsSkippedBrierDelta (inputs : EvaluationInputs) : Except MetricError MetricValue :=
  emptyUndefined (tradedVsSkippedBrierDelta inputs headlineObservationWindow)

/-- `_compute_fill_vs_model_slippage` -/
def computeFillVsModelSlippage (_ : EvaluationInputs) : Except MetricError MetricValue :=
  .ok .notImplemented

/-- `_compute_live_slippage_ratio` -/
def computeLiveSlippageRatio (inputs : EvaluationInputs) : Except MetricError MetricValue :=
  match liveSlippageRatio (windowedExecutionRecords inputs) with
  | .error .zeroModeledCost => .ok .undefined
  | result => result

/-- `_compute_live_brier_degradation` -/
def computeLiveBrierDegradation (inputs : EvaluationInputs) : Except MetricError MetricValue :=
  emptyUndefined (liveBrierDegradation inputs headlineObservationWindow liveRollingWindowSize)

/-! ## The gate in front of every metric -/

/-- `gate_evaluation_inputs`: the inputs with the admitted forecasts, and the rejections. -/
def gateEvaluationInputs (inputs : EvaluationInputs) :
    Except String (EvaluationInputs × List RejectionEvent) := do
  let result ← enforceTemporalIntegrity inputs
  return ({ inputs with forecasts := result.admittedForecasts }, result.rejections)

/-- Without a resolved forecast a metric is undefined. -/
def unresolvedUndefined (result : Except MetricError MetricValue) :
    Except MetricError MetricValue :=
  match result with
  | .error .noResolvedForecasts => .ok .undefined
  | result => result

/-- `gated_compute`: nothing but admitted forecasts reach a metric, and one that finds none resolved
is undefined. -/
def gatedCompute (compute : EvaluationInputs → Except MetricError MetricValue)
    (inputs : EvaluationInputs) : Except MetricError MetricValue := do
  let (admitted, _) ← (gateEvaluationInputs inputs).mapError .valueError
  unresolvedUndefined (compute admitted)

/-- Under which heading a metric is reported. -/
inductive Track where
  | forecast
  | selection
  | execution
  deriving DecidableEq, Repr

/-- A metric; it can only be computed behind the gate. -/
structure MetricSpec where
  name : String
  track : Track
  window : ObservationWindow
  original : EvaluationInputs → Except MetricError MetricValue

/-- `compute` of a metric. -/
def MetricSpec.compute (spec : MetricSpec) :
    EvaluationInputs → Except MetricError MetricValue := gatedCompute spec.original

/-- `_seed_metric_specs` -/
def seedMetricSpecs : List MetricSpec :=
  [⟨"brier", .forecast, .latestBeforeClose, computeBrier⟩,
    ⟨"brier_skill_vs_executable_price", .forecast, .latestBeforeClose,
      computeBrierSkillVsExecutablePrice⟩,
    ⟨"log_score", .forecast, .latestBeforeClose, computeLogScore⟩,
    ⟨"expected_calibration_error", .forecast, .latestBeforeClose,
      computeExpectedCalibrationError⟩,
    ⟨"calibration_slope", .forecast, .latestBeforeClose, computeCalibrationSlope⟩,
    ⟨"calibration_intercept", .forecast, .latestBeforeClose, computeCalibrationIntercept⟩,
    ⟨"sharpness", .forecast, .latestBeforeClose, computeSharpness⟩,
    ⟨"traded_vs_skipped_brier_delta", .selection, .latestBeforeClose,
      computeTradedVsSkippedBrierDelta⟩,
    ⟨"fill_vs_model_slippage", .execution, .tradeTriggering, computeFillVsModelSlippage⟩,
    ⟨"live_slippage_ratio", .execution, .tradeTriggering, computeLiveSlippageRatio⟩,
    ⟨"live_brier_degradation", .forecast, .latestBeforeClose, computeLiveBrierDegradation⟩]

/-! ## The admitted forecasts -/

/-- The inputs with the forecasts that the gate admits. -/
def admittedInputs (inputs : EvaluationInputs) (temporal : TemporalContext) : EvaluationInputs :=
  { inputs with forecasts := inputs.forecasts.filter fun forecast =>
      classifyForecast forecast inputs.resolutions temporal = none }

section Admitted

variable {inputs : EvaluationInputs} {temporal : TemporalContext}

theorem gateEvaluationInputs_ok (h : inputs.temporal = some temporal) :
    ∃ rejections, gateEvaluationInputs inputs = .ok (admittedInputs inputs temporal, rejections) := by
  obtain ⟨result, hresult, hadmitted, -⟩ :=
    gateForecasts_ok inputs.resolutions temporal inputs.forecasts
  have hgate : enforceTemporalIntegrity inputs = .ok result := by
    unfold enforceTemporalIntegrity
    rw [h]
    exact hresult
  refine ⟨result.rejections, ?_⟩
  unfold gateEvaluationInputs admittedInputs
  rw [hgate, ← hadmitted]
  rfl

/-- Behind the gate a metric sees what is admitted, and nothing else. -/
theorem gatedCompute_eq (h : inputs.temporal = some temporal)
    (compute : EvaluationInputs → Except MetricError MetricValue) :
    gatedCompute compute inputs =
      unresolvedUndefined (compute (admittedInputs inputs temporal)) := by
  obtain ⟨rejections, hok⟩ := gateEvaluationInputs_ok h
  unfold gatedCompute
  rw [hok]
  rfl

/-- An admitted forecast has a sequence. -/
theorem admitted_sequenced (inputs : EvaluationInputs) (temporal : TemporalContext) :
    Sequenced (admittedInputs inputs temporal).forecasts := by
  intro forecast hmem
  have hadmitted := of_decide_eq_true (List.mem_filter.mp hmem).2
  obtain ⟨created, hcreated, -⟩ := classifyForecast_eq_none_iff.mp hadmitted
  exact ⟨created, hcreated⟩

theorem Sequenced.filter {forecasts : List FixtureForecast} (h : Sequenced forecasts)
    (p : FixtureForecast → Bool) : Sequenced (forecasts.filter p) :=
  fun forecast hmem => h forecast (List.mem_filter.mp hmem).1

theorem DistinctlySequenced.filter {forecasts : List FixtureForecast}
    (h : DistinctlySequenced forecasts) (p : FixtureForecast → Bool) :
    DistinctlySequenced (forecasts.filter p) :=
  fun a ha b hb => h a (List.mem_filter.mp ha).1 b (List.mem_filter.mp hb).1

end Admitted

/-! ## What has no influence -/

/-- Two windows over the same forecasts, in whatever order. -/
theorem resolveWindow_congr {forecasts forecasts' : List FixtureForecast}
    (hsame : ∀ f, f ∈ forecasts ↔ f ∈ forecasts') (hsequenced : Sequenced forecasts)
    (hdistinct : DistinctlySequenced forecasts) :
    resolveWindow forecasts .latestBeforeClose = resolveWindow forecasts' .latestBeforeClose := by
  have hsequenced' : Sequenced forecasts' := fun f hf => hsequenced f ((hsame f).mpr hf)
  obtain ⟨selected, hok, hlatest⟩ := selectLatest_ok hsequenced
  obtain ⟨selected', hok', hlatest'⟩ := selectLatest_ok hsequenced'
  rw [hok, hok', hlatest.unique hsame hsequenced hdistinct hlatest']

/-- Two sets of inputs that differ in the order of what they score. -/
structure SameEvidence (inputs inputs' : EvaluationInputs) : Prop where
  resolutions : inputs.resolutions = inputs'.resolutions
  forecasts : ∀ f, f ∈ inputs.forecasts ↔ f ∈ inputs'.forecasts
  distinct : DistinctlySequenced inputs.forecasts
  records : inputs.executionRecords.Perm inputs'.executionRecords
  fills : (inputs.executionRecords.map (·.createdSequence)).Nodup

namespace SameEvidence

variable {inputs inputs' : EvaluationInputs}

/-- The window of the latest is the same, over any part of the forecasts. -/
theorem window (h : SameEvidence inputs inputs') (hsequenced : Sequenced inputs.forecasts) (p : FixtureForecast → Bool) :
    resolveWindow (inputs.forecasts.filter p) .latestBeforeClose =
      resolveWindow (inputs'.forecasts.filter p) .latestBeforeClose :=
  resolveWindow_congr (fun f => by rw [List.mem_filter, List.mem_filter, h.forecasts f])
    (hsequenced.filter p) (h.distinct.filter p)

theorem window_all (h : SameEvidence inputs inputs') (hsequenced : Sequenced inputs.forecasts) :
    resolveWindow inputs.forecasts .latestBeforeClose =
      resolveWindow inputs'.forecasts .latestBeforeClose :=
  resolveWindow_congr h.forecasts hsequenced h.distinct

/-- A score depends on its forecasts and on the resolutions alone. -/
theorem scoredPairs_with (h : SameEvidence inputs inputs') (forecasts : List FixtureForecast) :
    scoredPairs { inputs with forecasts := forecasts } =
      scoredPairs { inputs' with forecasts := forecasts } := by
  unfold scoredPairs
  dsimp only
  rw [h.resolutions]

end SameEvidence

/-- A score that is read off the scored pairs. -/
def OfPairs (metric : EvaluationInputs → Except MetricError ℤ) : Prop :=
  ∀ inputs inputs', scoredPairs inputs = scoredPairs inputs' → metric inputs = metric inputs'

theorem ofPairs_meanBrier : OfPairs meanBrier := by
  intro inputs inputs' h
  unfold meanBrier
  rw [h]

theorem ofPairs_brierSkill : OfPairs brierSkill := by
  intro inputs inputs' h
  unfold brierSkill
  rw [h]

theorem ofPairs_meanLogScore : OfPairs meanLogScore := by
  intro inputs inputs' h
  unfold meanLogScore
  rw [h]

theorem ofPairs_expectedCalibrationError : OfPairs expectedCalibrationError := by
  intro inputs inputs' h
  unfold expectedCalibrationError
  rw [h]

theorem ofPairs_calibrationSlope : OfPairs calibrationSlope := by
  intro inputs inputs' h
  unfold calibrationSlope
  rw [h]

theorem ofPairs_calibrationIntercept : OfPairs calibrationIntercept := by
  intro inputs inputs' h
  unfold calibrationIntercept
  rw [h]

theorem ofPairs_sharpness : OfPairs sharpness := by
  intro inputs inputs' h
  unfold sharpness
  rw [h]

namespace SameEvidence

variable {inputs inputs' : EvaluationInputs}

theorem ofWindow (h : SameEvidence inputs inputs') (hsequenced : Sequenced inputs.forecasts)
    {metric : EvaluationInputs → Except MetricError ℤ} (hmetric : OfPairs metric) :
    Metrics.ofWindow metric inputs = Metrics.ofWindow metric inputs' := by
  unfold Metrics.ofWindow windowed headlineObservationWindow
  rw [h.window_all hsequenced]
  cases resolveWindow inputs'.forecasts .latestBeforeClose with
  | error e => rfl
  | ok forecasts =>
      have hpairs := hmetric _ _ (h.scoredPairs_with forecasts)
      change (metric { inputs with forecasts := forecasts }) >>= _ =
        (metric { inputs' with forecasts := forecasts }) >>= _
      rw [hpairs]

theorem cohortMeanBrier (h : SameEvidence inputs inputs')
    (hsequenced : Sequenced inputs.forecasts) (cohort : Cohort) :
    Metrics.cohortMeanBrier inputs cohort .latestBeforeClose =
      Metrics.cohortMeanBrier inputs' cohort .latestBeforeClose := by
  unfold Metrics.cohortMeanBrier windowedCohortForecasts cohortForecasts resolvedCount
  rw [h.window hsequenced]
  refine bind_congr fun forecasts => ?_
  rw [ofPairs_meanBrier _ _ (h.scoredPairs_with forecasts), h.resolutions]

theorem liveBrierDegradation (h : SameEvidence inputs inputs')
    (hsequenced : Sequenced inputs.forecasts) (windowSize : ℕ) :
    Metrics.liveBrierDegradation inputs .latestBeforeClose windowSize =
      Metrics.liveBrierDegradation inputs' .latestBeforeClose windowSize := by
  have hdegradation : ∀ live paper, degradationOf inputs live paper =
      degradationOf inputs' live paper := by
    intro live paper
    unfold degradationOf
    rw [ofPairs_meanBrier _ _ (h.scoredPairs_with live),
      ofPairs_meanBrier _ _ (h.scoredPairs_with paper)]
  unfold Metrics.liveBrierDegradation resolvedTrackForecasts
  rw [h.window hsequenced, h.window hsequenced, h.resolutions]
  exact bind_congr fun live => bind_congr fun paper => hdegradation _ _

/-- Fills with sequences of their own are sorted back. -/
theorem windowedExecutionRecords (h : SameEvidence inputs inputs') :
    Metrics.windowedExecutionRecords inputs = Metrics.windowedExecutionRecords inputs' := by
  unfold Metrics.windowedExecutionRecords
  congr 1
  have hsorted : ∀ records : List ExecutionQualityRecord,
      (records.insertionSort fun a b => a.createdSequence ≥ b.createdSequence).Pairwise
        fun a b => a.createdSequence ≥ b.createdSequence := by
    intro records
    have htotal : Std.Total fun a b : ExecutionQualityRecord =>
        a.createdSequence ≥ b.createdSequence := ⟨fun a b => le_total ..⟩
    have htrans : IsTrans ExecutionQualityRecord fun a b =>
        a.createdSequence ≥ b.createdSequence := ⟨fun a b c hab hbc => le_trans hbc hab⟩
    exact List.pairwise_insertionSort _ records
  have hperm := ((List.perm_insertionSort (fun a b : ExecutionQualityRecord =>
    a.createdSequence ≥ b.createdSequence) inputs.executionRecords).trans h.records).trans
      (List.perm_insertionSort (fun a b : ExecutionQualityRecord =>
        a.createdSequence ≥ b.createdSequence) inputs'.executionRecords).symm
  refine hperm.eq_of_pairwise (fun a b ha hb hab hba => ?_) (hsorted _) (hsorted _)
  have hin := (List.mem_insertionSort _).mp ha
  have hin' := h.records.mem_iff.mpr ((List.mem_insertionSort _).mp hb)
  exact List.inj_on_of_nodup_map h.fills hin hin' (le_antisymm hba hab)

end SameEvidence

/-- **Order and rejections have no influence**: inputs whose admitted forecasts are the same, in
whatever order and with whatever rejected ones among them, get the same value from every metric. -/
theorem registered_order_free {inputs inputs' : EvaluationInputs} {temporal : TemporalContext}
    (htemporal : inputs.temporal = some temporal) (htemporal' : inputs'.temporal = some temporal)
    (hsame : SameEvidence (admittedInputs inputs temporal) (admittedInputs inputs' temporal))
    {spec : MetricSpec} (hspec : spec ∈ seedMetricSpecs) :
    spec.compute inputs = spec.compute inputs' := by
  have hsequenced := admitted_sequenced inputs temporal
  unfold MetricSpec.compute
  rw [gatedCompute_eq htemporal, gatedCompute_eq htemporal']
  congr 1
  simp only [seedMetricSpecs, List.mem_cons, List.not_mem_nil, or_false] at hspec
  rcases hspec with rfl | rfl | rfl | rfl | rfl | rfl | rfl | rfl | rfl | rfl | rfl
  · exact hsame.ofWindow hsequenced ofPairs_meanBrier
  · exact hsame.ofWindow hsequenced ofPairs_brierSkill
  · exact hsame.ofWindow hsequenced ofPairs_meanLogScore
  · exact hsame.ofWindow hsequenced ofPairs_expectedCalibrationError
  · exact hsame.ofWindow hsequenced ofPairs_calibrationSlope
  · exact hsame.ofWindow hsequenced ofPairs_calibrationIntercept
  · exact hsame.ofWindow hsequenced ofPairs_sharpness
  · change emptyUndefined (tradedVsSkippedBrierDelta _ _) = emptyUndefined (tradedVsSkippedBrierDelta _ _)
    unfold tradedVsSkippedBrierDelta headlineObservationWindow
    rw [hsame.cohortMeanBrier hsequenced, hsame.cohortMeanBrier hsequenced]
  · rfl
  · change computeLiveSlippageRatio _ = computeLiveSlippageRatio _
    unfold computeLiveSlippageRatio
    rw [hsame.windowedExecutionRecords]
  · change emptyUndefined (liveBrierDegradation _ _ _) = emptyUndefined (liveBrierDegradation _ _ _)
    unfold headlineObservationWindow
    rw [hsame.liveBrierDegradation hsequenced]

theorem sameEvidence_shuffled : SameEvidence (admittedInputs twoForecasts twoResolved)
    (admittedInputs shuffledForecasts twoResolved) where
  resolutions := rfl
  forecasts f := by
    have hshuffled : (admittedInputs shuffledForecasts twoResolved).forecasts =
        [forecastAt "B" 3 800000, forecastAt "A" 2 200000] := by decide +kernel
    have htwo : (admittedInputs twoForecasts twoResolved).forecasts =
        [forecastAt "A" 2 200000, forecastAt "B" 3 800000] := by decide +kernel
    rw [hshuffled, htwo]
    exact (List.Perm.swap ..).mem_iff
  distinct := by
    unfold DistinctlySequenced
    decide +kernel
  records := .refl _
  fills := List.nodup_nil

theorem registered_order_free_shuffled :
    MetricSpec.compute ⟨"brier", .forecast, .latestBeforeClose, computeBrier⟩ twoForecasts =
      MetricSpec.compute ⟨"brier", .forecast, .latestBeforeClose, computeBrier⟩
        shuffledForecasts :=
  registered_order_free rfl rfl sameEvidence_shuffled (.head _)

end Windbreak.Metrics
