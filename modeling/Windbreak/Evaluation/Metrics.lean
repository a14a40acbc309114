import Mathlib.Data.List.Sort
import Windbreak.Core.BinaryLog
import Windbreak.Core.Effects
import Windbreak.Evaluation.Inputs
import Windbreak.Numeric.Rounding

/-!
# The forecast metrics

Every metric joins the forecasts to the outcomes of their markets, adds up integers in parts per
million and divides once, against the forecaster.

* `scoredPairs` — the resolved forecasts, of which there has to be one.
* `meanBrier`, `brierSkill`, `meanLogScore`, `expectedCalibrationError`, `calibrationSlope`,
  `calibrationIntercept`, `sharpness` — the metrics, each with the sums it is the quotient of.
-/

namespace Windbreak.Metrics

/-! ## Errors -/

/-- What a metric raises.  All but the division by zero are value errors. -/
inductive MetricError where
  | noResolvedForecasts
  | undefinedMetric (text : String)
  | emptyCohort (text : String)
  | zeroModeledCost
  | unsequenced (forecastId : String)
  | valueError (text : String)
  | zeroDivision (text : String)
  deriving DecidableEq, Repr

/-- `divide`, among the metrics. -/
def divided (numerator denominator : ℤ) (rounding : RoundingDirection) : Except MetricError ℤ :=
  (divide numerator denominator rounding).mapError .zeroDivision

theorem divided_of_ne_zero {d : ℤ} (hd : d ≠ 0) (n : ℤ) (rounding : RoundingDirection) :
    divided n d rounding = .ok (quotient n d rounding) := by
  rw [divided, divide_of_ne_zero hd]
  rfl

/-! ## Scored pairs -/

/-- The ppm of a probability of one. -/
def ppmScale : ℤ := 1000000

/-- The outcome of a market as a certainty. -/
def outcomePpm : ResolutionOutcome → ℤ
  | .yes => 1000000
  | .no => 0

/-- A resolved forecast, joined to the outcome of its market. -/
structure ScoredPair where
  probabilityPpm : ℤ
  outcomePpm : ℤ
  baselinePpm : ℤ
  baselinePips : ℤ
  traded : Bool
  probability_ppm : 0 ≤ probabilityPpm ∧ probabilityPpm ≤ 1000000
  outcome_ppm : outcomePpm = 0 ∨ outcomePpm = 1000000

/-- `_scored_pair` -/
def scoredPair (forecast : FixtureForecast) (outcome : ResolutionOutcome) : ScoredPair where
  probabilityPpm := forecast.probabilityPpm
  outcomePpm := outcomePpm outcome
  baselinePpm := forecast.baselineExecutablePricePips * 100
  baselinePips := forecast.baselineExecutablePricePips
  traded := forecast.traded
  probability_ppm := forecast.probability_ppm
  outcome_ppm := by cases outcome <;> simp [outcomePpm]

/-- The forecasts whose market has settled, each joined to the outcome. -/
def resolvedPairs (forecasts : List FixtureForecast)
    (resolutions : OrderedDict String ResolutionOutcome) : List ScoredPair :=
  forecasts.filterMap fun forecast =>
    (resolutions.get? forecast.marketTicker).map (scoredPair forecast)

/-- `_scored_pairs` -/
def scoredPairs (inputs : EvaluationInputs) : Except MetricError (List ScoredPair) :=
  let pairs := resolvedPairs inputs.forecasts inputs.resolutions
  if pairs.isEmpty then .error .noResolvedForecasts else .ok pairs

/-- `_forecast_term` -/
def forecastTerm (pair : ScoredPair) : ℤ := (pair.probabilityPpm - pair.outcomePpm) ^ 2

/-- `_baseline_term` -/
def baselineTerm (pair : ScoredPair) : ℤ := (pair.baselinePpm - pair.outcomePpm) ^ 2

/-! ## Brier score and skill -/

/-- `mean_brier` -/
def meanBrier (inputs : EvaluationInputs) : Except MetricError ℤ := do
  let pairs ← scoredPairs inputs
  divided (pairs.map forecastTerm).sum (pairs.length * ppmScale) .overstateCost

/-- The skill against a baseline that made no error. -/
def skillUndefined : MetricError :=
  .undefinedMetric "baseline Brier-term sum is zero; skill is undefined"

/-- `_skill_from_term_sums` -/
def skillFromTermSums (forecastSum baselineSum : ℤ) : Except MetricError ℤ :=
  if baselineSum = 0 then .error skillUndefined
  else divided ((baselineSum - forecastSum) * ppmScale) baselineSum .understateEquity

/-- `brier_skill` -/
def brierSkill (inputs : EvaluationInputs) : Except MetricError ℤ := do
  let pairs ← scoredPairs inputs
  skillFromTermSums (pairs.map forecastTerm).sum (pairs.map baselineTerm).sum

/-! ## Log score -/

/-- The natural logarithm of two in units of `10⁻¹⁸`, cut off. -/
def ln2ScaledE18 : ℤ := 693147180559945309

/-- The binary places of a fixed-point logarithm. -/
def log2FractionBits : ℕ := 64

/-- What turns a fixed-point logarithm times `ln2ScaledE18` into micro-nats. -/
def logScoreDenominator : ℤ := 2 ^ log2FractionBits * (10 ^ 18 / ppmScale)

/-- `_log2_reciprocal_fixed` -/
def log2ReciprocalFixed (argPpm : ℕ+) : ℕ :=
  BinaryLog.fixedLog log2FractionBits 1000000 argPpm

/-- The surprise at what was held impossible. -/
def surpriseUndefined : MetricError :=
  .undefinedMetric "log-score probability is 0 (certain-wrong); -ln(0) diverges"

/-- `_ln_micro_nats`: the surprise, in micro-nats, at an outcome that was given this probability. -/
def lnMicroNats (argPpm : ℕ) : Except MetricError ℤ :=
  if hzero : argPpm = 0 then .error surpriseUndefined
  else if argPpm = 1000000 then .ok 0
  else divided (log2ReciprocalFixed ⟨argPpm, Nat.pos_of_ne_zero hzero⟩ * ln2ScaledE18)
    logScoreDenominator .overstateCost

/-- `_observed_argument`: the probability that the forecast gave to what happened. -/
def observedArgument (pair : ScoredPair) : ℕ :=
  if pair.outcomePpm = 1000000 then pair.probabilityPpm.toNat
  else (ppmScale - pair.probabilityPpm).toNat

/-- `mean_log_score` -/
def meanLogScore (inputs : EvaluationInputs) : Except MetricError ℤ := do
  let pairs ← scoredPairs inputs
  let terms ← pairs.mapM fun pair => lnMicroNats (observedArgument pair)
  divided terms.sum pairs.length .overstateCost

/-! ## Calibration error -/

/-- The number of bins. -/
def eceBinCount : ℕ := 10

/-- `_bin_index` -/
def binIndex (probabilityPpm : ℤ) : ℕ := (min (probabilityPpm / 100000) 9).toNat

/-- What the bins add up to. -/
structure BinTotals where
  probabilitySums : ℕ → ℤ
  yesCounts : ℕ → ℤ

/-- One forecast into its bin. -/
def BinTotals.add (totals : BinTotals) (pair : ScoredPair) : BinTotals where
  probabilitySums := Function.update totals.probabilitySums (binIndex pair.probabilityPpm)
    (totals.probabilitySums (binIndex pair.probabilityPpm) + pair.probabilityPpm)
  yesCounts :=
    if pair.outcomePpm = 1000000 then
      Function.update totals.yesCounts (binIndex pair.probabilityPpm)
        (totals.yesCounts (binIndex pair.probabilityPpm) + 1)
    else totals.yesCounts

/-- The bins of some forecasts. -/
def binTotals (pairs : List ScoredPair) : BinTotals :=
  pairs.foldl BinTotals.add ⟨fun _ => 0, fun _ => 0⟩

/-- `expected_calibration_error` -/
def expectedCalibrationError (inputs : EvaluationInputs) : Except MetricError ℤ := do
  let pairs ← scoredPairs inputs
  let totals := binTotals pairs
  let total := ((List.range eceBinCount).map fun index =>
    |totals.probabilitySums index - totals.yesCounts index * ppmScale|).sum
  divided total pairs.length .overstateCost

/-! ## Calibration line -/

/-- The running sums of a least-squares fit of the outcome on the forecast. -/
structure OlsSums where
  count : ℤ
  probabilitySum : ℤ
  outcomeSum : ℤ
  probabilitySquareSum : ℤ
  productSum : ℤ

/-- The variance, times the squared count. -/
def OlsSums.varianceNumerator (sums : OlsSums) : ℤ :=
  sums.count * sums.probabilitySquareSum - sums.probabilitySum ^ 2

/-- The covariance, times the squared count. -/
def OlsSums.covarianceNumerator (sums : OlsSums) : ℤ :=
  sums.count * sums.productSum - sums.probabilitySum * sums.outcomeSum

/-- `_ols_sums` -/
def olsSums (pairs : List ScoredPair) : OlsSums where
  count := pairs.length
  probabilitySum := (pairs.map (·.probabilityPpm)).sum
  outcomeSum := (pairs.map (·.outcomePpm)).sum
  probabilitySquareSum := (pairs.map fun pair => pair.probabilityPpm ^ 2).sum
  productSum := (pairs.map fun pair => pair.probabilityPpm * pair.outcomePpm).sum

/-- The calibration line of a forecast that does not vary. -/
def slopeUndefined : MetricError :=
  .undefinedMetric "forecast variance is zero; calibration slope is undefined"

/-- `_require_forecast_variance` -/
def requireForecastVariance (sums : OlsSums) : Except MetricError ℤ :=
  if sums.varianceNumerator = 0 then .error slopeUndefined
  else .ok sums.varianceNumerator

/-- `calibration_slope` -/
def calibrationSlope (inputs : EvaluationInputs) : Except MetricError ℤ := do
  let sums := olsSums (← scoredPairs inputs)
  let varianceNumerator ← requireForecastVariance sums
  divided (sums.covarianceNumerator * ppmScale) varianceNumerator .understateEquity

/-- `calibration_intercept` -/
def calibrationIntercept (inputs : EvaluationInputs) : Except MetricError ℤ := do
  let sums := olsSums (← scoredPairs inputs)
  let varianceNumerator ← requireForecastVariance sums
  let numerator :=
    sums.outcomeSum * varianceNumerator - sums.covarianceNumerator * sums.probabilitySum
  divided numerator (sums.count * varianceNumerator) .understateEquity

/-- `sharpness` -/
def sharpness (inputs : EvaluationInputs) : Except MetricError ℤ := do
  let sums := olsSums (← scoredPairs inputs)
  divided sums.varianceNumerator (sums.count * sums.count * ppmScale) .understateEquity

/-! ## What each metric is the quotient of -/

section Quotients

variable {inputs : EvaluationInputs} {pairs : List ScoredPair}

theorem scoredPairs_ok_iff : scoredPairs inputs = .ok pairs ↔
    resolvedPairs inputs.forecasts inputs.resolutions = pairs ∧ pairs ≠ [] := by
  unfold scoredPairs
  dsimp only
  split_ifs with hempty
  · rw [List.isEmpty_iff] at hempty
    constructor
    · intro h
      cases h
    · rintro ⟨rfl, hne⟩
      exact absurd hempty hne
  · rw [List.isEmpty_iff] at hempty
    refine ⟨?_, fun h => congrArg Except.ok h.1⟩
    intro h
    cases h
    exact ⟨rfl, hempty⟩

/-- Without a resolved forecast nothing is scored. -/
theorem scoredPairs_error_iff {e : MetricError} : scoredPairs inputs = .error e ↔
    resolvedPairs inputs.forecasts inputs.resolutions = [] ∧ e = .noResolvedForecasts := by
  unfold scoredPairs
  dsimp only
  split_ifs with hempty
  · rw [List.isEmpty_iff] at hempty
    constructor
    · intro h
      cases h
      exact ⟨hempty, rfl⟩
    · rintro ⟨-, rfl⟩
      rfl
  · rw [List.isEmpty_iff] at hempty
    constructor
    · intro h
      cases h
    · exact fun h => absurd h.1 hempty

theorem count_pos (h : pairs ≠ []) : 0 < (pairs.length : ℤ) := by
  exact_mod_cast List.length_pos_iff.mpr h

/-- The pairs are handed on. -/
theorem handed_on (pairs : List ScoredPair) (score : List ScoredPair → Except MetricError ℤ) :
    (Except.ok pairs >>= score) = score pairs := rfl

theorem meanBrier_eq (h : scoredPairs inputs = .ok pairs) : meanBrier inputs =
    .ok (quotient (pairs.map forecastTerm).sum (pairs.length * 1000000) .overstateCost) := by
  have hcount := count_pos (scoredPairs_ok_iff.mp h).2
  unfold meanBrier ppmScale
  rw [h, handed_on]
  exact divided_of_ne_zero (by omega) ..

theorem brierSkill_eq (h : scoredPairs inputs = .ok pairs) : brierSkill inputs =
    skillFromTermSums (pairs.map forecastTerm).sum (pairs.map baselineTerm).sum := by
  unfold brierSkill
  rw [h]
  rfl

theorem expectedCalibrationError_eq (h : scoredPairs inputs = .ok pairs) :
    expectedCalibrationError inputs = .ok (quotient ((List.range eceBinCount).map fun index =>
      |(binTotals pairs).probabilitySums index - (binTotals pairs).yesCounts index * 1000000|).sum
        pairs.length .overstateCost) := by
  have hcount := count_pos (scoredPairs_ok_iff.mp h).2
  unfold expectedCalibrationError ppmScale
  rw [h, handed_on]
  exact divided_of_ne_zero hcount.ne' ..

theorem sharpness_eq (h : scoredPairs inputs = .ok pairs) : sharpness inputs =
    .ok (quotient (olsSums pairs).varianceNumerator
      (pairs.length * pairs.length * 1000000) .understateEquity) := by
  have hcount := count_pos (scoredPairs_ok_iff.mp h).2
  have hsquare : (pairs.length * pairs.length : ℤ) ≠ 0 := mul_ne_zero hcount.ne' hcount.ne'
  unfold sharpness ppmScale
  rw [h, handed_on]
  exact divided_of_ne_zero (mul_ne_zero hsquare (by decide)) ..

theorem calibrationSlope_eq (h : scoredPairs inputs = .ok pairs)
    (hvar : (olsSums pairs).varianceNumerator ≠ 0) : calibrationSlope inputs =
    .ok (quotient ((olsSums pairs).covarianceNumerator * 1000000)
      (olsSums pairs).varianceNumerator .understateEquity) := by
  unfold calibrationSlope requireForecastVariance
  rw [h]
  change (if _ then _ else _ : Except MetricError ℤ) >>= _ = _
  rw [if_neg hvar]
  exact divided_of_ne_zero hvar ..

theorem calibrationIntercept_eq (h : scoredPairs inputs = .ok pairs)
    (hvar : (olsSums pairs).varianceNumerator ≠ 0) : calibrationIntercept inputs =
    .ok (quotient ((olsSums pairs).outcomeSum * (olsSums pairs).varianceNumerator -
        (olsSums pairs).covarianceNumerator * (olsSums pairs).probabilitySum)
      (pairs.length * (olsSums pairs).varianceNumerator) .understateEquity) := by
  have hcount := count_pos (scoredPairs_ok_iff.mp h).2
  unfold calibrationIntercept requireForecastVariance
  rw [h]
  change (if _ then _ else _ : Except MetricError ℤ) >>= _ = _
  rw [if_neg hvar]
  exact divided_of_ne_zero (mul_ne_zero hcount.ne' hvar) ..

/-- A flat forecast has no calibration line. -/
theorem calibration_flat (h : scoredPairs inputs = .ok pairs)
    (hvar : (olsSums pairs).varianceNumerator = 0) :
    calibrationSlope inputs = .error slopeUndefined ∧
      calibrationIntercept inputs = .error slopeUndefined := by
  unfold calibrationSlope calibrationIntercept requireForecastVariance
  rw [h]
  constructor
  · change (if _ then _ else _ : Except MetricError ℤ) >>= _ = _
    rw [if_pos hvar]
    rfl
  · change (if _ then _ else _ : Except MetricError ℤ) >>= _ = _
    rw [if_pos hvar]
    rfl

end Quotients

/-! ## Two forecasts -/

theorem ppm_range (probabilityPpm : Fin 1000001) :
    0 ≤ (probabilityPpm.val : ℤ) ∧ (probabilityPpm.val : ℤ) ≤ 1000000 := by
  omega

/-- A forecast that was not traded, against a price of a half. -/
def forecastAt (marketTicker : String) (createdSequence : ℤ) (probabilityPpm : Fin 1000001) :
    FixtureForecast where
  forecastId := marketTicker
  marketTicker := marketTicker
  probabilityPpm := probabilityPpm.val
  eligibleForLive := true
  abstentionReason := none
  traded := false
  baselineExecutablePricePips := 5000
  createdSequence := some createdSequence
  live := false
  probability_ppm := ppm_range probabilityPpm

/-- A deployment before the forecasts and resolutions after them. -/
def twoResolved : TemporalContext where
  deploymentSequence := 1
  resolutionSequences := (OrderedDict.empty.set "A" 10).set "B" 10

/-- Two markets, forecast at a fifth and at four fifths; the first settled no, the second yes. -/
def twoForecasts : EvaluationInputs where
  forecasts := [forecastAt "A" 2 200000, forecastAt "B" 3 800000]
  resolutions := (OrderedDict.empty.set "A" .no).set "B" .yes
  temporal := some twoResolved
  executionRecords := []

/-- The two forecasts in the other order, after one that was made too late. -/
def shuffledForecasts : EvaluationInputs where
  forecasts := [forecastAt "A" 12 900000, forecastAt "B" 3 800000, forecastAt "A" 2 200000]
  resolutions := twoForecasts.resolutions
  temporal := some twoResolved
  executionRecords := []

/-- The two forecasts, but certain of the first market, and wrong. -/
def certainlyWrong : EvaluationInputs where
  forecasts := [forecastAt "A" 2 1000000, forecastAt "B" 3 800000]
  resolutions := twoForecasts.resolutions
  temporal := some twoResolved
  executionRecords := []

end Windbreak.Metrics
