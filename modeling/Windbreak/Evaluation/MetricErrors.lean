import Windbreak.Evaluation.LogScore
import Windbreak.Evaluation.RegisteredMetrics

/-!
# When a metric raises

Over gated inputs four of the eleven metrics can raise, and each for one reason, which can be read
off the scored forecasts; the others have a value or are undefined.

* `Raises` — which metric raises on which scored forecasts.
* **`registered_raises_iff`** — that is all.
-/

namespace Windbreak.Metrics

open Moments

/-- Every executable price was right. -/
def Flawless (pairs : List ScoredPair) : Prop :=
  pairs ≠ [] ∧ ∀ pair ∈ pairs, pair.baselinePpm = pair.outcomePpm

/-- All forecasts are the same. -/
def Flat (pairs : List ScoredPair) : Prop :=
  pairs ≠ [] ∧ ∀ x ∈ pairs, ∀ y ∈ pairs, x.probabilityPpm = y.probabilityPpm

/-- What a registered metric raises, over the forecasts it scores. -/
def Raises (pairs : List ScoredPair) (name : String) (e : MetricError) : Prop :=
  name = "brier_skill_vs_executable_price" ∧ e = skillUndefined ∧ Flawless pairs ∨
  name = "log_score" ∧ e = surpriseUndefined ∧ (∃ pair ∈ pairs, pair.CertainWrong) ∨
  (name = "calibration_slope" ∨ name = "calibration_intercept") ∧ e = slopeUndefined ∧ Flat pairs

section Raises

variable {pairs : List ScoredPair} {e : MetricError}

theorem raises_skill : Raises pairs "brier_skill_vs_executable_price" e ↔
    e = skillUndefined ∧ Flawless pairs := by
  simp [Raises]

theorem raises_logScore : Raises pairs "log_score" e ↔
    e = surpriseUndefined ∧ ∃ pair ∈ pairs, pair.CertainWrong := by
  simp [Raises]

theorem raises_slope : Raises pairs "calibration_slope" e ↔ e = slopeUndefined ∧ Flat pairs := by
  simp [Raises]

theorem raises_intercept :
    Raises pairs "calibration_intercept" e ↔ e = slopeUndefined ∧ Flat pairs := by
  simp [Raises]

/-- The other metrics raise nothing. -/
theorem not_raises {name : String} (h : name ∉ ["brier_skill_vs_executable_price", "log_score",
    "calibration_slope", "calibration_intercept"]) : ¬ Raises pairs name e := by
  simp only [List.mem_cons, List.not_mem_nil, or_false, not_or] at h
  rintro (⟨hname, -⟩ | ⟨hname, -⟩ | ⟨hname | hname, -⟩)
  · exact h.1 hname
  · exact h.2.1 hname
  · exact h.2.2.1 hname
  · exact h.2.2.2 hname

end Raises

/-! ## The errors of a score -/

section Errors

variable {inputs : EvaluationInputs} {e : MetricError}

theorem meanBrier_error (h : meanBrier inputs = .error e) : e = .noResolvedForecasts := by
  by_cases hne : pairsOf inputs = []
  · unfold meanBrier at h
    rw [scoredPairs_of_nil hne] at h
    exact (Except.error.inj h).symm
  · rw [meanBrier_eq (scoredPairs_of_ne hne)] at h
    cases h

theorem expectedCalibrationError_error (h : expectedCalibrationError inputs = .error e) :
    e = .noResolvedForecasts := by
  by_cases hne : pairsOf inputs = []
  · unfold expectedCalibrationError at h
    rw [scoredPairs_of_nil hne] at h
    exact (Except.error.inj h).symm
  · rw [expectedCalibrationError_eq (scoredPairs_of_ne hne)] at h
    cases h

theorem sharpness_error (h : sharpness inputs = .error e) : e = .noResolvedForecasts := by
  by_cases hne : pairsOf inputs = []
  · unfold sharpness at h
    rw [scoredPairs_of_nil hne] at h
    exact (Except.error.inj h).symm
  · rw [sharpness_eq (scoredPairs_of_ne hne)] at h
    cases h

/-- Prices that were all right made no error. -/
theorem baselineTerms_eq_zero_iff {pairs : List ScoredPair} :
    (pairs.map baselineTerm).sum = 0 ↔ ∀ pair ∈ pairs, pair.baselinePpm = pair.outcomePpm := by
  induction pairs with
  | nil => simp
  | cons pair rest ih =>
      have hterm : 0 ≤ baselineTerm pair := sq_nonneg _
      have hrest := baselineTerms_nonneg rest
      have hzero : baselineTerm pair = 0 ↔ pair.baselinePpm = pair.outcomePpm := by
        rw [baselineTerm, pow_eq_zero_iff two_ne_zero, sub_eq_zero]
      rw [List.map_cons, List.sum_cons, List.forall_mem_cons, ← ih, ← hzero]
      omega

theorem brierSkill_error_iff (hresolved : e ≠ .noResolvedForecasts) :
    brierSkill inputs = .error e ↔ e = skillUndefined ∧ Flawless (pairsOf inputs) := by
  by_cases hne : pairsOf inputs = []
  · have hskill : brierSkill inputs = .error .noResolvedForecasts := by
      unfold brierSkill
      rw [scoredPairs_of_nil hne]
      rfl
    rw [hskill, Except.error.injEq]
    exact ⟨fun h => absurd h.symm hresolved, fun h => absurd hne h.2.1⟩
  · rw [brierSkill_eq (scoredPairs_of_ne hne), skillFromTermSums]
    split_ifs with hzero
    · rw [Except.error.injEq]
      exact ⟨fun h => ⟨h.symm, hne, baselineTerms_eq_zero_iff.mp hzero⟩, fun h => h.1.symm⟩
    · rw [divided_of_ne_zero hzero]
      constructor
      · intro h
        cases h
      · exact fun h => absurd (baselineTerms_eq_zero_iff.mpr h.2.2) hzero

theorem meanLogScore_error_iff (hresolved : e ≠ .noResolvedForecasts) :
    meanLogScore inputs = .error e ↔
      e = surpriseUndefined ∧ ∃ pair ∈ pairsOf inputs, pair.CertainWrong := by
  by_cases hsome : ∃ pair ∈ pairsOf inputs, pair.CertainWrong
  · rw [meanLogScore_of_wrong hsome, Except.error.injEq]
    exact ⟨fun h => ⟨h.symm, hsome⟩, fun h => h.1.symm⟩
  by_cases hne : pairsOf inputs = []
  · have hscore : meanLogScore inputs = .error .noResolvedForecasts := by
      unfold meanLogScore
      rw [scoredPairs_of_nil hne]
      rfl
    rw [hscore, Except.error.injEq]
    exact ⟨fun h => absurd h.symm hresolved, fun h => absurd h.2 hsome⟩
  · obtain ⟨value, hvalue, -⟩ :=
      meanLogScore_of_possible hne fun pair hmem hpair => hsome ⟨pair, hmem, hpair⟩
    rw [hvalue]
    constructor
    · intro h
      cases h
    · exact fun h => absurd h.2 hsome

/-- Flat forecasts are those without a variance. -/
theorem flat_iff {pairs : List ScoredPair} (hne : pairs ≠ []) :
    (olsSums pairs).varianceNumerator = 0 ↔ Flat pairs := by
  constructor
  · intro hvar
    refine ⟨hne, fun x hx y hy => ?_⟩
    by_contra hdiffer
    exact (varianceNumerator_ne_zero_iff hne).mpr
      ((forecast_varies_iff hne).mpr ⟨x, hx, y, hy, hdiffer⟩) hvar
  · rintro ⟨-, hflat⟩
    by_contra hvar
    obtain ⟨x, hx, y, hy, hdiffer⟩ :=
      (forecast_varies_iff hne).mp ((varianceNumerator_ne_zero_iff hne).mp hvar)
    exact hdiffer (hflat x hx y hy)

/-- A calibration line fails as the forecasts are flat, whichever end of it is asked for. -/
theorem calibration_error_iff (hresolved : e ≠ .noResolvedForecasts) :
    (calibrationSlope inputs = .error e ↔ e = slopeUndefined ∧ Flat (pairsOf inputs)) ∧
      (calibrationIntercept inputs = .error e ↔ e = slopeUndefined ∧ Flat (pairsOf inputs)) := by
  by_cases hne : pairsOf inputs = []
  · have hslope : calibrationSlope inputs = .error .noResolvedForecasts := by
      unfold calibrationSlope
      rw [scoredPairs_of_nil hne]
      rfl
    have hintercept : calibrationIntercept inputs = .error .noResolvedForecasts := by
      unfold calibrationIntercept
      rw [scoredPairs_of_nil hne]
      rfl
    rw [hslope, hintercept, Except.error.injEq]
    exact ⟨⟨fun h => absurd h.symm hresolved, fun h => absurd hne h.2.1⟩,
      fun h => absurd h.symm hresolved, fun h => absurd hne h.2.1⟩
  have hpairs := scoredPairs_of_ne hne
  by_cases hvar : (olsSums (pairsOf inputs)).varianceNumerator = 0
  · have hflat := (flat_iff hne).mp hvar
    obtain ⟨hslope, hintercept⟩ := calibration_flat hpairs hvar
    rw [hslope, hintercept, Except.error.injEq]
    exact ⟨⟨fun h => ⟨h.symm, hflat⟩, fun h => h.1.symm⟩, fun h => ⟨h.symm, hflat⟩,
      fun h => h.1.symm⟩
  · have hvaries := mt (flat_iff hne).mpr hvar
    rw [calibrationSlope_eq hpairs hvar, calibrationIntercept_eq hpairs hvar]
    refine ⟨⟨fun h => ?_, fun h => absurd h.2 hvaries⟩,
      fun h => ?_, fun h => absurd h.2 hvaries⟩ <;> cases h

end Errors

/-! ## The errors of a metric -/

section Registered

variable {inputs : EvaluationInputs} {e : MetricError}

theorem unresolvedUndefined_error_iff {result : Except MetricError MetricValue} :
    unresolvedUndefined result = .error e ↔ result = .error e ∧ e ≠ .noResolvedForecasts := by
  rcases result with f | value
  · cases f <;> simp [unresolvedUndefined] <;> grind
  · simp [unresolvedUndefined]

/-- A metric of the window fails as its score does. -/
theorem ofWindow_error_iff {selected : List FixtureForecast}
    {metric : EvaluationInputs → Except MetricError ℤ}
    (h : resolveWindow inputs.forecasts .latestBeforeClose = .ok selected) :
    unresolvedUndefined (ofWindow metric inputs) = .error e ↔
      metric { inputs with forecasts := selected } = .error e ∧ e ≠ .noResolvedForecasts := by
  rw [unresolvedUndefined_error_iff]
  refine and_congr_left fun _ => ?_
  unfold ofWindow windowed headlineObservationWindow
  rw [h]
  change (metric { inputs with forecasts := selected }) >>= _ = _ ↔ _
  cases metric { inputs with forecasts := selected } with
  | error e' =>
      constructor <;>
        · intro herror
          cases herror
          rfl
  | ok value =>
      constructor <;>
        · intro hok
          cases hok

/-- One forecast with a settled market is enough for a mean. -/
theorem meanBrier_of_resolved (inputs : EvaluationInputs) {forecasts : List FixtureForecast}
    (h : ∃ forecast ∈ forecasts, (inputs.resolutions.get? forecast.marketTicker).isSome) :
    ∃ ppm, meanBrier { inputs with forecasts := forecasts } = .ok ppm := by
  obtain ⟨forecast, hmem, hsome⟩ := h
  obtain ⟨outcome, houtcome⟩ := Option.isSome_iff_exists.mp hsome
  have hpair : scoredPair forecast outcome ∈ pairsOf { inputs with forecasts := forecasts } := by
    refine List.mem_filterMap.mpr ⟨forecast, hmem, ?_⟩
    dsimp only
    rw [houtcome]
    rfl
  exact ⟨_, meanBrier_eq (scoredPairs_of_ne (List.ne_nil_of_mem hpair))⟩

/-- The mean of a cohort fails only when the cohort is empty. -/
theorem cohortMeanBrier_cases (h : Sequenced inputs.forecasts) (cohort : Cohort) :
    (∃ ppm, cohortMeanBrier inputs cohort .latestBeforeClose = .ok ppm) ∨
      cohortMeanBrier inputs cohort .latestBeforeClose = .error (emptyCohort cohort) := by
  obtain ⟨selected, hselected, -⟩ := selectLatest_ok (h.filter fun forecast =>
    cohort ∈ assignCohorts forecast)
  have hmean : cohortMeanBrier inputs cohort .latestBeforeClose =
      if resolvedCount selected inputs = 0 then .error (emptyCohort cohort)
      else meanBrier { inputs with forecasts := selected } := by
    unfold cohortMeanBrier windowedCohortForecasts cohortForecasts
    rw [hselected]
    rfl
  rw [hmean]
  split_ifs with hcount
  · exact .inr rfl
  · refine .inl ?_
    obtain ⟨forecast, hmem, hresolved⟩ := List.countP_pos_iff.mp (Nat.pos_of_ne_zero hcount)
    exact meanBrier_of_resolved inputs ⟨forecast, hmem, hresolved⟩

theorem tradedVsSkipped_ok (h : Sequenced inputs.forecasts) :
    ∃ value, computeTradedVsSkippedBrierDelta inputs = .ok value := by
  unfold computeTradedVsSkippedBrierDelta tradedVsSkippedBrierDelta headlineObservationWindow
  rcases cohortMeanBrier_cases h .skipped with ⟨skipped, hskipped⟩ | hskipped
  · rcases cohortMeanBrier_cases h .traded with ⟨traded, htraded⟩ | htraded
    · rw [hskipped, htraded]
      exact ⟨_, rfl⟩
    · rw [hskipped, htraded]
      exact ⟨.undefined, rfl⟩
  · rw [hskipped]
    exact ⟨.undefined, rfl⟩

theorem liveSlippageRatio_ok : ∃ value, computeLiveSlippageRatio inputs = .ok value := by
  unfold computeLiveSlippageRatio liveSlippageRatio
  split_ifs with hnil hzero
  · exact ⟨_, rfl⟩
  · exact ⟨_, rfl⟩
  · rw [divided_of_ne_zero hzero]
    exact ⟨_, rfl⟩

/-- What a track leaves of the window has a settled market. -/
theorem trackForecasts_resolved {live : Bool} {selected : List FixtureForecast}
    (h : IsLatest (resolvedTrackForecasts inputs live) selected) :
    ∀ forecast ∈ selected, (inputs.resolutions.get? forecast.marketTicker).isSome := by
  intro forecast hmem
  have hin := (List.mem_filter.mp (h.mem forecast hmem)).2
  simp only [Bool.and_eq_true] at hin
  exact hin.1.2

theorem resolvedTrack_sequenced (h : Sequenced inputs.forecasts) (live : Bool) :
    Sequenced (resolvedTrackForecasts inputs live) := h.filter _

theorem liveBrierDegradation_ok (h : Sequenced inputs.forecasts) :
    ∃ value, computeLiveBrierDegradation inputs = .ok value := by
  obtain ⟨live, hlive, hliveLatest⟩ := selectLatest_ok (resolvedTrack_sequenced h true)
  obtain ⟨paper, hpaper, hpaperLatest⟩ := selectLatest_ok (resolvedTrack_sequenced h false)
  have hdegradation : liveBrierDegradation inputs .latestBeforeClose liveRollingWindowSize =
      degradationOf inputs (rollingWindow live liveRollingWindowSize) paper := by
    unfold liveBrierDegradation
    rw [hlive, hpaper]
    rfl
  unfold computeLiveBrierDegradation headlineObservationWindow
  rw [hdegradation, degradationOf]
  split_ifs with hnoLive hnoPaper
  · exact ⟨.undefined, rfl⟩
  · exact ⟨.undefined, rfl⟩
  obtain ⟨forecast, hforecast⟩ := List.exists_mem_of_ne_nil _ hnoLive
  obtain ⟨other, hother⟩ := List.exists_mem_of_ne_nil _ hnoPaper
  have hin : forecast ∈ live :=
    (List.mem_insertionSort _).mp (List.mem_of_mem_take hforecast)
  obtain ⟨liveMean, hliveMean⟩ := meanBrier_of_resolved inputs
    ⟨forecast, hforecast, trackForecasts_resolved hliveLatest forecast hin⟩
  obtain ⟨paperMean, hpaperMean⟩ := meanBrier_of_resolved inputs
    ⟨other, hother, trackForecasts_resolved hpaperLatest other hother⟩
  rw [hliveMean, hpaperMean]
  exact ⟨_, rfl⟩

end Registered

/-- A metric that answers raises nothing. -/
theorem not_error_of_ok {result : Except MetricError MetricValue} {e : MetricError}
    (h : ∃ value, result = .ok value) : ¬ unresolvedUndefined result = .error e := by
  obtain ⟨value, rfl⟩ := h
  intro herror
  cases herror

/-- **When a metric raises**: over gated inputs each registered metric raises exactly what `Raises`
says of the latest admitted forecast of each market, and answers otherwise. -/
theorem registered_raises_iff (inputs : EvaluationInputs) (temporal : TemporalContext)
    (htemporal : inputs.temporal = some temporal) :
    ∃ selected, IsLatest (admittedInputs inputs temporal).forecasts selected ∧
      ∀ spec ∈ seedMetricSpecs, ∀ e, spec.compute inputs = .error e ↔
        Raises (resolvedPairs selected inputs.resolutions) spec.name e := by
  have hsequenced := admitted_sequenced inputs temporal
  obtain ⟨selected, hselected, hlatest⟩ := selectLatest_ok hsequenced
  refine ⟨selected, hlatest, fun spec hspec e => ?_⟩
  unfold MetricSpec.compute
  rw [gatedCompute_eq htemporal]
  -- the score of a windowed metric, over the latest admitted forecasts
  have hscore : ∀ {metric : EvaluationInputs → Except MetricError ℤ} {P : Prop},
      (e ≠ .noResolvedForecasts →
        (metric { admittedInputs inputs temporal with forecasts := selected } = .error e ↔ P)) →
      (P → e ≠ .noResolvedForecasts) →
      (unresolvedUndefined (ofWindow metric (admittedInputs inputs temporal)) = .error e ↔ P) := by
    intro metric P hiff hresolved
    rw [ofWindow_error_iff hselected]
    exact ⟨fun h => (hiff h.2).mp h.1, fun h => ⟨(hiff (hresolved h)).mpr h, hresolved h⟩⟩
  have hnever : ∀ {metric : EvaluationInputs → Except MetricError ℤ},
      (metric { admittedInputs inputs temporal with forecasts := selected } = .error e →
        e = .noResolvedForecasts) →
      ¬ unresolvedUndefined (ofWindow metric (admittedInputs inputs temporal)) = .error e := by
    intro metric hnone herror
    rw [ofWindow_error_iff hselected] at herror
    exact herror.2 (hnone herror.1)
  simp only [seedMetricSpecs, List.mem_cons, List.not_mem_nil, or_false] at hspec
  rcases hspec with rfl | rfl | rfl | rfl | rfl | rfl | rfl | rfl | rfl | rfl | rfl
  · exact iff_of_false (hnever meanBrier_error) (not_raises (by decide))
  · refine (hscore brierSkill_error_iff ?_).trans raises_skill.symm
    rintro ⟨rfl, -⟩
    decide
  · refine (hscore meanLogScore_error_iff ?_).trans raises_logScore.symm
    rintro ⟨rfl, -⟩
    decide
  · exact iff_of_false (hnever expectedCalibrationError_error) (not_raises (by decide))
  · refine (hscore (fun h => (calibration_error_iff h).1) ?_).trans raises_slope.symm
    rintro ⟨rfl, -⟩
    decide
  · refine (hscore (fun h => (calibration_error_iff h).2) ?_).trans raises_intercept.symm
    rintro ⟨rfl, -⟩
    decide
  · exact iff_of_false (hnever sharpness_error) (not_raises (by decide))
  · exact iff_of_false (not_error_of_ok (tradedVsSkipped_ok hsequenced)) (not_raises (by decide))
  · exact iff_of_false (not_error_of_ok ⟨_, rfl⟩) (not_raises (by decide))
  · exact iff_of_false (not_error_of_ok liveSlippageRatio_ok) (not_raises (by decide))
  · exact iff_of_false (not_error_of_ok (liveBrierDegradation_ok hsequenced))
      (not_raises (by decide))

theorem registered_raises_wrong : ∃ selected,
    IsLatest (admittedInputs certainlyWrong twoResolved).forecasts selected ∧
      ∀ spec ∈ seedMetricSpecs, ∀ e, spec.compute certainlyWrong = .error e ↔
        Raises (resolvedPairs selected certainlyWrong.resolutions) spec.name e :=
  registered_raises_iff certainlyWrong twoResolved rfl

end Windbreak.Metrics
