import Mathlib.Data.Rat.Floor
import Windbreak.Core.SampleMoments
import Windbreak.Evaluation.Metrics

/-!
# What the metrics mean

The metrics work on integers and divide once.  Over the rationals each is a statistic of the
resolved forecasts, rounded against the forecaster in the last part per million.

* **`brierScores_refine`** — the Brier score is a mean squared error, the skill a reduction of it.
* **`calibrationError_refines`** — the calibration error is the weighted gap of ten bins.
* **`sharpness_refines`** — the sharpness is the variance of the forecasts.
-/

namespace Windbreak.Metrics

open Moments

/-! ## Probabilities -/

/-- The forecast, as a probability. -/
def ScoredPair.forecast (pair : ScoredPair) : ℚ := pair.probabilityPpm / 1000000

/-- The outcome, as a certainty. -/
def ScoredPair.outcome (pair : ScoredPair) : ℚ := pair.outcomePpm / 1000000

/-- The executable price, as a probability. -/
def ScoredPair.baseline (pair : ScoredPair) : ℚ := pair.baselinePpm / 1000000

theorem ScoredPair.forecast_unit (pair : ScoredPair) : 0 ≤ pair.forecast ∧ pair.forecast ≤ 1 := by
  have hlow : (0 : ℚ) ≤ pair.probabilityPpm := by exact_mod_cast pair.probability_ppm.1
  have hhigh : (pair.probabilityPpm : ℚ) ≤ 1000000 := by exact_mod_cast pair.probability_ppm.2
  unfold ScoredPair.forecast
  exact ⟨by positivity, by linarith⟩

/-! ## Rounding over the rationals -/

theorem quotient_eq_floor {d : ℤ} (hd : 0 < d) (n : ℤ) :
    quotient n d .understateEquity = ⌊(n : ℚ) / d⌋ := by
  have hpos : (0 : ℚ) < d := by exact_mod_cast hd
  refine eq_of_forall_le_iff fun k => ?_
  rw [le_quotient_understate_iff hd, Int.le_floor, le_div_iff₀ hpos]
  exact_mod_cast Iff.rfl

theorem quotient_eq_ceil {d : ℤ} (hd : 0 < d) (n : ℤ) :
    quotient n d .overstateCost = ⌈(n : ℚ) / d⌉ := by
  have hpos : (0 : ℚ) < d := by exact_mod_cast hd
  refine eq_of_forall_ge_iff fun k => ?_
  rw [quotient_overstate_le_iff hd, Int.ceil_le, div_le_iff₀ hpos]
  exact_mod_cast Iff.rfl

/-- A sum of integers that are multiples of rationals. -/
theorem cast_sum {pairs : List ScoredPair} {F : ScoredPair → ℤ} {G : ScoredPair → ℚ} {c : ℚ}
    (h : ∀ pair, (F pair : ℚ) = c * G pair) :
    (((pairs.map F).sum : ℤ) : ℚ) = c * (pairs.map G).sum := by
  induction pairs with
  | nil => simp
  | cons pair rest ih =>
      simp only [List.map_cons, List.sum_cons, Int.cast_add, h, ih]
      ring

/-! ## Brier score and skill -/

section Scores

variable {pairs : List ScoredPair}

theorem forecastTerm_sum : (((pairs.map forecastTerm).sum : ℤ) : ℚ) =
    10 ^ 12 * (pairs.map fun pair => (pair.forecast - pair.outcome) ^ 2).sum :=
  cast_sum fun pair => by
    simp only [forecastTerm, ScoredPair.forecast, ScoredPair.outcome]
    push_cast
    ring

theorem baselineTerm_sum (pairs : List ScoredPair) : (((pairs.map baselineTerm).sum : ℤ) : ℚ) =
    10 ^ 12 * (pairs.map fun pair => (pair.baseline - pair.outcome) ^ 2).sum :=
  cast_sum fun pair => by
    simp only [baselineTerm, ScoredPair.baseline, ScoredPair.outcome]
    push_cast
    ring

/-- The mean squared error of the forecasts. -/
def forecastError (pairs : List ScoredPair) : ℚ :=
  mean (fun pair => (pair.forecast - pair.outcome) ^ 2) pairs

/-- The mean squared error of the executable prices. -/
def baselineError (pairs : List ScoredPair) : ℚ :=
  mean (fun pair => (pair.baseline - pair.outcome) ^ 2) pairs

theorem baselineError_eq_zero_iff (h : pairs ≠ []) :
    baselineError pairs = 0 ↔ (pairs.map baselineTerm).sum = 0 := by
  have hn : ((pairs.length : ℕ) : ℚ) ≠ 0 := length_ne_zero h
  have hsum := baselineTerm_sum pairs
  unfold baselineError mean
  rw [div_eq_zero_iff, or_iff_left hn]
  constructor
  · intro hzero
    rw [hzero, mul_zero] at hsum
    exact_mod_cast hsum
  · intro hzero
    rw [hzero, Int.cast_zero] at hsum
    exact (mul_eq_zero.mp hsum.symm).resolve_left (by norm_num)

theorem baselineTerms_nonneg (pairs : List ScoredPair) : 0 ≤ (pairs.map baselineTerm).sum := by
  refine List.sum_nonneg fun x hx => ?_
  obtain ⟨pair, -, rfl⟩ := List.mem_map.mp hx
  exact sq_nonneg _

end Scores

/-! ## The refinements -/

/-- What the metrics score. -/
def pairsOf (inputs : EvaluationInputs) : List ScoredPair :=
  resolvedPairs inputs.forecasts inputs.resolutions

section Refinements

variable {inputs : EvaluationInputs}

theorem scoredPairs_of_ne (h : pairsOf inputs ≠ []) : scoredPairs inputs = .ok (pairsOf inputs) :=
  scoredPairs_ok_iff.mpr ⟨rfl, h⟩

theorem scoredPairs_of_nil (h : pairsOf inputs = []) :
    scoredPairs inputs = .error .noResolvedForecasts :=
  scoredPairs_error_iff.mpr ⟨h, rfl⟩

/-- A metric that raises without a resolved forecast, and where it is not defined. -/
theorem ok_iff_of_pairs {metric : EvaluationInputs → Except MetricError ℤ} {value exact : ℤ}
    {defined : Prop} (e : MetricError)
    (hnil : pairsOf inputs = [] → metric inputs = .error .noResolvedForecasts)
    (hundefined : pairsOf inputs ≠ [] → ¬ defined → metric inputs = .error e)
    (hok : pairsOf inputs ≠ [] → defined → metric inputs = .ok exact) :
    metric inputs = .ok value ↔ pairsOf inputs ≠ [] ∧ defined ∧ value = exact := by
  constructor
  · intro h
    by_cases hne : pairsOf inputs = []
    · cases (hnil hne).symm.trans h
    by_cases hdefined : defined
    · exact ⟨hne, hdefined, (Except.ok.inj ((hok hne hdefined).symm.trans h)).symm⟩
    · cases (hundefined hne hdefined).symm.trans h
  · rintro ⟨hne, hdefined, rfl⟩
    exact hok hne hdefined

theorem count_pos_rat (h : pairsOf inputs ≠ []) : (0 : ℚ) < (pairsOf inputs).length := by
  exact_mod_cast count_pos h

theorem meanBrier_eq_ceil (value : ℤ) : meanBrier inputs = .ok value ↔
    pairsOf inputs ≠ [] ∧ True ∧ value = ⌈10 ^ 6 * forecastError (pairsOf inputs)⌉ := by
  refine ok_iff_of_pairs .noResolvedForecasts (fun hnil => ?_) (fun _ h => absurd trivial h)
    fun hne _ => ?_
  · unfold meanBrier
    rw [scoredPairs_of_nil hnil]
    rfl
  · have hcount := count_pos hne
    have hn := count_pos_rat hne
    rw [meanBrier_eq (scoredPairs_of_ne hne), quotient_eq_ceil (by omega), forecastTerm_sum]
    congr 2
    unfold forecastError mean
    push_cast
    field_simp
    ring

theorem brierSkill_eq_floor (value : ℤ) : brierSkill inputs = .ok value ↔
    pairsOf inputs ≠ [] ∧ baselineError (pairsOf inputs) ≠ 0 ∧
      value = ⌊10 ^ 6 * (1 - forecastError (pairsOf inputs) / baselineError (pairsOf inputs))⌋ := by
  refine ok_iff_of_pairs skillUndefined (fun hnil => ?_) (fun hne hzero => ?_) fun hne hdefined => ?_
  · unfold brierSkill
    rw [scoredPairs_of_nil hnil]
    rfl
  · rw [not_not] at hzero
    rw [brierSkill_eq (scoredPairs_of_ne hne), skillFromTermSums,
      if_pos ((baselineError_eq_zero_iff hne).mp hzero)]
  · have hsum : ((pairsOf inputs).map baselineTerm).sum ≠ 0 :=
      fun hzero => hdefined ((baselineError_eq_zero_iff hne).mpr hzero)
    have hn := count_pos_rat hne
    rw [brierSkill_eq (scoredPairs_of_ne hne), skillFromTermSums, if_neg hsum,
      divided_of_ne_zero hsum, quotient_eq_floor (lt_of_le_of_ne (baselineTerms_nonneg _) hsum.symm)]
    congr 2
    have hbase : ((pairsOf inputs).map fun pair => (pair.baseline - pair.outcome) ^ 2).sum ≠ 0 := by
      intro hzero
      refine hdefined ?_
      rw [baselineError, mean, hzero, zero_div]
    unfold ppmScale forecastError baselineError mean
    rw [Int.cast_mul, Int.cast_sub, forecastTerm_sum, baselineTerm_sum]
    push_cast
    field_simp
    ring

/-! ## Calibration error -/

/-- The forecasts in a bin: a tenth of the unit interval, the last one closed. -/
def bin (pairs : List ScoredPair) (index : ℕ) : List ScoredPair :=
  pairs.filter fun pair => (index : ℚ) / 10 ≤ pair.forecast ∧
    (pair.forecast < (index + 1) / 10 ∨ index = 9)

/-- How far the mean forecast of a bin lies from how often its markets settled yes, over all bins by
their share of the forecasts. -/
def calibrationError (pairs : List ScoredPair) : ℚ :=
  ((List.range eceBinCount).map fun index =>
    ((bin pairs index).length : ℚ) / pairs.length *
      |mean ScoredPair.forecast (bin pairs index) - mean ScoredPair.outcome (bin pairs index)|).sum

theorem binIndex_eq_iff (pair : ScoredPair) {index : ℕ} (h : index < 10) :
    binIndex pair.probabilityPpm = index ↔ (index : ℚ) / 10 ≤ pair.forecast ∧
      (pair.forecast < (index + 1) / 10 ∨ index = 9) := by
  have hlow : (index : ℚ) / 10 ≤ pair.forecast ↔ index * 100000 ≤ pair.probabilityPpm := by
    unfold ScoredPair.forecast
    rw [div_le_div_iff₀ (by norm_num) (by norm_num)]
    have : (index : ℚ) * 1000000 ≤ pair.probabilityPpm * 10 ↔
        (index : ℤ) * 1000000 ≤ pair.probabilityPpm * 10 := by exact_mod_cast Iff.rfl
    rw [this]
    omega
  have hhigh : pair.forecast < (index + 1) / 10 ↔ pair.probabilityPpm < (index + 1) * 100000 := by
    unfold ScoredPair.forecast
    rw [div_lt_div_iff₀ (by norm_num) (by norm_num)]
    have : (pair.probabilityPpm : ℚ) * 10 < (index + 1) * 1000000 ↔
        pair.probabilityPpm * 10 < ((index : ℤ) + 1) * 1000000 := by exact_mod_cast Iff.rfl
    rw [this]
    omega
  have hppm := pair.probability_ppm
  rw [hlow, hhigh]
  unfold binIndex
  omega

/-- The forecasts that go into one bin of a running total. -/
def inBin (index : ℕ) (pairs : List ScoredPair) : List ScoredPair :=
  pairs.filter fun pair => binIndex pair.probabilityPpm = index

theorem inBin_eq_bin {index : ℕ} (h : index < 10) (pairs : List ScoredPair) :
    inBin index pairs = bin pairs index :=
  List.filter_congr fun pair _ => decide_eq_decide.mpr (binIndex_eq_iff pair h)

/-- **What a bin adds up to**, by induction on the forecasts still to come. -/
theorem binTotals_foldl (pairs : List ScoredPair) (totals : BinTotals) (index : ℕ) :
    (pairs.foldl BinTotals.add totals).probabilitySums index =
        totals.probabilitySums index + ((inBin index pairs).map (·.probabilityPpm)).sum ∧
      (pairs.foldl BinTotals.add totals).yesCounts index * 1000000 =
        totals.yesCounts index * 1000000 + ((inBin index pairs).map (·.outcomePpm)).sum := by
  induction pairs generalizing totals with
  | nil => simp [inBin]
  | cons pair rest ih =>
      rw [List.foldl_cons, (ih (totals.add pair)).1, (ih (totals.add pair)).2]
      unfold inBin
      rw [List.filter_cons]
      by_cases hindex : binIndex pair.probabilityPpm = index
      · subst hindex
        simp only [BinTotals.add, decide_true, if_true, Function.update_self, List.map_cons,
          List.sum_cons]
        rcases pair.outcome_ppm with hzero | hone
        · simp only [hzero, OfNat.zero_ne_ofNat, if_false]
          omega
        · simp only [hone, if_true, Function.update_self]
          omega
      · have hother : Function.update totals.yesCounts (binIndex pair.probabilityPpm)
            (totals.yesCounts (binIndex pair.probabilityPpm) + 1) index =
            totals.yesCounts index := Function.update_of_ne (Ne.symm hindex) ..
        have hcounts : (totals.add pair).yesCounts index = totals.yesCounts index := by
          unfold BinTotals.add
          split_ifs
          · exact hother
          · rfl
        rw [hcounts, if_neg (by simpa using hindex)]
        simp only [BinTotals.add, Function.update_of_ne (Ne.symm hindex)]
        exact ⟨trivial, trivial⟩

/-- The gap of a bin, from its running totals. -/
theorem binTotals_gap (pairs : List ScoredPair) {index : ℕ} (h : index < 10) :
    (((binTotals pairs).probabilitySums index -
        (binTotals pairs).yesCounts index * 1000000 : ℤ) : ℚ) =
      10 ^ 6 * (((bin pairs index).map ScoredPair.forecast).sum -
        ((bin pairs index).map ScoredPair.outcome).sum) := by
  obtain ⟨hsum, hcount⟩ := binTotals_foldl pairs ⟨fun _ => 0, fun _ => 0⟩ index
  unfold binTotals
  rw [hsum, hcount, inBin_eq_bin h, zero_mul, zero_add, zero_add, Int.cast_sub, mul_sub]
  congr 1
  · refine cast_sum fun pair => ?_
    unfold ScoredPair.forecast
    ring
  · refine cast_sum fun pair => ?_
    unfold ScoredPair.outcome
    ring

/-- The calibration error, rounded up. -/
theorem calibrationError_eq_ceil (value : ℤ) : expectedCalibrationError inputs = .ok value ↔
    pairsOf inputs ≠ [] ∧ True ∧ value = ⌈10 ^ 6 * calibrationError (pairsOf inputs)⌉ := by
  refine ok_iff_of_pairs .noResolvedForecasts (fun hnil => ?_) (fun _ h => absurd trivial h)
    fun hne _ => ?_
  · unfold expectedCalibrationError
    rw [scoredPairs_of_nil hnil]
    rfl
  · have hn := count_pos_rat hne
    rw [expectedCalibrationError_eq (scoredPairs_of_ne hne), quotient_eq_ceil (count_pos hne)]
    congr 2
    unfold calibrationError
    rw [Int.cast_list_sum, List.map_map, div_eq_iff (by exact_mod_cast hn.ne'),
      ← List.sum_map_mul_left, ← List.sum_map_mul_right]
    refine congrArg List.sum (List.map_congr_left fun index hindex => ?_)
    rw [Function.comp_apply, Int.cast_abs, binTotals_gap _ (List.mem_range.mp hindex),
      weighted_gap _ _ _ _ hn, abs_mul, abs_of_pos (by norm_num : (0 : ℚ) < 10 ^ 6), mul_assoc,
      Int.cast_natCast, div_mul_cancel₀ _ hn.ne']

/-! ## Calibration line and sharpness -/

/-- The running sums of the fit, over probabilities. -/
theorem olsSums_spec (pairs : List ScoredPair) :
    ((olsSums pairs).probabilitySum : ℚ) = 10 ^ 6 * (pairs.map ScoredPair.forecast).sum ∧
      ((olsSums pairs).outcomeSum : ℚ) = 10 ^ 6 * (pairs.map ScoredPair.outcome).sum ∧
      ((olsSums pairs).probabilitySquareSum : ℚ) =
        10 ^ 12 * (pairs.map fun pair => pair.forecast * pair.forecast).sum ∧
      ((olsSums pairs).productSum : ℚ) =
        10 ^ 12 * (pairs.map fun pair => pair.forecast * pair.outcome).sum := by
  refine ⟨?_, ?_, ?_, ?_⟩ <;> refine cast_sum fun pair => ?_ <;>
    simp only [ScoredPair.forecast, ScoredPair.outcome] <;> push_cast <;> ring

theorem varianceNumerator_eq {pairs : List ScoredPair} (h : pairs ≠ []) :
    ((olsSums pairs).varianceNumerator : ℚ) =
      10 ^ 12 * pairs.length ^ 2 * variance ScoredPair.forecast pairs := by
  have hn : ((pairs.length : ℕ) : ℚ) ≠ 0 := length_ne_zero h
  obtain ⟨hp, -, hpp, -⟩ := olsSums_spec pairs
  rw [variance, covariance_eq hn, OlsSums.varianceNumerator]
  push_cast
  rw [hp, hpp]
  simp only [olsSums, Int.cast_natCast]
  field_simp

theorem varianceNumerator_ne_zero_iff {pairs : List ScoredPair} (h : pairs ≠ []) :
    (olsSums pairs).varianceNumerator ≠ 0 ↔ variance ScoredPair.forecast pairs ≠ 0 := by
  have hn : ((pairs.length : ℕ) : ℚ) ≠ 0 := length_ne_zero h
  have heq := varianceNumerator_eq h
  rw [← Int.cast_ne_zero (α := ℚ), heq]
  exact mul_ne_zero_iff_left (mul_ne_zero (by norm_num) (pow_ne_zero 2 hn))

/-- The sharpness is the variance, rounded down. -/
theorem sharpness_eq_floor (value : ℤ) : sharpness inputs = .ok value ↔
    pairsOf inputs ≠ [] ∧ True ∧
      value = ⌊10 ^ 6 * variance ScoredPair.forecast (pairsOf inputs)⌋ := by
  refine ok_iff_of_pairs .noResolvedForecasts (fun hnil => ?_) (fun _ h => absurd trivial h)
    fun hne _ => ?_
  · unfold sharpness
    rw [scoredPairs_of_nil hnil]
    rfl
  · have hcount := count_pos hne
    have hn := count_pos_rat hne
    have hd : 0 < ((pairsOf inputs).length : ℤ) * (pairsOf inputs).length * 1000000 := by positivity
    rw [sharpness_eq (scoredPairs_of_ne hne), quotient_eq_floor hd, varianceNumerator_eq hne]
    congr 2
    push_cast
    field_simp
    ring

/-- A forecast varies exactly where two of its probabilities differ. -/
theorem forecast_varies_iff {pairs : List ScoredPair} (h : pairs ≠ []) :
    variance ScoredPair.forecast pairs ≠ 0 ↔
      ∃ x ∈ pairs, ∃ y ∈ pairs, x.probabilityPpm ≠ y.probabilityPpm := by
  have hequal : ∀ x y : ScoredPair, x.forecast = y.forecast ↔
      x.probabilityPpm = y.probabilityPpm := by
    intro x y
    unfold ScoredPair.forecast
    rw [div_left_inj' (by norm_num), Int.cast_inj]
  rw [Ne, variance_eq_zero_iff h]
  push Not
  simp only [ne_eq, hequal]

theorem error_unit (pair : ScoredPair) :
    0 ≤ (pair.forecast - pair.outcome) ^ 2 ∧ (pair.forecast - pair.outcome) ^ 2 ≤ 1 := by
  obtain ⟨hlow, hhigh⟩ := pair.forecast_unit
  refine ⟨sq_nonneg _, ?_⟩
  rcases pair.outcome_ppm with hzero | hone
  · have houtcome : pair.outcome = 0 := by
      rw [ScoredPair.outcome, hzero, Int.cast_zero, zero_div]
    rw [houtcome]
    nlinarith
  · have houtcome : pair.outcome = 1 := by
      rw [ScoredPair.outcome, hone]
      norm_num
    rw [houtcome]
    nlinarith

end Refinements

/-! ## The metrics as statistics -/

/-- **Brier score and skill**: the mean squared error of the resolved forecasts, rounded up, and how
much of the executable prices' error it saves, rounded down; the one is in the unit interval, the
other at most one. -/
theorem brierScores_refine (inputs : EvaluationInputs) (value : ℤ) :
    (meanBrier inputs = .ok value ↔ pairsOf inputs ≠ [] ∧
      value = ⌈10 ^ 6 * forecastError (pairsOf inputs)⌉) ∧
    (meanBrier inputs = .ok value → 0 ≤ value ∧ value ≤ 1000000) ∧
    (brierSkill inputs = .ok value ↔ pairsOf inputs ≠ [] ∧ baselineError (pairsOf inputs) ≠ 0 ∧
      value =
        ⌊10 ^ 6 * (1 - forecastError (pairsOf inputs) / baselineError (pairsOf inputs))⌋) ∧
    (brierSkill inputs = .ok value → value ≤ 1000000) := by
  have hunit : 0 ≤ forecastError (pairsOf inputs) ∧ forecastError (pairsOf inputs) ≤ 1 :=
    mean_unit fun pair _ => error_unit pair
  refine ⟨?_, ?_, brierSkill_eq_floor value, ?_⟩
  · rw [meanBrier_eq_ceil, true_and]
  · intro h
    obtain ⟨-, -, rfl⟩ := (meanBrier_eq_ceil value).mp h
    refine ⟨Int.ceil_nonneg (by linarith [hunit.1]), Int.ceil_le.mpr ?_⟩
    push_cast
    linarith [hunit.2]
  · intro h
    obtain ⟨-, -, rfl⟩ := (brierSkill_eq_floor value).mp h
    have hbase : 0 ≤ baselineError (pairsOf inputs) := by
      unfold baselineError mean
      refine div_nonneg (List.sum_nonneg fun x hx => ?_) (Nat.cast_nonneg _)
      obtain ⟨pair, -, rfl⟩ := List.mem_map.mp hx
      exact sq_nonneg _
    have hratio := div_nonneg hunit.1 hbase
    have hle : (10 : ℚ) ^ 6 * (1 - forecastError (pairsOf inputs) / baselineError (pairsOf inputs))
        ≤ (1000000 : ℤ) := by
      push_cast
      linarith
    exact_mod_cast (Int.floor_le _).trans hle

theorem brierScores_refine_two : meanBrier twoForecasts = .ok 40000 ∧
    ((0 : ℤ) ≤ 40000 ∧ (40000 : ℤ) ≤ 1000000) ∧ brierSkill twoForecasts = .ok 840000 ∧
    (840000 : ℤ) ≤ 1000000 :=
  ⟨by decide +kernel, (brierScores_refine twoForecasts 40000).2.1 (by decide +kernel),
    by decide +kernel, (brierScores_refine twoForecasts 840000).2.2.2 (by decide +kernel)⟩

/-- **The calibration error**: the gap between what the forecasts of a bin say and what happened, by
the bins' shares, rounded up. -/
theorem calibrationError_refines (inputs : EvaluationInputs) (value : ℤ) :
    expectedCalibrationError inputs = .ok value ↔
      pairsOf inputs ≠ [] ∧ value = ⌈10 ^ 6 * calibrationError (pairsOf inputs)⌉ := by
  rw [calibrationError_eq_ceil, true_and]

/-- **The sharpness**: the variance of the forecasts, rounded down, and a quarter at most. -/
theorem sharpness_refines (inputs : EvaluationInputs) (value : ℤ) :
    (sharpness inputs = .ok value ↔ pairsOf inputs ≠ [] ∧
      value = ⌊10 ^ 6 * variance ScoredPair.forecast (pairsOf inputs)⌋) ∧
    (sharpness inputs = .ok value → 0 ≤ value ∧ value ≤ 250000) := by
  refine ⟨by rw [sharpness_eq_floor, true_and], fun h => ?_⟩
  obtain ⟨-, -, rfl⟩ := (sharpness_eq_floor value).mp h
  have hlow : 0 ≤ variance ScoredPair.forecast (pairsOf inputs) := variance_nonneg
  have hhigh : variance ScoredPair.forecast (pairsOf inputs) ≤ 1 / 4 :=
    variance_le_quarter fun pair _ => pair.forecast_unit
  refine ⟨Int.floor_nonneg.mpr (by positivity), ?_⟩
  have hle : (10 : ℚ) ^ 6 * variance ScoredPair.forecast (pairsOf inputs) ≤ (250000 : ℤ) := by
    push_cast
    linarith
  exact_mod_cast (Int.floor_le _).trans hle

theorem sharpness_refines_two : sharpness twoForecasts = .ok 90000 ∧
    (0 : ℤ) ≤ 90000 ∧ (90000 : ℤ) ≤ 250000 :=
  ⟨by decide +kernel, (sharpness_refines twoForecasts 90000).2 (by decide +kernel)⟩

end Windbreak.Metrics
