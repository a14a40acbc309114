import Windbreak.Evaluation.MetricMeanings

/-!
# What the log score means

The surprise at an outcome is computed from a fixed-point binary logarithm and eighteen digits of
the logarithm of two.  Both are cut off; the quotient is rounded up.

* **`lnMicroNats_bounds`** — the integer surprise lies at most a ten-billionth of a micro-nat below
  the natural logarithm, and less than one micro-nat above it.
* **`logScore_refines`** — so does the mean, less than two above it; a forecast that was certain
  and wrong has none.
-/

namespace Windbreak.Metrics

open Moments

/-! ## One surprise -/

/-- Eighteen digits of the logarithm of two. -/
theorem log_two_digits :
    693147180559945309 / 10 ^ 18 < Real.log 2 ∧ Real.log 2 < 693147180559945310 / 10 ^ 18 := by
  have hhalf : |(2⁻¹ : ℝ)| = 2⁻¹ := by rw [abs_of_pos]; norm_num
  have h := Real.abs_log_sub_add_sum_range_le (show |(2⁻¹ : ℝ)| < 1 by rw [hhalf]; norm_num) 64
  rw [hhalf] at h
  norm_num1 at h
  have hinv : Real.log 2⁻¹ = -Real.log 2 := Real.log_inv 2
  rw [show (1 / 2 : ℝ) = 2⁻¹ by norm_num, hinv] at h
  obtain ⟨hlow, hhigh⟩ := abs_le.mp h
  norm_num [Finset.sum_range_succ] at hlow hhigh
  constructor <;> linarith

/-- The surprise at an outcome of this probability, in micro-nats. -/
noncomputable def surprise (probability : ℝ) : ℝ := 10 ^ 6 * -Real.log probability

/-- A cost lies above the exact quotient, by less than one. -/
theorem quotient_overstate_real {d : ℤ} (hd : 0 < d) (n : ℤ) :
    (n : ℝ) / d ≤ quotient n d .overstateCost ∧
      (quotient n d .overstateCost : ℝ) < n / d + 1 := by
  have hpos : (0 : ℝ) < d := by exact_mod_cast hd
  have hcover := (quotient_overstate_le_iff hd (n := n)).mp (le_refl _)
  have hleast : (quotient n d .overstateCost - 1) * d < n := by
    by_contra hnot
    have := (quotient_overstate_le_iff hd).mpr (Int.not_lt.mp hnot)
    omega
  constructor
  · rw [div_le_iff₀ hpos]
    exact_mod_cast hcover
  · rw [← sub_lt_iff_lt_add, lt_div_iff₀ hpos]
    exact_mod_cast hleast

/-- What the two cut-offs cost: four units of the fixed-point logarithm and one digit of the logarithm
of two. -/
theorem surprise_window {fixed exact ln2 value : ℝ} (hbelow : fixed ≤ 2 ^ 64 * exact)
    (habove : 2 ^ 64 * exact < fixed + 4) (hexact : 0 ≤ exact) (htwenty : exact ≤ 20)
    (hdigits : 693147180559945309 / 10 ^ 18 < ln2) (hdigits' : ln2 < 693147180559945310 / 10 ^ 18)
    (hlow : fixed * 693147180559945309 / (2 ^ 64 * 10 ^ 12) ≤ value)
    (hhigh : value < fixed * 693147180559945309 / (2 ^ 64 * 10 ^ 12) + 1) :
    10 ^ 6 * (ln2 * exact) - 1 / 10 ^ 10 < value ∧ value < 10 ^ 6 * (ln2 * exact) + 1 := by
  have hsign : 0 ≤ 2 ^ 64 * exact := by positivity
  have hscaled : 2 ^ 64 * exact * 693147180559945309 ≤ 2 ^ 64 * exact * (10 ^ 18 * ln2) :=
    mul_le_mul_of_nonneg_left (by linarith) hsign
  have hscaled' : 2 ^ 64 * exact * (10 ^ 18 * ln2) ≤ 2 ^ 64 * exact * 693147180559945310 :=
    mul_le_mul_of_nonneg_left (by linarith) hsign
  have hwhole : 10 ^ 6 * (ln2 * exact) =
      2 ^ 64 * exact * (10 ^ 18 * ln2) / (2 ^ 64 * 10 ^ 12) := by
    field_simp
  have hupper : fixed * 693147180559945309 / (2 ^ 64 * 10 ^ 12) ≤ 10 ^ 6 * (ln2 * exact) := by
    rw [hwhole]
    refine div_le_div_of_nonneg_right ?_ (by positivity)
    linarith
  have hlower : 10 ^ 6 * (ln2 * exact) - 1 / 10 ^ 10 <
      fixed * 693147180559945309 / (2 ^ 64 * 10 ^ 12) := by
    rw [hwhole, lt_div_iff₀ (by positivity), sub_mul, div_mul_cancel₀ _ (by positivity)]
    norm_num
    linarith
  exact ⟨hlower.trans_le hlow, hhigh.trans_le (by linarith)⟩

/-- **The surprise at an outcome** that was held possible. -/
theorem lnMicroNats_bounds {argPpm : ℕ} (hpos : 0 < argPpm) (hle : argPpm ≤ 1000000) :
    ∃ value, lnMicroNats argPpm = .ok value ∧
      surprise (argPpm / 10 ^ 6) - 1 / 10 ^ 10 < value ∧
      value < surprise (argPpm / 10 ^ 6) + 1 := by
  unfold lnMicroNats
  rw [dif_neg hpos.ne']
  split_ifs with hcertain
  · refine ⟨0, rfl, ?_, ?_⟩ <;> subst hcertain <;> norm_num [surprise]
  have hreal : (0 : ℝ) < argPpm := by exact_mod_cast hpos
  -- the fixed-point logarithm against the binary one
  obtain ⟨hbelow, habove⟩ := BinaryLog.fixedLog_bounds log2FractionBits 1000000
    ⟨argPpm, Nat.pos_of_ne_zero hpos.ne'⟩ hle
  rw [PNat.mk_coe] at hbelow habove
  change (log2ReciprocalFixed _ : ℝ) ≤ _ at hbelow
  change _ < (log2ReciprocalFixed _ : ℝ) + 4 at habove
  generalize log2ReciprocalFixed ⟨argPpm, Nat.pos_of_ne_zero hpos.ne'⟩ = fixed at hbelow habove ⊢
  have hratio : (1 : ℝ) ≤ (1000000 : ℕ) / argPpm := by
    rw [one_le_div hreal]
    exact_mod_cast hle
  have hlog := Real.logb_nonneg one_lt_two hratio
  have htwenty : Real.logb 2 ((1000000 : ℕ) / argPpm) ≤ 20 := by
    rw [Real.logb_le_iff_le_rpow one_lt_two (lt_of_lt_of_le one_pos hratio),
      div_le_iff₀ hreal]
    have hone : (1 : ℝ) ≤ argPpm := by exact_mod_cast hpos
    norm_num
    linarith
  have hsurprise : surprise (argPpm / 10 ^ 6) =
      10 ^ 6 * (Real.log 2 * Real.logb 2 ((1000000 : ℕ) / argPpm)) := by
    have hne : Real.log 2 ≠ 0 := (Real.log_pos one_lt_two).ne'
    rw [surprise, Real.logb, mul_div_cancel₀ _ hne, ← Real.log_inv, inv_div]
    norm_num
  generalize Real.logb 2 ((1000000 : ℕ) / argPpm) = exact at *
  -- the quotient
  have hd : 0 < logScoreDenominator := by decide
  rw [divided_of_ne_zero hd.ne']
  refine ⟨_, rfl, ?_⟩
  obtain ⟨hlow, hhigh⟩ := quotient_overstate_real hd (fixed * ln2ScaledE18)
  have hdenominator : (logScoreDenominator : ℝ) = 2 ^ 64 * 10 ^ 12 := by
    norm_num [logScoreDenominator, log2FractionBits, ppmScale]
  rw [hdenominator] at hlow hhigh
  rw [hsurprise]
  unfold ln2ScaledE18 at *
  unfold log2FractionBits at hbelow habove
  push_cast at hlow hhigh ⊢
  exact surprise_window hbelow habove hlog htwenty log_two_digits.1 log_two_digits.2 hlow hhigh

/-! ## The mean -/

/-- The probability that a forecast gave to what happened. -/
noncomputable def ScoredPair.observed (pair : ScoredPair) : ℝ :=
  if pair.outcomePpm = 1000000 then pair.forecast else 1 - pair.forecast

/-- A forecast that was certain and wrong. -/
def ScoredPair.CertainWrong (pair : ScoredPair) : Prop := observedArgument pair = 0

instance : DecidablePred ScoredPair.CertainWrong :=
  fun pair => inferInstanceAs (Decidable (observedArgument pair = 0))

theorem observedArgument_spec (pair : ScoredPair) :
    (observedArgument pair : ℝ) / 10 ^ 6 = pair.observed ∧ observedArgument pair ≤ 1000000 := by
  obtain ⟨hlow, hhigh⟩ := pair.probability_ppm
  unfold observedArgument ScoredPair.observed ScoredPair.forecast ppmScale
  split_ifs
  · have hcast : ((pair.probabilityPpm.toNat : ℕ) : ℝ) = pair.probabilityPpm := by
      exact_mod_cast Int.toNat_of_nonneg hlow
    refine ⟨?_, by omega⟩
    rw [hcast]
    push_cast
    norm_num
  · have hcast : (((1000000 - pair.probabilityPpm).toNat : ℕ) : ℝ) = 1000000 - pair.probabilityPpm := by
      exact_mod_cast Int.toNat_of_nonneg (by omega)
    refine ⟨?_, by omega⟩
    rw [hcast]
    push_cast
    ring

/-- **Every surprise**, by induction: the terms stay as close as each of them does. -/
theorem terms_spec {pairs : List ScoredPair} (h : ∀ pair ∈ pairs, ¬ pair.CertainWrong) :
    ∃ terms, (pairs.mapM fun pair => lnMicroNats (observedArgument pair)) = .ok terms ∧
      (pairs.map fun pair => surprise pair.observed).sum - pairs.length * (1 / 10 ^ 10) ≤
        (terms.sum : ℤ) ∧
      (terms.sum : ℤ) ≤ (pairs.map fun pair => surprise pair.observed).sum + pairs.length := by
  induction pairs with
  | nil => exact ⟨[], rfl, by simp, by simp⟩
  | cons pair rest ih =>
      obtain ⟨hpair, hrest⟩ := List.forall_mem_cons.mp h
      obtain ⟨terms, hterms, hlow, hhigh⟩ := ih hrest
      obtain ⟨hobserved, hle⟩ := observedArgument_spec pair
      obtain ⟨value, hvalue, hvalueLow, hvalueHigh⟩ :=
        lnMicroNats_bounds (Nat.pos_of_ne_zero hpair) hle
      rw [hobserved] at hvalueLow hvalueHigh
      refine ⟨value :: terms, ?_, ?_, ?_⟩
      · rw [List.mapM_cons, hvalue, hterms]
        rfl
      · rw [List.map_cons, List.sum_cons, List.length_cons, List.sum_cons, Int.cast_add,
          Nat.cast_succ]
        linarith
      · rw [List.map_cons, List.sum_cons, List.length_cons, List.sum_cons, Int.cast_add,
          Nat.cast_succ]
        linarith

/-- One forecast that was certain and wrong is enough. -/
theorem terms_undefined {pairs : List ScoredPair} (h : ∃ pair ∈ pairs, pair.CertainWrong) :
    (pairs.mapM fun pair => lnMicroNats (observedArgument pair)) = .error surpriseUndefined := by
  induction pairs with
  | nil =>
      obtain ⟨pair, hmem, -⟩ := h
      cases hmem
  | cons pair rest ih =>
      rw [List.mapM_cons]
      by_cases hpair : pair.CertainWrong
      · have : lnMicroNats (observedArgument pair) = .error surpriseUndefined := by
          unfold lnMicroNats
          exact dif_pos hpair
        rw [this]
        rfl
      · obtain ⟨other, hmem, hother⟩ := h
        have hrest : other ∈ rest := by
          rcases List.mem_cons.mp hmem with rfl | hin
          · exact absurd hother hpair
          · exact hin
        obtain ⟨value, hvalue, -⟩ :=
          lnMicroNats_bounds (Nat.pos_of_ne_zero hpair) (observedArgument_spec pair).2
        rw [hvalue, ih ⟨other, hrest, hother⟩]
        rfl

theorem meanLogScore_of_wrong {inputs : EvaluationInputs}
    (h : ∃ pair ∈ pairsOf inputs, pair.CertainWrong) :
    meanLogScore inputs = .error surpriseUndefined := by
  obtain ⟨pair, hmem, -⟩ := id h
  unfold meanLogScore
  rw [scoredPairs_of_ne (List.ne_nil_of_mem hmem)]
  change ((pairsOf inputs).mapM fun pair => lnMicroNats (observedArgument pair)) >>= _ = _
  rw [terms_undefined h]
  rfl

theorem meanLogScore_of_possible {inputs : EvaluationInputs} (hne : pairsOf inputs ≠ [])
    (h : ∀ pair ∈ pairsOf inputs, ¬ pair.CertainWrong) :
    ∃ value, meanLogScore inputs = .ok value ∧
      mean (fun pair => surprise pair.observed) (pairsOf inputs) - 1 / 10 ^ 10 ≤ value ∧
      value < mean (fun pair => surprise pair.observed) (pairsOf inputs) + 2 := by
  obtain ⟨terms, hterms, hlow, hhigh⟩ := terms_spec h
  have hcount := count_pos hne
  have hn : (0 : ℝ) < (pairsOf inputs).length := by exact_mod_cast hcount
  refine ⟨quotient terms.sum (pairsOf inputs).length .overstateCost, ?_, ?_⟩
  · unfold meanLogScore
    rw [scoredPairs_of_ne hne]
    change ((pairsOf inputs).mapM fun pair => lnMicroNats (observedArgument pair)) >>= _ = _
    rw [hterms]
    exact divided_of_ne_zero hcount.ne' ..
  obtain ⟨hqlow, hqhigh⟩ := quotient_overstate_real hcount terms.sum
  have hcast : (((pairsOf inputs).length : ℤ) : ℝ) = (pairsOf inputs).length := by norm_cast
  rw [hcast] at hqlow hqhigh
  have hdown := div_le_div_of_nonneg_right hlow hn.le
  have hup := div_le_div_of_nonneg_right hhigh hn.le
  rw [sub_div, mul_comm, mul_div_cancel_right₀ _ hn.ne'] at hdown
  rw [add_div, div_self hn.ne'] at hup
  unfold mean
  exact ⟨by linarith, by linarith⟩

/-- **The log score**: the mean surprise at what happened, at most a ten-billionth of a micro-nat
below and less than two above; a forecast that was certain and wrong leaves none. -/
theorem logScore_refines (inputs : EvaluationInputs) :
    ((∃ pair ∈ pairsOf inputs, pair.CertainWrong) →
      meanLogScore inputs = .error surpriseUndefined) ∧
    (pairsOf inputs ≠ [] → (∀ pair ∈ pairsOf inputs, ¬ pair.CertainWrong) →
      ∃ value, meanLogScore inputs = .ok value ∧
        mean (fun pair => surprise pair.observed) (pairsOf inputs) - 1 / 10 ^ 10 ≤ value ∧
        value < mean (fun pair => surprise pair.observed) (pairsOf inputs) + 2) :=
  ⟨meanLogScore_of_wrong, meanLogScore_of_possible⟩

theorem logScore_refines_two : meanLogScore certainlyWrong = .error surpriseUndefined ∧
    ∃ value, meanLogScore twoForecasts = .ok value ∧
      mean (fun pair => surprise pair.observed) (pairsOf twoForecasts) - 1 / 10 ^ 10 ≤ value ∧
      value < mean (fun pair => surprise pair.observed) (pairsOf twoForecasts) + 2 :=
  ⟨(logScore_refines certainlyWrong).1 (by decide),
    (logScore_refines twoForecasts).2 (List.cons_ne_nil _ _) (by decide)⟩

end Windbreak.Metrics
