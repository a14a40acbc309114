import Windbreak.Forecast.Ensemble

/-!
# The probability of a forecast

What an ensemble says becomes the probability of a forecast: calibrated by a piecewise-linear map,
pulled a quarter of the way to the baseline, and kept between the lowest and the highest vote.

* `CalibrationMap` — breakpoints with rising inputs; `interpolate` reads between them.
* **`interpolate_mono`** — a map whose outputs do not fall is monotone, for all its rounding down.
* **`finalProbability_sound`** — the whole stage: bounds, permutations, monotonicity, and the
  spread.
-/

namespace Windbreak

open OrderStatistics

/-! ## Calibration maps -/

/-- A versioned calibration map; without breakpoints it changes nothing. -/
structure CalibrationMap where
  mapId : String
  version : String
  entries : List (ℤ × ℤ)
  mapId_ne : mapId ≠ ""
  version_ne : version ≠ ""
  range : ∀ entry ∈ entries,
    (0 ≤ entry.1 ∧ entry.1 ≤ 1000000) ∧ 0 ≤ entry.2 ∧ entry.2 ≤ 1000000
  increasing : entries.Pairwise fun before after => before.1 < after.1

/-- Clamp into the domain of probabilities. -/
def clampPpm (value : ℤ) : ℤ := max 0 (min value 1000000)

/-- Where a value would be inserted into ascending inputs, after the equal ones. -/
def bisectRight (inputs : List ℤ) (value : ℤ) : ℕ := (inputs.takeWhile (· ≤ value)).length

/-- Interpolate between two breakpoints, rounding down. -/
def between (before after : ℤ × ℤ) (value : ℤ) : ℤ :=
  before.2 + (value - before.1) * (after.2 - before.2) / (after.1 - before.1)

/-- Interpolate over breakpoints: the outermost outputs outside, a line between two inside. -/
def interpolate (entries : List (ℤ × ℤ)) (value : ℤ) : ℤ :=
  let first := entries.getD 0 (0, 0)
  let last := entries.getD (entries.length - 1) (0, 0)
  if value ≤ first.1 then first.2
  else if last.1 ≤ value then last.2
  else
    let upper := bisectRight (entries.map Prod.fst) value
    between (entries.getD (upper - 1) (0, 0)) (entries.getD upper (0, 0)) value

/-- Calibrate a probability. -/
def CalibrationMap.apply (calibrationMap : CalibrationMap) (probabilityPpm : ℤ) : ℤ :=
  if calibrationMap.entries = [] then clampPpm probabilityPpm
  else clampPpm (interpolate calibrationMap.entries probabilityPpm)

/-! ## The stage -/

/-- Calibrate by the map that is wired, if any. -/
def applyCalibrationMap (probabilityPpm : ℤ) : Option CalibrationMap → ℤ
  | none => clampPpm probabilityPpm
  | some calibrationMap => clampPpm (calibrationMap.apply probabilityPpm)

/-- The weight of the baseline. -/
def shrinkLambdaPpm : ℤ := 250000

/-- Pull an estimate toward the baseline. -/
def shrinkTowardBaseline (probabilityPpm baselinePpm : ℤ) : ℤ :=
  clampPpm ((probabilityPpm * (1000000 - shrinkLambdaPpm) + baselinePpm * shrinkLambdaPpm) / 1000000)

/-- Clamp between two bounds. -/
def clampBetween (value low high : ℤ) : ℤ := max low (min value high)

/-- The probability that an aggregate comes to. -/
def finalOf (calibrationMap : Option CalibrationMap) (baselinePpm : ℤ) (aggregate : VoteAggregate) :
    ℤ :=
  clampBetween
    (shrinkTowardBaseline (applyCalibrationMap aggregate.probabilityPpm calibrationMap) baselinePpm)
    aggregate.ciLowPpm aggregate.ciHighPpm

/-- **The probability of a forecast.** -/
def finalProbability (votes : List ModelVote) (calibrationMap : Option CalibrationMap)
    (baselinePpm : ℤ) : Except AggregationError ℤ := do
  let aggregate ← aggregateVotes votes
  return finalOf calibrationMap baselinePpm aggregate

/-! ## Reading between breakpoints -/

theorem clampPpm_mono {a b : ℤ} (h : a ≤ b) : clampPpm a ≤ clampPpm b := by
  unfold clampPpm
  omega

/-- **Where a value stands among the inputs**: at or after those before its place, before the one
at it. -/
theorem bisectRight_spec (inputs : List ℤ) (value : ℤ) :
    (∀ i < bisectRight inputs value, inputs.getD i 0 ≤ value) ∧
      (bisectRight inputs value < inputs.length →
        value < inputs.getD (bisectRight inputs value) 0) := by
  induction inputs with
  | nil => exact ⟨fun i hi => absurd hi (Nat.not_lt_zero i), fun h => absurd h (Nat.lt_irrefl 0)⟩
  | cons input inputs ih =>
      by_cases hle : input ≤ value
      · have hplace : bisectRight (input :: inputs) value = bisectRight inputs value + 1 := by
          simp [bisectRight, hle]
        rw [hplace]
        refine ⟨fun i hi => ?_, fun h => ih.2 (Nat.lt_of_succ_lt_succ h)⟩
        cases i with
        | zero => exact hle
        | succ i => exact ih.1 i (Nat.lt_of_succ_lt_succ hi)
      · have hplace : bisectRight (input :: inputs) value = 0 := by
          simp [bisectRight, hle]
        rw [hplace]
        exact ⟨fun i hi => absurd hi (Nat.not_lt_zero i), fun _ => not_le.mp hle⟩

/-- A line between two breakpoints stays between their outputs. -/
theorem between_bounds {before after : ℤ × ℤ} {value : ℤ} (hstart : before.1 ≤ value)
    (hend : value < after.1) (hout : before.2 ≤ after.2) :
    before.2 ≤ between before after value ∧ between before after value ≤ after.2 := by
  have hwidth : 0 < after.1 - before.1 := by omega
  have hnonneg : 0 ≤ (value - before.1) * (after.2 - before.2) :=
    Int.mul_nonneg (by omega) (by omega)
  have hle : (value - before.1) * (after.2 - before.2) ≤
      (after.2 - before.2) * (after.1 - before.1) := by
    rw [Int.mul_comm]
    exact Int.mul_le_mul_of_nonneg_left (by omega) (by omega)
  have hlow := Int.ediv_nonneg hnonneg hwidth.le
  have hhigh := Int.ediv_le_ediv hwidth hle
  rw [Int.mul_ediv_cancel _ hwidth.ne'] at hhigh
  unfold between
  omega

theorem between_mono {before after : ℤ × ℤ} {value value' : ℤ} (hwidth : before.1 < after.1)
    (hout : before.2 ≤ after.2) (h : value ≤ value') :
    between before after value ≤ between before after value' := by
  have hmul : (value - before.1) * (after.2 - before.2) ≤
      (value' - before.1) * (after.2 - before.2) :=
    Int.mul_le_mul_of_nonneg_right (by omega) (by omega)
  have hdiv := Int.ediv_le_ediv (by omega : 0 < after.1 - before.1) hmul
  unfold between
  omega

section Breakpoints

variable {entries : List (ℤ × ℤ)}

/-- A breakpoint of a map. -/
def breakpoint (entries : List (ℤ × ℤ)) (i : ℕ) : ℤ × ℤ := entries.getD i (0, 0)

theorem breakpoint_lt (h : entries.Pairwise fun before after => before.1 < after.1) {i j : ℕ}
    (hij : i < j) (hj : j < entries.length) :
    (breakpoint entries i).1 < (breakpoint entries j).1 := by
  unfold breakpoint
  rw [List.getD_eq_getElem _ _ (hij.trans hj), List.getD_eq_getElem _ _ hj]
  exact List.pairwise_iff_getElem.mp h i j _ _ hij

theorem breakpoint_le (h : entries.Pairwise fun before after => before.2 ≤ after.2) {i j : ℕ}
    (hij : i ≤ j) (hj : j < entries.length) :
    (breakpoint entries i).2 ≤ (breakpoint entries j).2 := by
  rcases hij.lt_or_eq with hlt | rfl
  · unfold breakpoint
    rw [List.getD_eq_getElem _ _ (hlt.trans hj), List.getD_eq_getElem _ _ hj]
    exact List.pairwise_iff_getElem.mp h i j _ _ hlt
  · exact le_rfl

theorem getD_map_fst (entries : List (ℤ × ℤ)) (i : ℕ) :
    (entries.map Prod.fst).getD i 0 = (breakpoint entries i).1 :=
  List.getD_map entries (0, 0) Prod.fst

/-- **Where a value is read**: below all breakpoints, above all, or on the line between two
neighbours that it stands between. -/
theorem interpolate_cases (entries : List (ℤ × ℤ)) (value : ℤ) :
    (value ≤ (breakpoint entries 0).1 ∧ interpolate entries value = (breakpoint entries 0).2) ∨
    ((breakpoint entries 0).1 < value ∧ (breakpoint entries (entries.length - 1)).1 ≤ value ∧
      interpolate entries value = (breakpoint entries (entries.length - 1)).2) ∨
    (breakpoint entries 0).1 < value ∧ ∃ i, i + 1 < entries.length ∧
      (breakpoint entries i).1 ≤ value ∧ value < (breakpoint entries (i + 1)).1 ∧
        interpolate entries value =
          between (breakpoint entries i) (breakpoint entries (i + 1)) value := by
  by_cases hfirst : value ≤ (breakpoint entries 0).1
  · exact .inl ⟨hfirst, if_pos hfirst⟩
  by_cases hlast : (breakpoint entries (entries.length - 1)).1 ≤ value
  · exact .inr (.inl ⟨not_le.mp hfirst, hlast, by
      unfold breakpoint at hfirst hlast
      rw [interpolate, if_neg hfirst, if_pos hlast]
      rfl⟩)
  refine .inr (.inr ⟨not_le.mp hfirst, ?_⟩)
  obtain ⟨hbefore, hafter⟩ := bisectRight_spec (entries.map Prod.fst) value
  rw [List.length_map] at hafter
  simp only [getD_map_fst] at hbefore hafter
  have hread : interpolate entries value =
      between (breakpoint entries (bisectRight (entries.map Prod.fst) value - 1))
        (breakpoint entries (bisectRight (entries.map Prod.fst) value)) value := by
    unfold breakpoint at hfirst hlast ⊢
    rw [interpolate, if_neg hfirst, if_neg hlast]
  generalize bisectRight (entries.map Prod.fst) value = upper at hbefore hafter hread
  -- neither end, so the place has a neighbour on either side
  have hne : entries ≠ [] := by
    rintro rfl
    simp only [breakpoint, List.getD_nil, not_le] at hfirst hlast
    omega
  have hpos := List.length_pos_iff.mpr hne
  have hupper : upper ≠ 0 := by
    rintro rfl
    exact hfirst (hafter hpos).le
  have hwithin : upper < entries.length := by
    by_contra hbeyond
    exact hlast (hbefore _ (by omega))
  obtain ⟨i, rfl⟩ := Nat.exists_eq_succ_of_ne_zero hupper
  exact ⟨i, hwithin, hbefore i (Nat.lt_succ_self i), hafter hwithin, hread⟩

/-- **A map whose outputs do not fall is monotone.** -/
theorem interpolate_mono (hne : entries ≠ [])
    (hinputs : entries.Pairwise fun before after => before.1 < after.1)
    (houtputs : entries.Pairwise fun before after => before.2 ≤ after.2) {value value' : ℤ}
    (h : value ≤ value') : interpolate entries value ≤ interpolate entries value' := by
  have hpos := List.length_pos_iff.mpr hne
  have hstep {i : ℕ} (hi : i + 1 < entries.length) :
      (breakpoint entries i).2 ≤ (breakpoint entries (i + 1)).2 :=
    breakpoint_le houtputs (Nat.le_succ i) hi
  rcases interpolate_cases entries value with ⟨-, hread⟩ | ⟨hfirst, hlast, hread⟩ |
    ⟨hfirst, i, hi, hstart, hend, hread⟩ <;>
  rcases interpolate_cases entries value' with ⟨hfirst', hread'⟩ | ⟨hfirst', hlast', hread'⟩ |
    ⟨hfirst', j, hj, hstart', hend', hread'⟩ <;>
  rw [hread, hread']
  · exact breakpoint_le houtputs (Nat.zero_le _) (by omega)
  · have hbelow := (between_bounds hstart' hend' (hstep hj)).1
    exact (breakpoint_le houtputs (Nat.zero_le j) (by omega)).trans hbelow
  · omega
  · -- past the last breakpoint there is no line
    have hle : (breakpoint entries (j + 1)).1 ≤ (breakpoint entries (entries.length - 1)).1 := by
      rcases (by omega : j + 1 ≤ entries.length - 1).lt_or_eq with hlt | heq
      · exact (breakpoint_lt hinputs hlt (by omega)).le
      · rw [heq]
    omega
  · omega
  · have habove := (between_bounds hstart hend (hstep hi)).2
    exact habove.trans (breakpoint_le houtputs (by omega) (by omega))
  · rcases lt_trichotomy i j with hij | rfl | hji
    · calc between (breakpoint entries i) (breakpoint entries (i + 1)) value
          ≤ (breakpoint entries (i + 1)).2 := (between_bounds hstart hend (hstep hi)).2
        _ ≤ (breakpoint entries j).2 := breakpoint_le houtputs hij (by omega)
        _ ≤ between (breakpoint entries j) (breakpoint entries (j + 1)) value' :=
          (between_bounds hstart' hend' (hstep hj)).1
    · exact between_mono (breakpoint_lt hinputs (Nat.lt_succ_self i) hi) (hstep hi) h
    · have hle : (breakpoint entries (j + 1)).1 ≤ (breakpoint entries i).1 := by
        rcases (Nat.succ_le_of_lt hji).lt_or_eq with hlt | heq
        · exact (breakpoint_lt hinputs hlt (by omega)).le
        · rw [← heq]
      omega

end Breakpoints

/-! ## The stage is monotone -/

/-- A map whose outputs do not fall. -/
def CalibrationMap.Rising (calibrationMap : CalibrationMap) : Prop :=
  calibrationMap.entries.Pairwise fun before after => before.2 ≤ after.2

theorem applyCalibrationMap_mono {calibrationMap : Option CalibrationMap}
    (hrising : ∀ wired ∈ calibrationMap, wired.Rising) {a b : ℤ} (h : a ≤ b) :
    applyCalibrationMap a calibrationMap ≤ applyCalibrationMap b calibrationMap := by
  cases calibrationMap with
  | none => exact clampPpm_mono h
  | some wired =>
      refine clampPpm_mono ?_
      unfold CalibrationMap.apply
      split_ifs with hnone
      · exact clampPpm_mono h
      · exact clampPpm_mono (interpolate_mono hnone wired.increasing (hrising wired rfl) h)

theorem shrinkTowardBaseline_mono {a b baseline baseline' : ℤ} (h : a ≤ b)
    (hbaseline : baseline ≤ baseline') :
    shrinkTowardBaseline a baseline ≤ shrinkTowardBaseline b baseline' := by
  refine clampPpm_mono (Int.ediv_le_ediv (by decide) ?_)
  unfold shrinkLambdaPpm
  omega

theorem clampBetween_bounds (value : ℤ) {low high : ℤ} (h : low ≤ high) :
    low ≤ clampBetween value low high ∧ clampBetween value low high ≤ high := by
  unfold clampBetween
  omega

theorem clampBetween_mono {value value' low low' high high' : ℤ} (hvalue : value ≤ value')
    (hlow : low ≤ low') (hhigh : high ≤ high') :
    clampBetween value low high ≤ clampBetween value' low' high' := by
  unfold clampBetween
  omega

/-- **What ranked votes come to rises with the votes and with the baseline.** -/
theorem finalOf_mono {calibrationMap : Option CalibrationMap}
    (hrising : ∀ wired ∈ calibrationMap, wired.Rising) {baseline baseline' : ℤ}
    (hbaseline : baseline ≤ baseline') {xs ys : List ℤ} (h : List.Forall₂ (· ≤ ·) xs ys) :
    finalOf calibrationMap baseline (aggregateRanked xs) ≤
      finalOf calibrationMap baseline' (aggregateRanked ys) := by
  have hmedian := integerMedian_mono h .understateEquity
  refine clampBetween_mono (shrinkTowardBaseline_mono (applyCalibrationMap_mono hrising hmedian)
    hbaseline) (getD_mono h 0) ?_
  unfold aggregateRanked
  dsimp only
  rw [h.length_eq]
  exact getD_mono h _

theorem finalProbability_ok {votes : List ModelVote} (hne : votes ≠ [])
    (hpinned : ∀ vote ∈ votes, vote.Pinned) (calibrationMap : Option CalibrationMap)
    (baselinePpm : ℤ) :
    finalProbability votes calibrationMap baselinePpm =
      .ok (finalOf calibrationMap baselinePpm
        (aggregateRanked (ranked (votes.map ModelVote.probabilityPpm)))) := by
  rw [finalProbability, aggregateVotes_ok hne hpinned]
  rfl

/-- The bounds of an aggregate are votes, and all votes are between them. -/
theorem aggregateRanked_bounds {votes : List ModelVote} (hne : votes ≠ []) :
    (∃ lowest ∈ votes, lowest.probabilityPpm =
        (aggregateRanked (ranked (votes.map ModelVote.probabilityPpm))).ciLowPpm) ∧
      (∃ highest ∈ votes, highest.probabilityPpm =
        (aggregateRanked (ranked (votes.map ModelVote.probabilityPpm))).ciHighPpm) ∧
      ∀ vote ∈ votes,
        (aggregateRanked (ranked (votes.map ModelVote.probabilityPpm))).ciLowPpm ≤
            vote.probabilityPpm ∧
          vote.probabilityPpm ≤
            (aggregateRanked (ranked (votes.map ModelVote.probabilityPpm))).ciHighPpm := by
  have hpos : 0 < (ranked (votes.map ModelVote.probabilityPpm)).length := by
    simpa [List.length_pos_iff] using hne
  have hsorted := pairwise_ranked (votes.map ModelVote.probabilityPpm)
  have hvote {i : ℕ} (hi : i < (ranked (votes.map ModelVote.probabilityPpm)).length) :
      ∃ vote ∈ votes, vote.probabilityPpm =
        (ranked (votes.map ModelVote.probabilityPpm)).getD i 0 :=
    List.mem_map.mp (mem_ranked.mp (getD_mem hi))
  refine ⟨hvote hpos, hvote (by omega), fun vote hmem => ?_⟩
  have hin := mem_ranked.mpr (List.mem_map_of_mem (f := ModelVote.probabilityPpm) hmem)
  obtain ⟨i, hi, hread⟩ := List.getElem_of_mem hin
  rw [← List.getD_eq_getElem _ 0 hi] at hread
  rw [← hread]
  exact ⟨getD_le_getD hsorted (Nat.zero_le i) hi, getD_le_getD hsorted (by omega) (by omega)⟩

/-- **The probability stage is sound and monotone.**  For pinned votes, a map whose outputs do not
fall and any baseline: the result lies between the lowest and the highest vote; other votes with the
same probabilities in any order, whoever cast them, give the same aggregate and the same result;
raising votes and the baseline does not lower it; and the spread lies between nothing and the width
of the interval and is the same for the votes reflected. -/
theorem finalProbability_sound (votes : List ModelVote) (calibrationMap : Option CalibrationMap)
    (baselinePpm : ℤ) (hne : votes ≠ []) (hpinned : ∀ vote ∈ votes, vote.Pinned)
    (hrising : ∀ wired ∈ calibrationMap, wired.Rising) :
    ∃ aggregate final, aggregateVotes votes = .ok aggregate ∧
      finalProbability votes calibrationMap baselinePpm = .ok final ∧
      (∃ lowest ∈ votes, (∀ vote ∈ votes, lowest.probabilityPpm ≤ vote.probabilityPpm) ∧
        lowest.probabilityPpm ≤ final) ∧
      (∃ highest ∈ votes, (∀ vote ∈ votes, vote.probabilityPpm ≤ highest.probabilityPpm) ∧
        final ≤ highest.probabilityPpm) ∧
      (∀ votes', (∀ vote ∈ votes', vote.Pinned) →
        (votes'.map ModelVote.probabilityPpm).Perm (votes.map ModelVote.probabilityPpm) →
          aggregateVotes votes' = .ok aggregate ∧
            finalProbability votes' calibrationMap baselinePpm = .ok final) ∧
      (∀ votes' baselinePpm', (∀ vote ∈ votes', vote.Pinned) →
        List.Forall₂ (fun vote vote' => vote.probabilityPpm ≤ vote'.probabilityPpm) votes votes' →
          baselinePpm ≤ baselinePpm' →
            ∃ final', finalProbability votes' calibrationMap baselinePpm' = .ok final' ∧
              final ≤ final') ∧
      (0 ≤ aggregate.voteDispersionPpm ∧
        aggregate.voteDispersionPpm ≤ aggregate.ciHighPpm - aggregate.ciLowPpm) ∧
      ∀ votes', (∀ vote ∈ votes', vote.Pinned) →
        votes'.map ModelVote.probabilityPpm =
            votes.map (fun vote => 1000000 - vote.probabilityPpm) →
          ∃ aggregate', aggregateVotes votes' = .ok aggregate' ∧
            aggregate'.voteDispersionPpm = aggregate.voteDispersionPpm := by
  have hsorted := pairwise_ranked (votes.map ModelVote.probabilityPpm)
  have hranked : ranked (votes.map ModelVote.probabilityPpm) ≠ [] := by
    rw [Ne, List.eq_nil_iff_length_eq_zero, length_ranked, List.length_map,
      ← List.eq_nil_iff_length_eq_zero]
    exact hne
  obtain ⟨⟨lowest, hlowest, hlow⟩, ⟨highest, hhighest, hhigh⟩, hbetween⟩ :=
    aggregateRanked_bounds hne
  have hquartiles := quartiles_bounds hsorted hranked
  have hclamped := clampBetween_bounds
    (shrinkTowardBaseline (applyCalibrationMap
      (aggregateRanked (ranked (votes.map ModelVote.probabilityPpm))).probabilityPpm
        calibrationMap) baselinePpm)
    ((hbetween lowest hlowest).1.trans (hbetween lowest hlowest).2)
  refine ⟨_, _, aggregateVotes_ok hne hpinned,
    finalProbability_ok hne hpinned calibrationMap baselinePpm,
    ⟨lowest, hlowest, fun vote hvote => hlow ▸ (hbetween vote hvote).1, hlow ▸ hclamped.1⟩,
    ⟨highest, hhighest, fun vote hvote => hhigh ▸ (hbetween vote hvote).2, hhigh ▸ hclamped.2⟩,
    fun votes' hpinned' hperm => ?_, fun votes' baselinePpm' hpinned' hraised hbaseline => ?_,
    ?_, fun votes' hpinned' hmirrored => ?_⟩
  · have hne' : votes' ≠ [] := by
      rintro rfl
      exact hne (List.map_eq_nil_iff.mp hperm.symm.eq_nil)
    have hsame := ranked_eq_of_perm hperm
    rw [aggregateVotes_ok hne' hpinned', finalProbability_ok hne' hpinned', hsame]
    exact ⟨rfl, rfl⟩
  · have hne' : votes' ≠ [] := by
      rintro rfl
      exact hne (List.forall₂_nil_right_iff.mp hraised)
    refine ⟨_, finalProbability_ok hne' hpinned' calibrationMap baselinePpm',
      finalOf_mono hrising hbaseline (ranked_mono ?_)⟩
    exact List.forall₂_map_left_iff.mpr (List.forall₂_map_right_iff.mpr hraised)
  · unfold aggregateRanked
    dsimp only
    omega
  · have hne' : votes' ≠ [] := by
      rintro rfl
      exact hne (List.map_eq_nil_iff.mp hmirrored.symm)
    have hreflect : ranked (votes'.map ModelVote.probabilityPpm) =
        reflected 1000000 (ranked (votes.map ModelVote.probabilityPpm)) := by
      have hanti : Antitone fun p : ℤ => 1000000 - p := fun a b hab => by
        dsimp only
        omega
      have hsplit : votes.map (fun vote => 1000000 - vote.probabilityPpm) =
          (votes.map ModelVote.probabilityPpm).map (1000000 - ·) := by
        rw [List.map_map]
        rfl
      rw [hmirrored, hsplit]
      exact ranked_reflected hanti _
    refine ⟨_, aggregateVotes_ok hne' hpinned', ?_⟩
    unfold aggregateRanked
    dsimp only
    rw [hreflect, quartiles_reflected 1000000 hranked]
    dsimp only
    omega

/-- A pinned vote. -/
def pinnedVote (probabilityPpm : ℤ) : ModelVote where
  provider := "p"
  modelVersion := "v"
  declaredTrainingCutoff := "c"
  probabilityPpm := probabilityPpm
  responseFingerprint := ""

/-- A map with a flat piece and a steep one. -/
def steppedMap : CalibrationMap where
  mapId := "m"
  version := "v1"
  entries := [(100000, 200000), (300000, 200000), (500000, 900000)]
  mapId_ne := by decide
  version_ne := by decide
  range := by decide
  increasing := by decide

theorem finalProbability_sound_stepped :
    ∃ final, finalProbability [pinnedVote 400000, pinnedVote 250000] (some steppedMap) 700000 =
        .ok final ∧ 250000 ≤ final ∧ final ≤ 400000 := by
  obtain ⟨aggregate, final, -, hfinal, ⟨lowest, hlowest, -, hlow⟩,
    ⟨highest, hhighest, -, hhigh⟩, -⟩ :=
    finalProbability_sound [pinnedVote 400000, pinnedVote 250000] (some steppedMap) 700000
      (by simp) (by decide) (by
        rintro wired ⟨⟩
        unfold CalibrationMap.Rising steppedMap
        decide)
  have hrange : ∀ vote ∈ [pinnedVote 400000, pinnedVote 250000],
      250000 ≤ vote.probabilityPpm ∧ vote.probabilityPpm ≤ 400000 := by decide
  exact ⟨final, hfinal, (hrange lowest hlowest).1.trans hlow, hhigh.trans (hrange highest hhighest).2⟩

end Windbreak
