import Mathlib.Data.Int.ModEq
import Windbreak.Core.SettledPasses
import Windbreak.Selector.Edge

/-!
# Sizing

A fractional Kelly stake, clipped by five notional caps, by the share of the book it may take and to
whole contracts.  Every division rounds a size down.

* **`kellySize`** — the stake as a size; `kellySize_stake` bounds what it costs.
* **`participationFixedPoint`** — brings a size under its share of the depth through its own
  marginal level; `participationFixedPoint_le_share` says that it gets there.
* **`clipToCaps`** — all the caps; `clipToCaps_spec` says that a size it answers respects them.
-/

namespace Windbreak

def ppmOne : ℤ := 1000000

/-- Takes a stake's numerator, which carries three fractions, back to micros. -/
def kellyDenominatorScale : ℤ := 10 ^ 12

def centisPerContract : ℤ := 100

/-- The smallest order and the step of a size: one whole contract. -/
def exchangeMinOrderCentis : ℤ := 100

/-! ## The stake -/

/-- The scale that falls from one to zero as the votes disperse. -/
def dispersionScale (voteDispersionPpm dispersionZeroCeilingPpm : ℤ) : Except String ℤ :=
  if voteDispersionPpm < 0 then .ok ppmOne
  else if dispersionZeroCeilingPpm ≤ 0 then
    .ok (if voteDispersionPpm ≤ 0 then ppmOne else 0)
  else if voteDispersionPpm ≥ dispersionZeroCeilingPpm then .ok 0
  else
    divide ((dispersionZeroCeilingPpm - voteDispersionPpm) * ppmOne) dispersionZeroCeilingPpm
      .understateEquity

/-- The fractional Kelly size: nothing without a net edge over its floor, or at a price that is no
stake or leaves no odds. -/
def kellySize (netEdgePpm minNetEdgePpm executablePricePpm kellyFractionPpm dispersionScalePpm : ℤ)
    (aboveFloorCapitalMicros : MoneyMicros) : Except String ContractCentis :=
  if netEdgePpm ≤ 0 ∨ netEdgePpm < minNetEdgePpm then .ok ⟨0⟩
  else if executablePricePpm ≤ 0 ∨ executablePricePpm ≥ ppmOne then .ok ⟨0⟩
  else do
    let stakeMicros ← divide
      (aboveFloorCapitalMicros.value * netEdgePpm * kellyFractionPpm * dispersionScalePpm)
      ((ppmOne - executablePricePpm) * kellyDenominatorScale) .understateEquity
    let sizeCentis ← divide (stakeMicros * centisPerContract) executablePricePpm .understateEquity
    return ⟨sizeCentis⟩

/-! ## The notional caps -/

/-- A share of the equity, rounded down. -/
def pctCeilingMicros (equityMicros pctPpm : ℤ) : ℤ :=
  quotient (equityMicros * pctPpm) ppmOne .understateEquity

/-- What is left of a ceiling, as a size at a price. -/
def headroomCapCentis (ceilingMicros usedMicros executablePricePpm : ℤ) : Except String ℤ :=
  divide (max 0 (ceilingMicros - usedMicros) * centisPerContract) executablePricePpm
    .understateEquity

/-- The five caps: their names, their ceilings and what is used of them. -/
def notionalCeilings (positions : PositionReadModelInput) (risk : RiskConfig)
    (bucketCapName : CapName) : List (CapName × ℤ × ℤ) :=
  let equity := positions.equityMicros.value
  [(.perMarket, pctCeilingMicros equity risk.maxPosMarketPctPpm, positions.marketExposure.value),
    (.perEvent, pctCeilingMicros equity risk.maxPosEventPctPpm, positions.eventExposure.value),
    (bucketCapName, pctCeilingMicros equity risk.maxPosBucketPctPpm,
      positions.bucketExposure.value),
    (.totalDeployed, positions.totalDeployCapMicros.value, positions.totalExposure.value),
    (.dailyNotional, risk.maxNotionalPerDayMicros, positions.notionalToday.value)]

/-- The five caps as sizes at a price. -/
def notionalCapLimits (positions : PositionReadModelInput) (risk : RiskConfig)
    (executablePricePpm : ℤ) (bucketCapName : CapName) : Except String (List (CapName × ℤ)) :=
  (notionalCeilings positions risk bucketCapName).mapM fun cap => do
    let limit ← headroomCapCentis cap.2.1 cap.2.2 executablePricePpm
    return (cap.1, limit)

/-! ## Participation -/

/-- A size taken down to whole contracts. -/
def floorLot (sizeCentis : ℤ) : ℤ := sizeCentis - sizeCentis % exchangeMinOrderCentis

/-- The depth through the level at which a fill completes, or all of it. -/
def depthThroughFill : List OrderBookLevel → ℤ → ℤ → ℤ
  | [], _, cumulative => cumulative
  | level :: rest, fillCentis, cumulative =>
    let through := cumulative + level.quantity.value
    if through ≥ fillCentis then through else depthThroughFill rest fillCentis through

/-- The share of a depth that a fill may take. -/
def participationShare (maxParticipationPpm depth : ℤ) : ℤ :=
  quotient (maxParticipationPpm * depth) ppmOne .understateEquity

/-- Floor a size to a lot where asked to. -/
def floorIf (lot : Bool) (sizeCentis : ℤ) : ℤ := if lot then floorLot sizeCentis else sizeCentis

/-- What a fill may take of the depth through its own marginal level. -/
def participationLimit (yesAsks : List OrderBookLevel) (maxParticipationPpm : ℤ) (lot : Bool)
    (fillCentis : ℤ) : ℤ :=
  floorIf lot (participationShare maxParticipationPpm (depthThroughFill yesAsks fillCentis 0))

/-- Bring a size under its share of the book, with one pass for each level. -/
def participationFixedPoint (sizeCentis : ℤ) (yesAsks : List OrderBookLevel)
    (maxParticipationPpm : ℤ) (lot : Bool) : ℤ :=
  let clamp := participationShare maxParticipationPpm (askDepth yesAsks)
  SettledPasses.settle (participationLimit yesAsks maxParticipationPpm lot) yesAsks.length
    (floorIf lot (min sizeCentis clamp))

/-! ## All the caps -/

/-- The clipped size and what bound it. -/
structure CapClipResult where
  size : ContractCentis
  bindingCap : Option CapName
  deriving DecidableEq, Repr

/-- The least of a size and of some limits. -/
def leastLimit (rawCentis : ℤ) (limits : List (CapName × ℤ)) : ℤ :=
  limits.foldl (fun least cap => min least cap.2) rawCentis

/-- The first cap whose limit is the least one, unless no cap lowered the size. -/
def bindingCapName (rawCentis : ℤ) (orderedLimits : List (CapName × ℤ)) (clippedMinimum : ℤ) :
    Option CapName :=
  if rawCentis ≤ clippedMinimum then none
  else (orderedLimits.find? fun cap => cap.2 = clippedMinimum).map (·.1)

/-- Clip a stake through the five notional caps, the participation cap and to whole contracts. -/
def clipToCaps (rawSize : ContractCentis) (executablePricePpm : ℤ) (orderBook : OrderBookSnapshot)
    (riskConfig : RiskConfig) (positions : PositionReadModelInput) (bucketCapName : CapName) :
    Except String CapClipResult := do
  let rawCentis := rawSize.value
  let yesAsks := orderBook.yesAsks
  let partPpm := riskConfig.maxParticipationPpm
  let notionalLimits ← notionalCapLimits positions riskConfig executablePricePpm bucketCapName
  let afterNotional := leastLimit rawCentis notionalLimits
  let continuous := participationFixedPoint afterNotional yesAsks partPpm false
  let orderedLimits := notionalLimits ++ [(.participation, continuous)]
  let bindingCap := bindingCapName rawCentis orderedLimits (leastLimit rawCentis orderedLimits)
  let finalCentis := participationFixedPoint afterNotional yesAsks partPpm true
  if finalCentis < exchangeMinOrderCentis then
    return ⟨⟨0⟩, some (bindingCap.getD .exchangeMinOrder)⟩
  return ⟨⟨finalCentis⟩, bindingCap⟩

/-! ## What a stake costs -/

theorem ppmOne_pos : 0 < ppmOne := by decide

/-- The scale is a fraction. -/
theorem dispersionScale_bounds {dispersion ceiling scale : ℤ}
    (h : dispersionScale dispersion ceiling = .ok scale) : 0 ≤ scale ∧ scale ≤ ppmOne := by
  have hone := ppmOne_pos.le
  unfold dispersionScale at h
  by_cases hnegative : dispersion < 0
  · rw [if_pos hnegative] at h
    cases h
    exact ⟨hone, le_refl _⟩
  rw [if_neg hnegative] at h
  by_cases hflat : ceiling ≤ 0
  · rw [if_pos hflat] at h
    cases h
    by_cases hnone : dispersion ≤ 0
    · rw [if_pos hnone]
      exact ⟨hone, le_refl _⟩
    · rw [if_neg hnone]
      exact ⟨le_refl _, hone⟩
  rw [if_neg hflat] at h
  have hceiling : 0 < ceiling := not_le.mp hflat
  by_cases hpast : dispersion ≥ ceiling
  · rw [if_pos hpast] at h
    cases h
    exact ⟨le_refl _, hone⟩
  rw [if_neg hpast, divide_of_ne_zero hceiling.ne'] at h
  cases h
  have hramp := (quotient_bounds hceiling ((ceiling - dispersion) * ppmOne)).1
  constructor
  · rw [le_quotient_understate_iff hceiling, zero_mul]
    exact mul_nonneg (sub_nonneg.mpr (not_le.mp hpast).le) hone
  · refine le_of_mul_le_mul_right (hramp.trans ?_) hceiling
    rw [mul_comm ppmOne]
    exact mul_le_mul_of_nonneg_right (by omega) hone

/-- **A positive size is a stake on an edge**: the net edge is over its floor, the price leaves odds,
and the size at that price costs no more than the stake. -/
theorem kellySize_stake {net minNet pricePpm fraction scale : ℤ} {capital : MoneyMicros}
    {size : ContractCentis} (h : kellySize net minNet pricePpm fraction scale capital = .ok size)
    (hsize : 0 < size.value) :
    (0 < net ∧ minNet ≤ net) ∧ (0 < pricePpm ∧ pricePpm < ppmOne) ∧
      size.value * pricePpm * ((ppmOne - pricePpm) * kellyDenominatorScale) ≤
        capital.value * net * fraction * scale * centisPerContract := by
  unfold kellySize at h
  by_cases hedge : net ≤ 0 ∨ net < minNet
  · rw [if_pos hedge] at h
    cases h
    exact absurd hsize (lt_irrefl 0)
  rw [if_neg hedge] at h
  by_cases hprice : pricePpm ≤ 0 ∨ pricePpm ≥ ppmOne
  · rw [if_pos hprice] at h
    cases h
    exact absurd hsize (lt_irrefl 0)
  rw [if_neg hprice] at h
  rw [not_or, not_le, not_lt] at hedge
  rw [not_or, not_le, ge_iff_le, not_le] at hprice
  have hdenominator : 0 < (ppmOne - pricePpm) * kellyDenominatorScale :=
    mul_pos (sub_pos.mpr hprice.2) (by decide)
  obtain ⟨stake, hstake, h⟩ := Effects.except_bind_ok.mp h
  obtain ⟨centis, hcentis, h⟩ := Effects.except_bind_ok.mp h
  cases h
  rw [divide_of_ne_zero hdenominator.ne'] at hstake
  rw [divide_of_ne_zero hprice.1.ne'] at hcentis
  cases hstake
  cases hcentis
  refine ⟨hedge, hprice, ?_⟩
  have hsized := (quotient_bounds hprice.1 (quotient
    (capital.value * net * fraction * scale) ((ppmOne - pricePpm) * kellyDenominatorScale)
    .understateEquity * centisPerContract)).1
  have hstaked := (quotient_bounds hdenominator (capital.value * net * fraction * scale)).1
  have hcentis : 0 ≤ centisPerContract := by decide
  calc _ ≤ quotient (capital.value * net * fraction * scale)
          ((ppmOne - pricePpm) * kellyDenominatorScale) .understateEquity * centisPerContract *
          ((ppmOne - pricePpm) * kellyDenominatorScale) :=
        mul_le_mul_of_nonneg_right hsized hdenominator.le
    _ = quotient (capital.value * net * fraction * scale)
          ((ppmOne - pricePpm) * kellyDenominatorScale) .understateEquity *
          ((ppmOne - pricePpm) * kellyDenominatorScale) * centisPerContract := by ring
    _ ≤ _ := mul_le_mul_of_nonneg_right hstaked hcentis

/-! ## The participation cap is reached -/

theorem floorLot_le (sizeCentis : ℤ) : floorLot sizeCentis ≤ sizeCentis := by
  have := Int.emod_nonneg sizeCentis (show exchangeMinOrderCentis ≠ 0 by decide)
  rw [floorLot]
  omega

theorem floorIf_le (lot : Bool) (sizeCentis : ℤ) : floorIf lot sizeCentis ≤ sizeCentis := by
  cases lot
  · exact le_refl _
  · exact floorLot_le sizeCentis

theorem lot_dvd_floorLot (sizeCentis : ℤ) : exchangeMinOrderCentis ∣ floorLot sizeCentis :=
  Int.dvd_self_sub_emod

theorem depthThroughFill_cons (level : OrderBookLevel) (rest : List OrderBookLevel)
    (fillCentis cumulative : ℤ) :
    depthThroughFill (level :: rest) fillCentis cumulative =
      if cumulative + level.quantity.value ≥ fillCentis then cumulative + level.quantity.value
      else depthThroughFill rest fillCentis (cumulative + level.quantity.value) := rfl

/-- How many levels a fill exhausts; one past the depth counts as one that reaches the last. -/
def fillRank : List OrderBookLevel → ℤ → ℤ → ℕ
  | [], _, _ => 0
  | [_], _, _ => 0
  | level :: next :: rest, fillCentis, cumulative =>
    if cumulative + level.quantity.value ≥ fillCentis then 0
    else fillRank (next :: rest) fillCentis (cumulative + level.quantity.value) + 1

theorem fillRank_lt : ∀ {yesAsks : List OrderBookLevel} (fillCentis cumulative : ℤ),
    yesAsks ≠ [] → fillRank yesAsks fillCentis cumulative < yesAsks.length
  | [], _, _, h => absurd rfl h
  | [_], _, _, _ => Nat.one_pos
  | level :: next :: rest, fillCentis, cumulative, _ => by
    have hrest := fillRank_lt fillCentis (cumulative + level.quantity.value)
      (List.cons_ne_nil next rest)
    unfold fillRank
    by_cases hhere : cumulative + level.quantity.value ≥ fillCentis
    · rw [if_pos hhere]
      exact Nat.succ_pos _
    · rw [if_neg hhere]
      exact Nat.succ_lt_succ hrest

/-- A smaller fill exhausts no more levels, and one that exhausts as many completes at the same
depth. -/
theorem fillRank_mono : ∀ (yesAsks : List OrderBookLevel) {smaller larger : ℤ} (cumulative : ℤ),
    smaller ≤ larger →
      fillRank yesAsks smaller cumulative ≤ fillRank yesAsks larger cumulative ∧
        (fillRank yesAsks smaller cumulative = fillRank yesAsks larger cumulative →
          depthThroughFill yesAsks smaller cumulative = depthThroughFill yesAsks larger cumulative)
  | [], _, _, _, _ => ⟨le_refl _, fun _ => rfl⟩
  | [level], smaller, larger, cumulative, _ => by
    refine ⟨le_refl _, fun _ => ?_⟩
    simp only [depthThroughFill, ite_self]
  | level :: next :: rest, smaller, larger, cumulative, hle => by
    obtain ⟨hrank, hdepth⟩ :=
      fillRank_mono (next :: rest) (cumulative + level.quantity.value) hle
    unfold fillRank
    rw [depthThroughFill_cons level _ smaller, depthThroughFill_cons level _ larger]
    by_cases hlarger : cumulative + level.quantity.value ≥ larger
    · have hsmaller : cumulative + level.quantity.value ≥ smaller := hle.trans hlarger
      rw [if_pos hlarger, if_pos hsmaller, if_pos hlarger, if_pos hsmaller]
      exact ⟨le_refl _, fun _ => rfl⟩
    · rw [if_neg hlarger, if_neg hlarger]
      by_cases hsmaller : cumulative + level.quantity.value ≥ smaller
      · rw [if_pos hsmaller, if_pos hsmaller]
        exact ⟨Nat.zero_le _, fun h => by omega⟩
      · rw [if_neg hsmaller, if_neg hsmaller]
        exact ⟨Nat.succ_le_succ hrank, fun h => hdepth (Nat.succ.inj h)⟩

theorem askDepth_nonneg {asks : List OrderBookLevel}
    (h : ∀ level ∈ asks, 0 ≤ level.quantity.value) : 0 ≤ askDepth asks := by
  refine List.sum_nonneg fun quantity hquantity => ?_
  obtain ⟨level, hlevel, rfl⟩ := List.mem_map.mp hquantity
  exact h level hlevel

/-- The depth through a fill lies between what was there before it and all of the depth. -/
theorem depthThroughFill_bounds {yesAsks : List OrderBookLevel}
    (h : ∀ level ∈ yesAsks, 0 ≤ level.quantity.value) (fillCentis cumulative : ℤ) :
    cumulative ≤ depthThroughFill yesAsks fillCentis cumulative ∧
      depthThroughFill yesAsks fillCentis cumulative ≤ cumulative + askDepth yesAsks := by
  induction yesAsks generalizing cumulative with
  | nil => exact ⟨le_refl _, (Int.add_zero _).ge⟩
  | cons level rest ih =>
      have hlevel := h level (.head _)
      have hrest := askDepth_nonneg fun other hother => h other (.tail _ hother)
      have hdepth : askDepth (level :: rest) = level.quantity.value + askDepth rest :=
        List.sum_cons
      obtain ⟨hlow, hhigh⟩ := ih (fun other hother => h other (.tail _ hother))
        (cumulative + level.quantity.value)
      rw [depthThroughFill_cons, hdepth]
      split <;> constructor <;> omega

/-- A larger fill reaches at least the depth of a smaller one. -/
theorem depthThroughFill_mono {yesAsks : List OrderBookLevel}
    (h : ∀ level ∈ yesAsks, 0 ≤ level.quantity.value) {smaller larger : ℤ}
    (hle : smaller ≤ larger) (cumulative : ℤ) :
    depthThroughFill yesAsks smaller cumulative ≤ depthThroughFill yesAsks larger cumulative := by
  induction yesAsks generalizing cumulative with
  | nil => exact le_refl _
  | cons level rest ih =>
      have hrest : ∀ other ∈ rest, 0 ≤ other.quantity.value := fun other hother =>
        h other (.tail _ hother)
      rw [depthThroughFill_cons, depthThroughFill_cons]
      by_cases hlarger : cumulative + level.quantity.value ≥ larger
      · rw [if_pos hlarger, if_pos (hle.trans hlarger)]
      · rw [if_neg hlarger]
        split
        · exact (depthThroughFill_bounds hrest larger _).1
        · exact ih hrest _

theorem participationShare_mono {ppm smaller larger : ℤ} (hppm : 0 ≤ ppm) (h : smaller ≤ larger) :
    participationShare ppm smaller ≤ participationShare ppm larger := by
  refine (le_quotient_understate_iff ppmOne_pos).mpr ?_
  have hsmaller := (quotient_bounds ppmOne_pos (ppm * smaller)).1
  exact hsmaller.trans (mul_le_mul_of_nonneg_left h hppm)

/-- A whole number of lots is within a size floored to a lot as soon as it is within the size. -/
theorem le_floorIf {lot : Bool} {x sizeCentis : ℤ} (hlot : lot = true → exchangeMinOrderCentis ∣ x)
    (h : x ≤ sizeCentis) : x ≤ floorIf lot sizeCentis := by
  cases lot with
  | false => exact h
  | true =>
      obtain ⟨lots, rfl⟩ := hlot rfl
      rw [floorIf, if_pos rfl, floorLot]
      simp only [exchangeMinOrderCentis] at h ⊢
      omega

section Participation

variable {sizeCentis maxParticipationPpm : ℤ} {yesAsks : List OrderBookLevel} {lot : Bool}

theorem participationFixedPoint_le :
    participationFixedPoint sizeCentis yesAsks maxParticipationPpm lot ≤ sizeCentis :=
  (SettledPasses.settle_le _ _).trans ((floorIf_le lot _).trans (min_le_left _ _))

/-- **One pass for each level suffices**: the size respects what it may take at its own marginal
level. -/
theorem participationFixedPoint_le_limit :
    participationFixedPoint sizeCentis yesAsks maxParticipationPpm lot ≤
      participationLimit yesAsks maxParticipationPpm lot
        (participationFixedPoint sizeCentis yesAsks maxParticipationPpm lot) := by
  by_cases hnone : yesAsks = []
  · -- no level, no depth: the clamp is all there is
    subst hnone
    cases lot
    · exact min_le_right _ _
    · change floorLot _ ≤ floorLot (participationShare maxParticipationPpm 0)
      have hshare : participationShare maxParticipationPpm 0 = 0 := by
        simp [participationShare, quotient]
      have hdepth : askDepth [] = 0 := rfl
      rw [hdepth, hshare]
      exact (floorLot_le _).trans (min_le_right _ _)
  · refine SettledPasses.settle_settled (fun h => (fillRank_mono yesAsks 0 h).1) ?_ _ _
      (fillRank_lt _ 0 hnone)
    intro smaller larger hle hsame
    rw [participationLimit, participationLimit, (fillRank_mono yesAsks 0 hle).2 hsame]

theorem participationFixedPoint_le_share :
    participationFixedPoint sizeCentis yesAsks maxParticipationPpm lot ≤
      participationShare maxParticipationPpm (depthThroughFill yesAsks
        (participationFixedPoint sizeCentis yesAsks maxParticipationPpm lot) 0) :=
  participationFixedPoint_le_limit.trans (floorIf_le lot _)

theorem lot_dvd_participationFixedPoint :
    exchangeMinOrderCentis ∣
      participationFixedPoint sizeCentis yesAsks maxParticipationPpm true :=
  SettledPasses.settle_holds (fun _ => lot_dvd_floorLot _) _ _ (lot_dvd_floorLot _)

/-- **The participation fixed point is the greatest one**: the greatest size up to the given one, in
whole lots where asked for, within the share of the depth through its own marginal level.  Passes
beyond one for each level change nothing. -/
theorem participationFixedPoint_isGreatest
    (hasks : ∀ level ∈ yesAsks, 0 ≤ level.quantity.value)
    (hshare : 0 ≤ maxParticipationPpm) :
    IsGreatest {x | x ≤ sizeCentis ∧ (lot = true → exchangeMinOrderCentis ∣ x) ∧
        x ≤ participationShare maxParticipationPpm (depthThroughFill yesAsks x 0)}
      (participationFixedPoint sizeCentis yesAsks maxParticipationPpm lot) ∧
    ∀ more, SettledPasses.settle (participationLimit yesAsks maxParticipationPpm lot)
        (yesAsks.length + more)
        (floorIf lot (min sizeCentis (participationShare maxParticipationPpm (askDepth yesAsks)))) =
      participationFixedPoint sizeCentis yesAsks maxParticipationPpm lot := by
  refine ⟨⟨⟨participationFixedPoint_le, fun hlot => ?_, participationFixedPoint_le_share⟩,
    fun x hx => ?_⟩, fun more => SettledPasses.settle_add more _ _ participationFixedPoint_le_limit⟩
  · subst hlot
    exact lot_dvd_participationFixedPoint
  · obtain ⟨hsize, hlots, hfits⟩ := hx
    have hdepth := (depthThroughFill_bounds hasks x 0).2
    have hclamp : x ≤ participationShare maxParticipationPpm (askDepth yesAsks) :=
      hfits.trans (participationShare_mono hshare (by omega))
    refine SettledPasses.le_settle (fun y hxy => ?_) _ _
      (le_floorIf hlots (le_min hsize hclamp))
    -- a size above one that fits reaches at least its depth
    exact le_floorIf hlots
      (hfits.trans (participationShare_mono hshare (depthThroughFill_mono hasks hxy 0)))

/-- A quarter of twelve contracts is three whole ones, however many more are wanted. -/
theorem participationFixedPoint_isGreatest_twoLevels :
    participationFixedPoint 700 [⟨⟨4000⟩, ⟨250⟩⟩, ⟨⟨5000⟩, ⟨950⟩⟩] 250000 true = 300 ∧
      IsGreatest {x | x ≤ 700 ∧ (true = true → exchangeMinOrderCentis ∣ x) ∧
          x ≤ participationShare 250000
            (depthThroughFill [⟨⟨4000⟩, ⟨250⟩⟩, ⟨⟨5000⟩, ⟨950⟩⟩] x 0)}
        (participationFixedPoint 700 [⟨⟨4000⟩, ⟨250⟩⟩, ⟨⟨5000⟩, ⟨950⟩⟩] 250000 true) :=
  ⟨by decide, (participationFixedPoint_isGreatest (by decide) (by decide)).1⟩

end Participation

/-! ## A clipped size respects every cap -/

theorem leastLimit_le : ∀ (limits : List (CapName × ℤ)) (rawCentis : ℤ),
    leastLimit rawCentis limits ≤ rawCentis ∧
      ∀ cap ∈ limits, leastLimit rawCentis limits ≤ cap.2
  | [], _ => ⟨le_refl _, fun _ h => absurd h List.not_mem_nil⟩
  | first :: rest, rawCentis => by
    obtain ⟨hraw, hrest⟩ := leastLimit_le rest (min rawCentis first.2)
    refine ⟨hraw.trans (min_le_left _ _), fun cap hcap => ?_⟩
    rcases List.mem_cons.mp hcap with rfl | hlater
    · exact hraw.trans (min_le_right _ _)
    · exact hrest cap hlater

/-- The notional of a size at a price is within what is left of a ceiling. -/
theorem headroomCapCentis_bound {ceiling used pricePpm limit : ℤ} (hprice : 0 < pricePpm)
    (h : headroomCapCentis ceiling used pricePpm = .ok limit) :
    limit * pricePpm ≤ max 0 (ceiling - used) * centisPerContract := by
  rw [headroomCapCentis, divide_of_ne_zero hprice.ne'] at h
  cases h
  exact (quotient_bounds hprice _).1

/-- The limits are those of the ceilings. -/
theorem limits_of_ceilings {pricePpm : ℤ} (hprice : 0 < pricePpm) :
    ∀ {ceilings : List (CapName × ℤ × ℤ)} {limits : List (CapName × ℤ)},
      (ceilings.mapM fun cap => do
        let limit ← headroomCapCentis cap.2.1 cap.2.2 pricePpm
        return (cap.1, limit)) = Except.ok limits →
      ∀ cap ∈ ceilings, ∃ limit ∈ limits,
        limit.2 * pricePpm ≤ max 0 (cap.2.1 - cap.2.2) * centisPerContract
  | [], _, _, _, hcap => absurd hcap List.not_mem_nil
  | first :: rest, limits, h, cap, hcap => by
    rw [List.mapM_cons] at h
    obtain ⟨head, hhead, h⟩ := Effects.except_bind_ok.mp h
    obtain ⟨tail, htail, h⟩ := Effects.except_bind_ok.mp h
    obtain ⟨limit, hlimit, hhead⟩ := Effects.except_bind_ok.mp hhead
    cases h
    cases hhead
    rcases List.mem_cons.mp hcap with rfl | hlater
    · exact ⟨_, List.mem_cons_self .., headroomCapCentis_bound hprice hlimit⟩
    · obtain ⟨found, hfound, hbound⟩ := limits_of_ceilings hprice htail cap hlater
      exact ⟨found, List.mem_cons_of_mem _ hfound, hbound⟩

/-- A size that respects all the caps, measured at a price. -/
structure Clipped (sizeCentis rawCentis pricePpm : ℤ) (yesAsks : List OrderBookLevel)
    (risk : RiskConfig) (positions : PositionReadModelInput) (bucketCapName : CapName) : Prop where
  le_raw : sizeCentis ≤ rawCentis
  size_pos : 0 < sizeCentis
  lots : exchangeMinOrderCentis ∣ sizeCentis
  headroom : 0 < pricePpm → ∀ cap ∈ notionalCeilings positions risk bucketCapName,
    sizeCentis * pricePpm ≤ max 0 (cap.2.1 - cap.2.2) * centisPerContract
  share : sizeCentis ≤
    participationShare risk.maxParticipationPpm (depthThroughFill yesAsks sizeCentis 0)

/-- **A size that survives the clipping respects all the caps.** -/
theorem clipToCaps_spec {rawSize : ContractCentis} {pricePpm : ℤ} {orderBook : OrderBookSnapshot}
    {risk : RiskConfig} {positions : PositionReadModelInput} {bucketCapName : CapName}
    {clip : CapClipResult}
    (h : clipToCaps rawSize pricePpm orderBook risk positions bucketCapName = .ok clip)
    (hsize : clip.size.value ≠ 0) :
    Clipped clip.size.value rawSize.value pricePpm orderBook.yesAsks risk positions
      bucketCapName := by
  unfold clipToCaps at h
  obtain ⟨limits, hlimits, h⟩ := Effects.except_bind_ok.mp h
  dsimp only at h
  by_cases hzero : participationFixedPoint (leastLimit rawSize.value limits) orderBook.yesAsks
      risk.maxParticipationPpm true < exchangeMinOrderCentis
  · rw [if_pos hzero] at h
    cases h
    exact absurd rfl hsize
  · rw [if_neg hzero] at h
    cases h
    have hleast := leastLimit_le limits rawSize.value
    exact
      { le_raw := participationFixedPoint_le.trans hleast.1
        size_pos := lt_of_lt_of_le (show 0 < exchangeMinOrderCentis by decide) (not_lt.mp hzero)
        lots := lot_dvd_participationFixedPoint
        headroom := fun hprice cap hcap => by
          obtain ⟨limit, hlimit, hbound⟩ := limits_of_ceilings hprice hlimits cap hcap
          have hle : participationFixedPoint (leastLimit rawSize.value limits) orderBook.yesAsks
              risk.maxParticipationPpm true ≤ limit.2 :=
            participationFixedPoint_le.trans (hleast.2 limit hlimit)
          exact (mul_le_mul_of_nonneg_right hle hprice.le).trans hbound
        share := participationFixedPoint_le_share }

end Windbreak
