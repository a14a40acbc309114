import Windbreak.Selector.Edge

/-!
# The conditions of entry

Twelve named conditions, evaluated on the inputs and on the figures of one fill.  Freshness is
judged against the latest instant the inputs hold.  The market's jurisdiction and category are not
among the inputs, so those two pass here and are the screener's to enforce.

Four of the conditions read the figures; each has a lemma that says what it asks for.  The others
hold at every fill or at none (`holds_of_not_readsFigures`).
-/

namespace Windbreak

def microsPerSecond : ℤ := 1000000

def microsPerHour : ℤ := 3600 * microsPerSecond

/-- How old a fee schedule may be. -/
def feeModelTtl : ℤ := 24 * microsPerHour

/-- The latest instant that the inputs hold. -/
def referenceInstant (inputs : SelectorInputs) : ℤ :=
  max (max inputs.orderBook.fetchedAt inputs.forecast.createdAt) inputs.feeModel.asOf

/-! ## The twelve checks -/

def netEdgeMin (inputs : SelectorInputs) (figures : EdgeFigures) : EntryCheck where
  name := .netEdgeMin
  passed := figures.netEdgePpm ≥ inputs.riskConfig.minNetEdgePpm
  detail := .netEdge figures.netEdgePpm inputs.riskConfig.minNetEdgePpm

/-- What a return must beat: the hurdle and what idle cash earns. -/
def hurdlePpm (risk : RiskConfig) : ℤ := risk.annualizedHurdlePpm + risk.idleCashAprPpm

def annualizedHurdle (inputs : SelectorInputs) (figures : EdgeFigures) : EntryCheck where
  name := .annualizedHurdle
  passed := figures.annualizedExpectedReturnPpm ≥ hurdlePpm inputs.riskConfig
  detail := .annualized figures.annualizedExpectedReturnPpm (hurdlePpm inputs.riskConfig)

/-- Whether an interval holds a price, its ends included. -/
def straddles (forecast : SelectorForecast) (pricePpm : ℤ) : Bool :=
  forecast.ciLowPpm ≤ pricePpm && pricePpm ≤ forecast.ciHighPpm

def ciStraddlesExecutablePrice (inputs : SelectorInputs) (figures : EdgeFigures) :
    EntryCheck where
  name := .ciStraddlesExecutablePrice
  passed := !straddles inputs.forecast figures.executablePricePpm
  detail := .interval inputs.forecast.ciLowPpm inputs.forecast.ciHighPpm
    figures.executablePricePpm

def quoteSnapshotFresh (inputs : SelectorInputs) (reference : ℤ) : EntryCheck :=
  let age := reference - inputs.orderBook.fetchedAt
  let ttl := inputs.riskConfig.quoteTtlSeconds * microsPerSecond
  { name := .quoteSnapshotFresh, passed := age ≤ ttl, detail := .quoteAge age ttl }

def forecastFresh (inputs : SelectorInputs) (reference : ℤ) : EntryCheck :=
  let deadline :=
    inputs.forecast.createdAt + inputs.forecast.forecastHorizonHours * microsPerHour
  { name := .forecastFresh
    passed := reference ≤ deadline
    detail := .forecastDeadline reference deadline }

def feeModelCurrent (inputs : SelectorInputs) (reference : ℤ) : EntryCheck :=
  let age := reference - inputs.feeModel.asOf
  { name := .feeModelCurrent, passed := age ≤ feeModelTtl, detail := .feeModelAge age feeModelTtl }

def marketCoherent (inputs : SelectorInputs) : EntryCheck where
  name := .marketCoherent
  passed := !inputs.forecast.coherenceFlag
  detail := .coherence inputs.forecast.coherenceFlag

def citationSupport (inputs : SelectorInputs) : EntryCheck where
  name := .citationSupport
  passed := inputs.forecast.citations.length > 0
  detail := .citationCount inputs.forecast.citations.length

def jurisdictionEligible : EntryCheck where
  name := .jurisdictionEligible
  passed := true
  detail := .screenerSeam

def categoryEligible : EntryCheck where
  name := .categoryEligible
  passed := true
  detail := .screenerSeam

def priceWithinBands (inputs : SelectorInputs) (figures : EdgeFigures) : EntryCheck :=
  let risk := inputs.riskConfig
  let price := figures.executablePricePips.value
  if price < risk.minOpenPricePips then
    { name := .priceWithinBands
      passed := false
      detail := .priceBelowMinOpenBand price risk.minOpenPricePips risk.maxOpenPricePips }
  else if price > risk.maxOpenPricePips then
    { name := .priceWithinBands
      passed := false
      detail := .priceAboveMaxOpenBand price risk.minOpenPricePips risk.maxOpenPricePips }
  else
    { name := .priceWithinBands
      passed := true
      detail := .priceInBand price risk.minOpenPricePips risk.maxOpenPricePips }

def forecastLiveEligible (inputs : SelectorInputs) : EntryCheck where
  name := .forecastLiveEligible
  passed := inputs.forecast.eligibleForLive
  detail := .liveEligible inputs.forecast.eligibleForLive

/-- The twelve checks, in their order. -/
def evaluateEntryConditions (inputs : SelectorInputs) (figures : EdgeFigures) :
    List EntryCheck :=
  let reference := referenceInstant inputs
  [netEdgeMin inputs figures, annualizedHurdle inputs figures,
    ciStraddlesExecutablePrice inputs figures, quoteSnapshotFresh inputs reference,
    forecastFresh inputs reference, feeModelCurrent inputs reference, marketCoherent inputs,
    citationSupport inputs, jurisdictionEligible, categoryEligible,
    priceWithinBands inputs figures, forecastLiveEligible inputs]

/-! ## What the checks ask for -/

/-- The check of a condition. -/
def checkOf (inputs : SelectorInputs) (figures : EdgeFigures) : EntryCondition → EntryCheck
  | .netEdgeMin => netEdgeMin inputs figures
  | .annualizedHurdle => annualizedHurdle inputs figures
  | .ciStraddlesExecutablePrice => ciStraddlesExecutablePrice inputs figures
  | .quoteSnapshotFresh => quoteSnapshotFresh inputs (referenceInstant inputs)
  | .forecastFresh => forecastFresh inputs (referenceInstant inputs)
  | .feeModelCurrent => feeModelCurrent inputs (referenceInstant inputs)
  | .marketCoherent => marketCoherent inputs
  | .citationSupport => citationSupport inputs
  | .jurisdictionEligible => jurisdictionEligible
  | .categoryEligible => categoryEligible
  | .priceWithinBands => priceWithinBands inputs figures
  | .forecastLiveEligible => forecastLiveEligible inputs

/-- A condition holds of the inputs at the figures of a fill. -/
def Holds (inputs : SelectorInputs) (figures : EdgeFigures) (condition : EntryCondition) : Prop :=
  (checkOf inputs figures condition).passed = true

instance (inputs : SelectorInputs) (figures : EdgeFigures) (condition : EntryCondition) :
    Decidable (Holds inputs figures condition) :=
  inferInstanceAs (Decidable ((checkOf inputs figures condition).passed = true))

/-- The conditions that read the figures. -/
def EntryCondition.readsFigures : EntryCondition → Bool
  | .netEdgeMin | .annualizedHurdle | .ciStraddlesExecutablePrice | .priceWithinBands => true
  | _ => false

variable {inputs : SelectorInputs} {figures other : EdgeFigures}

/-- Every check passes exactly when every condition holds. -/
theorem evaluateEntryConditions_all_iff :
    (evaluateEntryConditions inputs figures).all (·.passed) = true ↔
      ∀ condition, Holds inputs figures condition := by
  simp only [evaluateEntryConditions, List.all_cons, List.all_nil, Bool.and_eq_true, Bool.and_true]
  constructor
  · rintro ⟨h1, h2, h3, h4, h5, h6, h7, h8, h9, h10, h11, h12⟩ condition
    cases condition <;> assumption
  · intro h
    exact ⟨h .netEdgeMin, h .annualizedHurdle, h .ciStraddlesExecutablePrice,
      h .quoteSnapshotFresh, h .forecastFresh, h .feeModelCurrent, h .marketCoherent,
      h .citationSupport, h .jurisdictionEligible, h .categoryEligible, h .priceWithinBands,
      h .forecastLiveEligible⟩

/-- **A condition that reads no figure** holds at every fill or at none. -/
theorem holds_of_not_readsFigures {condition : EntryCondition}
    (hreads : condition.readsFigures = false) (h : Holds inputs figures condition) :
    Holds inputs other condition := by
  cases condition with
  | netEdgeMin | annualizedHurdle | ciStraddlesExecutablePrice | priceWithinBands =>
    cases hreads
  | _ => exact h

theorem holds_netEdgeMin_iff :
    Holds inputs figures .netEdgeMin ↔ inputs.riskConfig.minNetEdgePpm ≤ figures.netEdgePpm :=
  decide_eq_true_iff

theorem holds_ciStraddles_iff :
    Holds inputs figures .ciStraddlesExecutablePrice ↔
      figures.executablePricePpm < inputs.forecast.ciLowPpm ∨
        inputs.forecast.ciHighPpm < figures.executablePricePpm := by
  unfold Holds checkOf ciStraddlesExecutablePrice straddles
  simp only [Bool.not_eq_true', Bool.and_eq_false_iff, decide_eq_false_iff_not, not_le]

theorem holds_priceWithinBands_iff :
    Holds inputs figures .priceWithinBands ↔
      inputs.riskConfig.minOpenPricePips ≤ figures.executablePricePips.value ∧
        figures.executablePricePips.value ≤ inputs.riskConfig.maxOpenPricePips := by
  unfold Holds checkOf priceWithinBands
  dsimp only
  by_cases hlow : figures.executablePricePips.value < inputs.riskConfig.minOpenPricePips
  · rw [if_pos hlow]
    exact iff_of_false (fun h => by cases h) fun h => by omega
  · rw [if_neg hlow]
    by_cases hhigh : figures.executablePricePips.value > inputs.riskConfig.maxOpenPricePips
    · rw [if_pos hhigh]
      exact iff_of_false (fun h => by cases h) fun h => by omega
    · rw [if_neg hhigh]
      exact iff_of_true rfl ⟨by omega, by omega⟩

end Windbreak
