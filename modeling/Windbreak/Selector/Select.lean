import Mathlib.Data.List.Sort
import Mathlib.Data.String.Basic
import Windbreak.Selector.Edge
import Windbreak.Selector.Entry
import Windbreak.Selector.Sizing
import Windbreak.Selector.Types

/-!
# The selection

A selection prices a probe of one contract and evaluates the conditions of entry on it.  When all of
them hold it sizes the order against the probe's figures, clips it through every cap, prices it once
more at its final size and answers one intent, or it declines with a reason.

**`select_emits`** is the one place that takes a selection apart: `Emission` is everything that an
answered intent went through.
-/

/-! ## Correlation buckets

A market's tags resolve to its effective buckets: one tag of an operator replaces all those of the
ensemble.  The exposure that counts against a market is the largest that any of its buckets holds
(`bucketTotal_le_aggregate`).
-/

namespace Windbreak

/-- The effective buckets of a market, in order and without repetition. -/
def effectiveBuckets (tags : List CorrelationTag) : List String :=
  let humanTags := tags.filter fun tag => tag.source = .human
  let chosen := if humanTags.isEmpty then tags else humanTags
  ((chosen.map (·.bucketId)).dedup).insertionSort (· ≤ ·)

/-- What the peers in a bucket are exposed to. -/
def bucketTotal (peers : List BucketExposureEntry) (bucketId : String) : ℤ :=
  ((peers.filter fun peer => bucketId ∈ effectiveBuckets peer.tags).map
    (·.exposureMicros.value)).sum

/-- Keep the larger of the best total so far and that of one more bucket. -/
def betterBucket (peers : List BucketExposureEntry) (best : ℤ × Option String)
    (bucketId : String) : ℤ × Option String :=
  if bucketTotal peers bucketId > best.1 then (bucketTotal peers bucketId, some bucketId) else best

/-- The largest total of the target's buckets, and the first bucket that has it. -/
def aggregateBucketExposure (targetBuckets : List String) (peers : List BucketExposureEntry) :
    ℤ × Option String :=
  (targetBuckets.insertionSort (· ≤ ·)).foldl (betterBucket peers) (0, none)

/-! ## The largest total -/

variable {peers : List BucketExposureEntry}

theorem le_betterBucket (best : ℤ × Option String) (bucketId : String) :
    best.1 ≤ (betterBucket peers best bucketId).1 ∧
      bucketTotal peers bucketId ≤ (betterBucket peers best bucketId).1 := by
  unfold betterBucket
  by_cases hbetter : bucketTotal peers bucketId > best.1
  · rw [if_pos hbetter]
    exact ⟨hbetter.le, le_refl _⟩
  · rw [if_neg hbetter]
    exact ⟨le_refl _, not_lt.mp hbetter⟩

theorem le_foldl_betterBucket : ∀ (bucketIds : List String) (best : ℤ × Option String),
    best.1 ≤ (bucketIds.foldl (betterBucket peers) best).1 ∧
      ∀ bucketId ∈ bucketIds,
        bucketTotal peers bucketId ≤ (bucketIds.foldl (betterBucket peers) best).1
  | [], best => ⟨le_refl _, fun _ h => absurd h List.not_mem_nil⟩
  | first :: rest, best => by
    have hstep := @le_betterBucket peers best first
    obtain ⟨hkeeps, hrest⟩ := le_foldl_betterBucket rest (betterBucket peers best first)
    rw [List.foldl_cons]
    refine ⟨hstep.1.trans hkeeps, fun bucketId hmem => ?_⟩
    rcases List.mem_cons.mp hmem with rfl | hlater
    · exact hstep.2.trans hkeeps
    · exact hrest bucketId hlater

/-- **No bucket of the target holds more** than the aggregate. -/
theorem bucketTotal_le_aggregate {targetBuckets : List String} {bucketId : String}
    (h : bucketId ∈ targetBuckets) :
    bucketTotal peers bucketId ≤ (aggregateBucketExposure targetBuckets peers).1 :=
  (le_foldl_betterBucket _ _).2 bucketId ((List.mem_insertionSort _).mpr h)

end Windbreak

/-! ## The style of execution

An opening order crosses the spread, unless the spread is wide and the edge persists at a price just
inside it, which must lie in the band of open prices.  `decideExecutionStyle_rests` says what a
decision to rest has checked.
-/

namespace Windbreak

/-- The least spread that is wide, in pips. -/
def wideSpreadMinPips : ℤ := 300

/-- How far inside the spread a resting order stands, in pips. -/
def restImprovementPips : ℤ := 100

/-- The style that was chosen.  Only a decision to rest carries a price. -/
inductive ExecutionStyleDecision where
  | cross
  | rest (restingPricePips : PricePips) (restingTtlSeconds cancelOnMoveTicks : ℤ)
  deriving DecidableEq, Repr

/-- The style that an intent is stamped with. -/
def ExecutionStyleDecision.style : ExecutionStyleDecision → ExecutionStyle
  | .cross => .cross
  | .rest _ restingTtlSeconds cancelOnMoveTicks =>
    .restInsideSpread restingTtlSeconds cancelOnMoveTicks

/-- The net edge of a size at a price. -/
def netEdgeAtPricePpm (inputs : SelectorInputs) (restPrice : PricePips) (size : ContractCentis) :
    Except String ℤ := do
  let fee ← feeMicros inputs.feeModel restPrice.value size.value
  let feePpm ← perContractPpm fee size.value
  return inputs.forecast.probabilityPpm - restPrice.value * ppmPerPip - feePpm -
    inputs.perContractBufferPpm

/-- Cross, unless every row of the table lets the order rest. -/
def decideExecutionStyle (inputs : SelectorInputs) (size : ContractCentis) :
    Except String ExecutionStyleDecision :=
  match inputs.orderBook.yesBids, inputs.orderBook.yesAsks with
  | bestBid :: _, bestAsk :: _ =>
    if bestAsk.price.value - bestBid.price.value < wideSpreadMinPips then .ok .cross
    else
      let restPrice : PricePips := ⟨bestBid.price.value + restImprovementPips⟩
      let risk := inputs.riskConfig
      if restPrice.value < risk.minOpenPricePips ∨ restPrice.value > risk.maxOpenPricePips then
        .ok .cross
      else do
        let net ← netEdgeAtPricePpm inputs restPrice size
        if net < risk.minNetEdgePpm then return .cross
        return .rest restPrice risk.restingOrderTtlSeconds risk.cancelOnMoveTicks
  | _, _ => .ok .cross

/-- What a decision to rest has checked of its price. -/
structure Rests (inputs : SelectorInputs) (size : ContractCentis) (price : PricePips) : Prop where
  inside : ∃ bestBid bids bestAsk asks, inputs.orderBook.yesBids = bestBid :: bids ∧
    inputs.orderBook.yesAsks = bestAsk :: asks ∧
    price.value = bestBid.price.value + restImprovementPips ∧
    bestBid.price.value + wideSpreadMinPips ≤ bestAsk.price.value
  in_band : inputs.riskConfig.minOpenPricePips ≤ price.value ∧
    price.value ≤ inputs.riskConfig.maxOpenPricePips
  net_edge : ∃ net, netEdgeAtPricePpm inputs price size = .ok net ∧
    inputs.riskConfig.minNetEdgePpm ≤ net

/-- **A decision to rest** has checked the spread, the band and the edge. -/
theorem decideExecutionStyle_rests {inputs : SelectorInputs} {size : ContractCentis}
    {price : PricePips} {ttl ticks : ℤ}
    (h : decideExecutionStyle inputs size = .ok (.rest price ttl ticks)) :
    Rests inputs size price := by
  unfold decideExecutionStyle at h
  cases hbids : inputs.orderBook.yesBids with
  | nil =>
    rw [hbids] at h
    cases h
  | cons bestBid bids =>
    cases hasks : inputs.orderBook.yesAsks with
    | nil =>
      rw [hbids, hasks] at h
      cases h
    | cons bestAsk asks =>
      rw [hbids, hasks] at h
      dsimp only at h
      by_cases hspread : bestAsk.price.value - bestBid.price.value < wideSpreadMinPips
      · rw [if_pos hspread] at h
        cases h
      rw [if_neg hspread] at h
      by_cases hband : bestBid.price.value + restImprovementPips <
            inputs.riskConfig.minOpenPricePips ∨
          bestBid.price.value + restImprovementPips > inputs.riskConfig.maxOpenPricePips
      · rw [if_pos hband] at h
        cases h
      rw [if_neg hband] at h
      obtain ⟨net, hnet, h⟩ := Effects.except_bind_ok.mp h
      by_cases hedge : net < inputs.riskConfig.minNetEdgePpm
      · rw [if_pos hedge] at h
        cases h
      rw [if_neg hedge] at h
      cases h
      rw [not_or, not_lt, not_lt] at hband
      exact
        { inside := ⟨bestBid, bids, bestAsk, asks, hbids, hasks, rfl, by omega⟩
          in_band := hband
          net_edge := ⟨net, hnet, not_lt.mp hedge⟩ }

end Windbreak

namespace Windbreak

/-- The probe that gates entry: one contract. -/
def probeSizeCentis : ContractCentis := ⟨100⟩

def renderReason (check : EntryCheck) : DecisionReason :=
  if check.passed then .pass check.name else .fail check.name check.detail

/-- The price and the notional cap of an intent, by its style. -/
def priceAndNotional (inputs : SelectorInputs) (figures : EdgeFigures) (size : ContractCentis) :
    ExecutionStyleDecision → Except String (PricePips × MoneyMicros)
  | .rest restPrice _ _ => do
    let restFee ← feeMicros inputs.feeModel restPrice.value size.value
    return (restPrice, ⟨restPrice.value * size.value + restFee⟩)
  | .cross => do
    let fee ← feeMicros inputs.feeModel figures.executablePricePips.value size.value
    return (figures.marginalPricePips, ⟨figures.executableCostMicros.value + fee⟩)

/-- The one intent of a selection. -/
def buildIntent (inputs : SelectorInputs) (figures : EdgeFigures) (size : ContractCentis)
    (styleDecision : ExecutionStyleDecision) : Except String SelectorOrderIntent := do
  let (price, maxNotional) ← priceAndNotional inputs figures size styleDecision
  return {
    intentId := inputs.forecast.forecastId ++ ":yes:buy:sized"
    marketTicker := inputs.forecast.marketTicker
    price
    size
    maxNotional
    impliedProbability := ⟨inputs.forecast.probabilityPpm⟩
    executionStyle := styleDecision.style }

/-- The decision over some inputs. -/
def decision (inputs : SelectorInputs) (intents : List SelectorOrderIntent)
    (reasons : List DecisionReason) : SelectorDecision where
  intents := intents
  reasons := reasons
  forecastId := inputs.forecast.forecastId
  marketTicker := inputs.forecast.marketTicker
  calibrationMapVersion := inputs.calibrationMapVersion

/-- The price that the notional caps are measured at: that of the deepest ask. -/
def capReferencePricePpm (orderBook : OrderBookSnapshot) : Except String ℤ :=
  match orderBook.yesAsks.getLast? with
  | none => .error "tuple index out of range"
  | some deepest => .ok (deepest.price.value * ppmPerPip)

/-- Price a fill of some size on the inputs' book. -/
def edgeAt (inputs : SelectorInputs) (size : ContractCentis) : Except String EdgeOutcome :=
  computeExecutableEdge inputs.orderBook size inputs.forecast inputs.feeModel
    inputs.perContractBufferPpm

/-- The Kelly size of the inputs at the figures of a fill. -/
def kellySizeAt (inputs : SelectorInputs) (figures : EdgeFigures) : Except String ContractCentis := do
  let risk := inputs.riskConfig
  let gPpm ← dispersionScale inputs.forecast.voteDispersionPpm risk.dispersionZeroCeilingPpm
  kellySize figures.netEdgePpm risk.minNetEdgePpm figures.executablePricePpm
    risk.kellyFractionPpm gPpm inputs.positions.aboveFloorCapitalMicros

/-- The positions with the exposure of the target's buckets. -/
def bucketedPositions (inputs : SelectorInputs) : PositionReadModelInput :=
  { inputs.positions with
    bucketExposure :=
      ⟨(aggregateBucketExposure (effectiveBuckets inputs.correlationTags) inputs.bucketPeers).1⟩ }

/-- The name under which the bucket cap is reported. -/
def bucketCapName (inputs : SelectorInputs) : CapName :=
  .perBucket
    (aggregateBucketExposure (effectiveBuckets inputs.correlationTags) inputs.bucketPeers).2

/-- Price a clipped size once more, and answer its intent or decline. -/
def emitSized (inputs : SelectorInputs) (reasons : List DecisionReason)
    (sizingReason : DecisionReason) (size : ContractCentis) : Except String SelectorDecision := do
  match ← edgeAt inputs size with
  | .insufficientDepth required available =>
    return decision inputs [] (reasons ++ [.insufficientBookDepth required available])
  | .nonAnnualizable pricePpm horizonHours =>
    return decision inputs [] (reasons ++ [.nonAnnualizable pricePpm horizonHours])
  | .figures final =>
    if final.netEdgePpm < inputs.riskConfig.minNetEdgePpm then
      return decision inputs []
        (reasons ++ [.netEdgeAtFinalSize final.netEdgePpm inputs.riskConfig.minNetEdgePpm])
    let styleDecision ← decideExecutionStyle inputs size
    let intent ← buildIntent inputs final size styleDecision
    return decision inputs [intent] (reasons ++ [sizingReason])

/-- Size an evaluation that passed, and answer its intent or decline. -/
def sizeAndEmit (inputs : SelectorInputs) (figures : EdgeFigures) (reasons : List DecisionReason) :
    Except String SelectorDecision := do
  let gPpm ← dispersionScale inputs.forecast.voteDispersionPpm
    inputs.riskConfig.dispersionZeroCeilingPpm
  let raw ← kellySizeAt inputs figures
  let reference ← capReferencePricePpm inputs.orderBook
  let clip ← clipToCaps raw reference inputs.orderBook inputs.riskConfig
    (bucketedPositions inputs) (bucketCapName inputs)
  let sizingReason := .sizing raw.value gPpm clip.bindingCap clip.size.value
  if clip.size.value = 0 then
    return decision inputs [] (reasons ++ [sizingReason])
  emitSized inputs reasons sizingReason clip.size

/-- Evaluate the inputs into a decision. -/
def select (inputs : SelectorInputs) : Except String SelectorDecision := do
  match ← edgeAt inputs probeSizeCentis with
  | .insufficientDepth required available =>
    return decision inputs [] [.insufficientBookDepth required available]
  | .nonAnnualizable pricePpm horizonHours =>
    return decision inputs [] [.nonAnnualizable pricePpm horizonHours]
  | .figures figures =>
    let checks := evaluateEntryConditions inputs figures
    let reasons := checks.map renderReason
    if !checks.all (·.passed) then return decision inputs [] reasons
    sizeAndEmit inputs figures reasons

/-! ## What an emitted intent went through -/

/-- Everything that an intent went through before it was answered. -/
structure Emission (inputs : SelectorInputs) (intent : SelectorOrderIntent) where
  probe : EdgeFigures
  probed : edgeAt inputs probeSizeCentis = .ok (.figures probe)
  admitted : ∀ condition, Holds inputs probe condition
  raw : ContractCentis
  sized : kellySizeAt inputs probe = .ok raw
  reference : ℤ
  referred : capReferencePricePpm inputs.orderBook = .ok reference
  clip : CapClipResult
  clipped : clipToCaps raw reference inputs.orderBook inputs.riskConfig (bucketedPositions inputs)
    (bucketCapName inputs) = .ok clip
  survives : clip.size.value ≠ 0
  final : EdgeFigures
  priced : edgeAt inputs clip.size = .ok (.figures final)
  clears : inputs.riskConfig.minNetEdgePpm ≤ final.netEdgePpm
  style : ExecutionStyleDecision
  styled : decideExecutionStyle inputs clip.size = .ok style
  built : buildIntent inputs final clip.size style = .ok intent

/-- Pricing a clipped size answers an intent only when its edge still clears the floor. -/
theorem emitSized_emits {inputs : SelectorInputs} {reasons : List DecisionReason}
    {sizingReason : DecisionReason} {size : ContractCentis} {answer : SelectorDecision}
    {intent : SelectorOrderIntent} (h : emitSized inputs reasons sizingReason size = .ok answer)
    (hintent : intent ∈ answer.intents) :
    ∃ final style, edgeAt inputs size = .ok (.figures final) ∧
      inputs.riskConfig.minNetEdgePpm ≤ final.netEdgePpm ∧
      decideExecutionStyle inputs size = .ok style ∧
      buildIntent inputs final size style = .ok intent := by
  obtain ⟨outcome, hpriced, h⟩ := Effects.except_bind_ok.mp h
  cases outcome with
  | insufficientDepth _ _ =>
    cases h
    cases hintent
  | nonAnnualizable _ _ =>
    cases h
    cases hintent
  | figures final =>
    dsimp only at h
    by_cases hedge : final.netEdgePpm < inputs.riskConfig.minNetEdgePpm
    · rw [if_pos hedge] at h
      cases h
      cases hintent
    rw [if_neg hedge] at h
    obtain ⟨style, hstyle, h⟩ := Effects.except_bind_ok.mp h
    obtain ⟨built, hbuilt, h⟩ := Effects.except_bind_ok.mp h
    cases h
    rw [List.mem_singleton.mp hintent]
    exact ⟨final, style, hpriced, not_lt.mp hedge, hstyle, hbuilt⟩

/-- **An answered intent** was admitted at the probe, sized, clipped and priced once more. -/
theorem select_emits {inputs : SelectorInputs} {answer : SelectorDecision}
    {intent : SelectorOrderIntent} (h : select inputs = .ok answer)
    (hintent : intent ∈ answer.intents) : Nonempty (Emission inputs intent) := by
  obtain ⟨outcome, hprobed, h⟩ := Effects.except_bind_ok.mp h
  cases outcome with
  | insufficientDepth _ _ =>
    cases h
    cases hintent
  | nonAnnualizable _ _ =>
    cases h
    cases hintent
  | figures probe =>
    dsimp only at h
    by_cases hadmitted : (evaluateEntryConditions inputs probe).all (·.passed) = true
    · rw [if_neg (by rw [hadmitted]; decide)] at h
      obtain ⟨gPpm, hscale, h⟩ := Effects.except_bind_ok.mp h
      obtain ⟨raw, hraw, h⟩ := Effects.except_bind_ok.mp h
      obtain ⟨reference, hreference, h⟩ := Effects.except_bind_ok.mp h
      obtain ⟨clip, hclip, h⟩ := Effects.except_bind_ok.mp h
      dsimp only at h
      by_cases hzero : clip.size.value = 0
      · rw [if_pos hzero] at h
        cases h
        cases hintent
      rw [if_neg hzero] at h
      obtain ⟨final, style, hpriced, hedge, hstyle, hbuilt⟩ := emitSized_emits h hintent
      exact
        ⟨{ probe := probe
           probed := hprobed
           admitted := evaluateEntryConditions_all_iff.mp hadmitted
           raw := raw
           sized := hraw
           reference := reference
           referred := hreference
           clip := clip
           clipped := hclip
           survives := hzero
           final := final
           priced := hpriced
           clears := hedge
           style := style
           styled := hstyle
           built := hbuilt }⟩
    · rw [if_pos (by simpa using hadmitted)] at h
      cases h
      cases hintent

end Windbreak
