import Windbreak.Connector.Fees
import Windbreak.Connector.Models

/-!
# What a selection reads and answers

The selector is a pure function of one bundle of inputs: it reads no clock, and freshness is judged
by the instants the bundle carries.  Instants are in microseconds since the epoch.
-/

namespace Windbreak

/-! ## Correlation buckets -/

/-- Who proposed a tag. -/
inductive TagSource where
  | llm
  | human
  deriving DecidableEq, Repr

def seedBuckets : List String :=
  ["us-election", "fed-policy", "inflation", "weather", "ai-regulation", "company-specific",
    "legal-case"]

def geopoliticsPrefix : String := "geopolitics-"

/-- A seed bucket, or a geopolitics one that names a region. -/
def isValidBucketId (bucketId : String) : Bool :=
  bucketId ∈ seedBuckets ||
    (geopoliticsPrefix.toList.isPrefixOf bucketId.toList &&
      decide (geopoliticsPrefix.length < bucketId.length))

/-- A correlation tag of a market; its bucket is one of the taxonomy. -/
structure CorrelationTag where
  bucketId : String
  source : TagSource
  valid : isValidBucketId bucketId = true

/-- What a peer market is exposed to, and its own tags. -/
structure BucketExposureEntry where
  marketTicker : String
  exposureMicros : MoneyMicros
  tags : List CorrelationTag

/-! ## Inputs -/

/-- A forecast record, as far as a selection reads it. -/
structure SelectorForecast where
  forecastId : String
  marketTicker : String
  probabilityPpm : ℤ
  ciLowPpm : ℤ
  ciHighPpm : ℤ
  voteDispersionPpm : ℤ
  citations : List String
  createdAt : ℤ
  forecastHorizonHours : ℤ
  coherenceFlag : Bool
  eligibleForLive : Bool
  probability_ppm : 0 ≤ probabilityPpm ∧ probabilityPpm ≤ 1000000
  ci_low_ppm : 0 ≤ ciLowPpm ∧ ciLowPpm ≤ 1000000
  ci_high_ppm : 0 ≤ ciHighPpm ∧ ciHighPpm ≤ 1000000
  live_coherent : eligibleForLive = true → coherenceFlag = false

/-- The fee schedule to price with and when it was captured. -/
structure FeeModelInput where
  model : FeeModel
  asOf : ℤ

/-- The thresholds of the risk configuration that a selection reads, with their defaults. -/
structure RiskConfig where
  minNetEdgePpm : ℤ := 30000
  annualizedHurdlePpm : ℤ := 200000
  idleCashAprPpm : ℤ := 40000
  kellyFractionPpm : ℤ := 100000
  dispersionZeroCeilingPpm : ℤ := 200000
  minOpenPricePips : ℤ := 500
  maxOpenPricePips : ℤ := 9500
  maxParticipationPpm : ℤ := 250000
  maxPosMarketPctPpm : ℤ := 20000
  maxPosEventPctPpm : ℤ := 40000
  maxPosBucketPctPpm : ℤ := 100000
  maxNotionalPerDayMicros : ℤ := 500000000
  quoteTtlSeconds : ℤ := 10
  restingOrderTtlSeconds : ℤ := 900
  cancelOnMoveTicks : ℤ := 2

/-- The capital and the exposures that sizing reads. -/
structure PositionReadModelInput where
  equityMicros : MoneyMicros
  aboveFloorCapitalMicros : MoneyMicros
  totalDeployCapMicros : MoneyMicros
  marketExposure : MoneyMicros
  eventExposure : MoneyMicros
  bucketExposure : MoneyMicros
  totalExposure : MoneyMicros
  notionalToday : MoneyMicros

/-- The bundle that one selection evaluates. -/
structure SelectorInputs where
  forecast : SelectorForecast
  calibrationMapVersion : String
  orderBook : OrderBookSnapshot
  feeModel : FeeModelInput
  perContractBufferPpm : ℤ
  positions : PositionReadModelInput
  riskConfig : RiskConfig
  correlationTags : List CorrelationTag
  bucketPeers : List BucketExposureEntry

/-! ## Answers -/

/-- How an intent takes liquidity.  Only a resting one carries a time to live and a guard against
adverse moves. -/
inductive ExecutionStyle where
  | cross
  | restInsideSpread (restingTtlSeconds cancelOnMoveTicks : ℤ)
  deriving DecidableEq, Repr

/-- An opening order to buy YES. -/
structure SelectorOrderIntent where
  intentId : String
  marketTicker : String
  price : PricePips
  size : ContractCentis
  maxNotional : MoneyMicros
  impliedProbability : ProbabilityPpm
  executionStyle : ExecutionStyle
  deriving DecidableEq, Repr

/-- The conditions of entry, in the order they are evaluated. -/
inductive EntryCondition where
  | netEdgeMin
  | annualizedHurdle
  | ciStraddlesExecutablePrice
  | quoteSnapshotFresh
  | forecastFresh
  | feeModelCurrent
  | marketCoherent
  | citationSupport
  | jurisdictionEligible
  | categoryEligible
  | priceWithinBands
  | forecastLiveEligible
  deriving DecidableEq, Repr

/-- The values that the verdict of a condition is explained by. -/
inductive EntryDetail where
  | netEdge (netEdgePpm minNetEdgePpm : ℤ)
  | annualized (annualizedPpm hurdlePpm : ℤ)
  | interval (ciLowPpm ciHighPpm executablePricePpm : ℤ)
  | quoteAge (age quoteTtl : ℤ)
  | forecastDeadline (reference deadline : ℤ)
  | feeModelAge (age feeModelTtl : ℤ)
  | coherence (flag : Bool)
  | citationCount (count : ℕ)
  | screenerSeam
  | priceBelowMinOpenBand (executablePricePips low high : ℤ)
  | priceAboveMaxOpenBand (executablePricePips low high : ℤ)
  | priceInBand (executablePricePips low high : ℤ)
  | liveEligible (eligible : Bool)
  deriving DecidableEq, Repr

/-- The verdict on one condition. -/
structure EntryCheck where
  name : EntryCondition
  passed : Bool
  detail : EntryDetail
  deriving DecidableEq, Repr

/-- What bound a size. -/
inductive CapName where
  | perMarket
  | perEvent
  | perBucket (bucketId : Option String)
  | totalDeployed
  | dailyNotional
  | participation
  | exchangeMinOrder
  deriving DecidableEq, Repr

/-- Why a selection came out as it did. -/
inductive DecisionReason where
  | pass (name : EntryCondition)
  | fail (name : EntryCondition) (detail : EntryDetail)
  | insufficientBookDepth (required available : ℤ)
  | nonAnnualizable (executablePricePpm horizonHours : ℤ)
  | sizing (rawCentis gPpm : ℤ) (bindingCap : Option CapName) (finalCentis : ℤ)
  | netEdgeAtFinalSize (netEdgePpm minNetEdgePpm : ℤ)
  deriving DecidableEq, Repr

/-- The record of one selection. -/
structure SelectorDecision where
  intents : List SelectorOrderIntent
  reasons : List DecisionReason
  forecastId : String
  marketTicker : String
  calibrationMapVersion : String
  deriving DecidableEq, Repr

end Windbreak
