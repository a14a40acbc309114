import Windbreak.Numeric.Units
import Windbreak.RiskKernel.Modes

/-!
# What a pre-trade check reads

The order intent and the evaluation context, both immutable: the operating mode, the configured
limits, the account snapshot, the market view, the fee bounds and the clock.  An optional field is
`none` when the datum is unavailable; a check that needs it vetoes.
-/

namespace Windbreak

/-- The exchange's trading status; an unknown status is `none`, never a member. -/
inductive ExchangeTradingStatus where
  | OPEN
  | PAUSED
  | CLOSED
  deriving DecidableEq, Repr

/-- Whether a market is jurisdiction-eligible; unknown is `none`. -/
inductive JurisdictionStatus where
  | ELIGIBLE
  | INELIGIBLE
  deriving DecidableEq, Repr

/-- The product shapes this system recognises: there is one. -/
inductive ProductType where
  | FULLY_COLLATERALIZED_BINARY
  deriving DecidableEq, Repr

/-- Worst-case fee bounds, each `none` when no bound is provable. -/
structure FeeBounds where
  maxTradingFee : Option MoneyMicros
  maxSettlementFee : Option MoneyMicros
  deriving DecidableEq, Repr

/-- A snapshot of the account. -/
structure AccountState where
  exchangeVerifiedAvailableCash : MoneyMicros
  guaranteedTerminalValueOfPositions : MoneyMicros
  pendingKernelReservations : MoneyMicros
  unresolvedFeeUpperBounds : MoneyMicros
  reconciliationUncertaintyBuffer : MoneyMicros
  equityStartOfDay : MoneyMicros
  equityHighWaterMark : MoneyMicros
  sampledEquity : MoneyMicros
  realizedLossToday : MoneyMicros
  marketExposure : MoneyMicros
  eventExposure : MoneyMicros
  bucketExposure : MoneyMicros
  totalExposure : MoneyMicros
  ordersLastHour : ℤ
  notionalToday : MoneyMicros
  deriving DecidableEq, Repr

/-- The market data a check reads. -/
structure MarketView where
  quoteSnapshotEpochS : Option ℤ
  forecastEpochS : Option ℤ
  visibleDepth : Option ContractCentis
  exchangeClockEpochS : Option ℤ
  openPosition : Option ContractCentis
  exchangeStatus : Option ExchangeTradingStatus
  exchangeStatusEpochS : Option ℤ
  jurisdictionStatus : Option JurisdictionStatus
  productType : Option ProductType
  deriving DecidableEq, Repr

/-- The configured limits; percentages are in parts per million. -/
structure RiskLimits where
  floor : MoneyMicros
  instrumentWhitelist : Finset String
  microCap : MoneyMicros
  minOpenPrice : PricePips
  maxOpenPrice : PricePips
  maxParticipationPpm : ℤ
  maxPosMarketPctPpm : ℤ
  maxPosEventPctPpm : ℤ
  maxPosBucketPctPpm : ℤ
  maxPosTotalPctPpm : ℤ
  dailyLossLimitPctPpm : ℤ
  maxDrawdownPctPpm : ℤ
  maxOrdersPerHour : ℤ
  maxNotionalPerDay : MoneyMicros
  quoteTtlSeconds : ℤ
  forecastTtlSeconds : ℤ
  clockSkewMaxSeconds : ℤ
  roundingBuffer : MoneyMicros
  verificationTtlSeconds : ℤ
  requireHumanAckAboveMicros : Option MoneyMicros
  exchangeStatusTtlSeconds : ℤ
  pipelineHeartbeatTtlSeconds : ℤ
  deriving DecidableEq

/-- The graded result of one verification cycle. -/
inductive VerificationOutcome where
  | CLEAN
  | DRIFT_WITHIN_TOLERANCE
  | BREACH
  deriving DecidableEq, Repr

/-- The immutable result of one verification cycle. -/
structure VerificationSnapshot where
  outcome : VerificationOutcome
  balanceOk : Bool
  positionOk : Bool
  openOrderOk : Bool
  verifiedAtEpochS : ℤ
  exchangeVerifiedAvailableCash : MoneyMicros
  cashDrift : MoneyMicros
  semanticsFullyKnown : Bool
  deriving DecidableEq, Repr

/-- The drift a cycle admits before a dimension is a breach. -/
structure VerificationTolerances where
  balanceTolerance : MoneyMicros
  positionTolerance : ContractCentis
  deriving DecidableEq, Repr

/-- The full context of an evaluation. -/
structure EvaluationContext where
  mode : Mode
  limits : RiskLimits
  account : AccountState
  market : MarketView
  fees : FeeBounds
  nowEpochS : ℤ
  usedIntentIds : Finset String
  usedIdempotencyKeys : Finset String
  verification : Option VerificationSnapshot
  acknowledgedIntentIds : Finset String
  pipelineHeartbeatEpochS : Option ℤ
  deriving DecidableEq

/-- A normalized order intent. Its texts hold no surrogates. -/
structure OrderIntent where
  intentId : String
  marketTicker : String
  outcome : String
  action : String
  price : PricePips
  size : ContractCentis
  maxNotional : MoneyMicros
  impliedProbability : ProbabilityPpm
  idempotencyKey : String
  deriving DecidableEq, Repr

end Windbreak
