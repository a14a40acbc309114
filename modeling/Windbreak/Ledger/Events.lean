import Windbreak.Core.Json
import Windbreak.RiskKernel.Context

/-!
# Ledger events

An event names its type and the component that recorded it, carries the version of its payload's
shape, and the payload.  Below it, one constructor for every event that the kernel process and the
order gateway record, with the payload exactly as the recording code spells it.
-/

namespace Windbreak

/-- A ledger event. Its texts hold no surrogates. -/
structure Event where
  eventType : String
  component : String
  payloadSchemaVersion : ℤ
  payload : List (String × Json)
  deriving Repr

namespace Event

/-- An integer field of the payload. -/
def int? (e : Event) (key : String) : Option ℤ := (Json.lookup key e.payload).bind Json.asInt?

/-- A string field of the payload. -/
def str? (e : Event) (key : String) : Option String := (Json.lookup key e.payload).bind Json.asStr?

end Event

/-- The label the kernel process stamps on its events. -/
def kernelComponent : String := "riskkernel"

/-- An event of the kernel process. -/
def kernelEvent (eventType : String) (version : ℤ) (payload : List (String × Json)) : Event :=
  ⟨eventType, kernelComponent, version, payload⟩

/-! ## Reservations and tokens -/

def reservationCreatedEvent (intentId : String) (amount : MoneyMicros) (idempotencyKey : String)
    (expiresAt sequenceNumber : ℤ) : Event :=
  kernelEvent "ReservationCreated" 1
    [("intent_id", .str intentId), ("amount", .int amount.value),
      ("idempotency_key", .str idempotencyKey), ("expires_at", .int expiresAt),
      ("sequence_number", .int sequenceNumber)]

def reservationReleasedEvent (intentId reason : String) : Event :=
  kernelEvent "ReservationReleased" 1 [("intent_id", .str intentId), ("reason", .str reason)]

def reservationAdjustedEvent (intentId : String) (remainingAmount : MoneyMicros) : Event :=
  kernelEvent "ReservationAdjusted" 1
    [("intent_id", .str intentId), ("remaining_amount", .int remainingAmount.value)]

def approvalTokenIssuedEvent (intentId : String) (sequenceNumber expiresAt : ℤ) : Event :=
  kernelEvent "ApprovalTokenIssued" 1
    [("intent_id", .str intentId), ("sequence_number", .int sequenceNumber),
      ("expires_at", .int expiresAt)]

/-! ## Human acknowledgements -/

def humanAckRequestedEvent (approvalId intentId : String) (worstCaseCost : MoneyMicros)
    (requestedAt expiresAt : ℤ) : Event :=
  kernelEvent "HumanAckRequested" 1
    [("approval_id", .str approvalId), ("intent_id", .str intentId),
      ("worst_case_cost_micros", .int worstCaseCost.value), ("requested_at", .int requestedAt),
      ("expires_at", .int expiresAt)]

def humanAckGrantedEvent (approvalId intentId : String) (grantedAt : ℤ) : Event :=
  kernelEvent "HumanAckGranted" 1
    [("approval_id", .str approvalId), ("intent_id", .str intentId), ("granted_at", .int grantedAt)]

def humanAckLapsedEvent (approvalId intentId : String) (expiredAt : ℤ) : Event :=
  kernelEvent "HumanAckLapsed" 1
    [("approval_id", .str approvalId), ("intent_id", .str intentId), ("expired_at", .int expiredAt)]

/-! ## Kill and re-arm -/

def killEngagedEvent (trigger : String) (killSequence epoch : ℤ) : Event :=
  kernelEvent "KillEngaged" 1
    [("trigger", .str trigger), ("kill_sequence", .int killSequence), ("epoch", .int epoch)]

def killReArmedEvent (killSequence : ℤ) : Event :=
  kernelEvent "KillReArmed" 1 [("kill_sequence", .int killSequence)]

def cancelAllDirectiveEvent (scope : String) (delivery : List (String × Json))
    (deliveryReported : Bool) : Event :=
  kernelEvent "CancelAllDirective" 2
    [("scope", .str scope), ("delivery", .obj delivery),
      ("delivery_reported", .bool deliveryReported)]

def alertEmittedEvent (severity message : String) (deliveries : List Json)
    (deliveryReported : Bool) : Event :=
  kernelEvent "AlertEmitted" 2
    [("severity", .str severity), ("message", .str message), ("deliveries", .arr deliveries),
      ("delivery_reported", .bool deliveryReported)]

/-! ## Modes -/

def demotionTriggerFiredEvent (trigger action fromMode toMode : String) (transitioned : Bool) :
    Event :=
  kernelEvent "DemotionTriggerFired" 1
    [("trigger", .str trigger), ("action", .str action), ("from_mode", .str fromMode),
      ("to_mode", .str toMode), ("transitioned", .bool transitioned)]

def promotionEvaluatedEvent (sourceMode targetMode : String) (approved overrideBypassed : Bool)
    (evidence : List (String × Json)) (results : List Json) : Event :=
  kernelEvent "PromotionEvaluated" 1
    [("source_mode", .str sourceMode), ("target_mode", .str targetMode),
      ("approved", .bool approved), ("override_bypassed", .bool overrideBypassed),
      ("evidence", .obj evidence), ("results", .arr results)]

def promotionBlockedEvent (sourceMode targetMode reason : String) : Event :=
  kernelEvent "PromotionBlocked" 1
    [("source_mode", .str sourceMode), ("target_mode", .str targetMode), ("reason", .str reason)]

def significanceOverrideAppliedEvent (operatorAck ceiling : String) : Event :=
  kernelEvent "SignificanceOverrideApplied" 1
    [("operator_ack", .str operatorAck), ("ceiling", .str ceiling)]

/-! ## Verification -/

/-- The name of an outcome, as a payload spells it. -/
def VerificationOutcome.name : VerificationOutcome → String
  | .CLEAN => "CLEAN"
  | .DRIFT_WITHIN_TOLERANCE => "DRIFT_WITHIN_TOLERANCE"
  | .BREACH => "BREACH"

/-- The event type recorded for an outcome. -/
def eventTypeByOutcome : VerificationOutcome → String
  | .CLEAN => "VerificationPassed"
  | .DRIFT_WITHIN_TOLERANCE => "VerificationDrift"
  | .BREACH => "VerificationMismatch"

/-- The one event a verification cycle records. -/
def verificationEvent (snapshot : VerificationSnapshot) : Event :=
  kernelEvent (eventTypeByOutcome snapshot.outcome) 1
    [("outcome", .str snapshot.outcome.name), ("balance_ok", .bool snapshot.balanceOk),
      ("position_ok", .bool snapshot.positionOk), ("open_order_ok", .bool snapshot.openOrderOk),
      ("verified_at_epoch_s", .int snapshot.verifiedAtEpochS),
      ("exchange_verified_available_cash", .int snapshot.exchangeVerifiedAvailableCash.value),
      ("cash_drift", .int snapshot.cashDrift.value),
      ("semantics_fully_known", .bool snapshot.semanticsFullyKnown)]

def verificationMismatchHaltEvent (cashDrift : MoneyMicros) (verifiedAtEpochS : ℤ) : Event :=
  kernelEvent "VerificationMismatchHalt" 1
    [("cash_drift", .int cashDrift.value), ("verified_at_epoch_s", .int verifiedAtEpochS)]

/-! ## The order gateway -/

/-- The label the order gateway stamps on its events. -/
def gatewayComponent : String := "order_gateway"

/-- An event of the order gateway. -/
def gatewayEvent (eventType : String) (payload : List (String × Json)) : Event :=
  ⟨eventType, gatewayComponent, 1, payload⟩

def orderTransitionLedgeredEvent (clientOrderId fromState event toState : String) : Event :=
  gatewayEvent "OrderTransitionLedgered"
    [("client_order_id", .str clientOrderId), ("from_state", .str fromState),
      ("event", .str event), ("to_state", .str toState)]

def submissionRefusedEvent (clientOrderId reason : String) : Event :=
  gatewayEvent "SubmissionRefused"
    [("client_order_id", .str clientOrderId), ("reason", .str reason)]

def reduceOnlyRefusedEvent (clientOrderId ticker : String)
    (heldCentis inflightClosingCentis requestedCloseCentis : ℤ) (reason : String) : Event :=
  gatewayEvent "ReduceOnlyRefused"
    [("client_order_id", .str clientOrderId), ("ticker", .str ticker),
      ("held_centis", .int heldCentis), ("inflight_closing_centis", .int inflightClosingCentis),
      ("requested_close_centis", .int requestedCloseCentis), ("reason", .str reason)]

def reduceOnlyViolationEvent (clientOrderId ticker : String)
    (heldCentis filledCentis netCentis : ℤ) : Event :=
  gatewayEvent "ReduceOnlyViolation"
    [("client_order_id", .str clientOrderId), ("ticker", .str ticker),
      ("held_centis", .int heldCentis), ("filled_centis", .int filledCentis),
      ("net_centis", .int netCentis)]

def reconciliationHaltedEvent (reason ticker venueOrderId clientOrderId detail : String) : Event :=
  gatewayEvent "ReconciliationHalted"
    [("reason", .str reason), ("ticker", .str ticker), ("venue_order_id", .str venueOrderId),
      ("client_order_id", .str clientOrderId), ("detail", .str detail)]

def reconciliationHealedEvent (clientOrderId action detail : String) : Event :=
  gatewayEvent "ReconciliationHealed"
    [("client_order_id", .str clientOrderId), ("action", .str action), ("detail", .str detail)]

def marketFreezeEvent (ticker trigger : String) (baselinePricePips observedPricePips thresholdTicks
    priceTickPips epoch : ℤ) : Event :=
  gatewayEvent "MarketFreeze"
    [("ticker", .str ticker), ("trigger", .str trigger),
      ("baseline_price_pips", .int baselinePricePips),
      ("observed_price_pips", .int observedPricePips), ("threshold_ticks", .int thresholdTicks),
      ("price_tick_pips", .int priceTickPips), ("epoch", .int epoch)]

def returnToScreenerEvent (ticker reason : String) (epoch : ℤ) : Event :=
  gatewayEvent "ReturnToScreener"
    [("ticker", .str ticker), ("reason", .str reason), ("epoch", .int epoch)]

def recoveryCompletedEvent (ordersReconciled : ℤ) (halted : Bool) : Event :=
  gatewayEvent "RecoveryCompleted"
    [("orders_reconciled", .int ordersReconciled), ("halted", .bool halted)]

end Windbreak
