import Mathlib.Data.Int.Order.Basic
import Windbreak.Core.Effects
import Windbreak.Evaluation.Inputs

/-!
# The settlement state machine

A market is settled, reversed and settled again; the tracker folds a stream of such events and
refuses one that its market cannot take or that is out of order.
-/

namespace Windbreak

/-! ## Events and states -/

/-- The lifecycle state of a market. -/
inductive ResolutionStatus where
  | resolved
  | unresolved
  | reversed
  deriving DecidableEq, Repr

/-- The kind of a settlement event. -/
inductive SettlementEventType where
  | settlement
  | settlementReversed
  deriving DecidableEq, Repr

/-- One entry of the settlement stream: a settlement carries an outcome, a reversal none. -/
structure SettlementEvent where
  sequenceNumber : ℤ
  eventType : SettlementEventType
  marketTicker : String
  outcome : Option ResolutionOutcome
  outcome_coherent : eventType = .settlement ↔ outcome ≠ none
  deriving DecidableEq

/-- What is known of a market: an outcome exactly while it is resolved. -/
structure MarketResolution where
  marketTicker : String
  status : ResolutionStatus
  outcome : Option ResolutionOutcome
  reversalCount : ℕ
  outcome_resolved : status = .resolved ↔ outcome ≠ none
  deriving DecidableEq

/-- The name of a status, as an error shows it. -/
def ResolutionStatus.value : ResolutionStatus → String
  | .resolved => "resolved"
  | .unresolved => "unresolved"
  | .reversed => "reversed"

/-- Construct what is known of a market, unless it is incoherent. -/
def newMarketResolution (marketTicker : String) (status : ResolutionStatus)
    (outcome : Option ResolutionOutcome) (reversalCount : ℕ) : Except String MarketResolution :=
  if h : status = .resolved ↔ outcome ≠ none then
    .ok ⟨marketTicker, status, outcome, reversalCount, h⟩
  else .error s!"MarketResolution requires outcome to be present iff status is RESOLVED; got status={status.value}, outcome={ResolutionOutcome.shown outcome}"

/-- A market that never settled. -/
def unresolvedMarket (marketTicker : String) : MarketResolution :=
  ⟨marketTicker, .unresolved, none, 0, by decide⟩

/-! ## Transitions -/

/-- The next position of the stream, which must grow. -/
def nextSequence (previous : Option ℤ) (current : ℤ) : Except String ℤ :=
  match previous with
  | none => .ok current
  | some previous =>
    if current ≤ previous then
      .error s!"settlement_events sequence_number must be strictly increasing; got {current} after {previous}"
    else .ok current

/-- Settle a market, unless it is settled. -/
def applySettlement (current : MarketResolution) (event : SettlementEvent) :
    Except String MarketResolution :=
  if current.status = .resolved then
    .error s!"cannot settle already-RESOLVED market {shownText current.marketTicker} without an intervening reversal"
  else
    newMarketResolution current.marketTicker .resolved event.outcome current.reversalCount

/-- Reverse a market, if it is settled. -/
def applyReversal (current : MarketResolution) : Except String MarketResolution :=
  if current.status ≠ .resolved then
    .error s!"cannot reverse market {shownText current.marketTicker} in state {current.status.value}; only a RESOLVED market can be reversed"
  else
    newMarketResolution current.marketTicker .reversed none (current.reversalCount + 1)

/-- Apply an event to its market. -/
def foldSettlementEvent (current : MarketResolution) (event : SettlementEvent) :
    Except String MarketResolution :=
  if event.eventType = .settlement then applySettlement current event
  else applyReversal current

/-! ## The tracker -/

/-- Every market of a folded stream. -/
structure ResolutionTracker where
  resolutions : OrderedDict String MarketResolution
  deriving DecidableEq

/-- The tracker, between two events, and the position of the last. -/
structure TrackerState where
  tracker : ResolutionTracker
  previousSequence : Option ℤ
  deriving DecidableEq

def TrackerState.init : TrackerState := ⟨⟨OrderedDict.empty⟩, none⟩

/-- What is known of a market. -/
def ResolutionTracker.get (tracker : ResolutionTracker) (marketTicker : String) :
    MarketResolution :=
  (tracker.resolutions.get? marketTicker).getD (unresolvedMarket marketTicker)

/-- Fold one event. -/
def trackEvent (state : TrackerState) (event : SettlementEvent) : Except String TrackerState := do
  let sequence ← nextSequence state.previousSequence event.sequenceNumber
  let resolution ← foldSettlementEvent (state.tracker.get event.marketTicker) event
  return ⟨⟨state.tracker.resolutions.set event.marketTicker resolution⟩, some sequence⟩

/-- Fold a stream of settlement events. -/
def ResolutionTracker.fromLedger (events : List SettlementEvent) :
    Except String ResolutionTracker := do
  let state ← events.foldlM trackEvent TrackerState.init
  return state.tracker

/-- The outcome of every market that is resolved. -/
def ResolutionTracker.resolvedOutcomes (tracker : ResolutionTracker) :
    OrderedDict String ResolutionOutcome :=
  tracker.resolutions.filterMapValues (·.outcome)

/-! ## What an event does -/

/-- A market settled with an outcome after some reversals. -/
def settledMarket (marketTicker : String) (outcome : ResolutionOutcome) (reversalCount : ℕ) :
    MarketResolution :=
  ⟨marketTicker, .resolved, some outcome, reversalCount, by simp⟩

/-- A market reversed, some number of times. -/
def reversedMarket (marketTicker : String) (reversalCount : ℕ) : MarketResolution :=
  ⟨marketTicker, .reversed, none, reversalCount, by simp⟩

/-- The settlement of a market. -/
def settlementOf (sequenceNumber : ℤ) (marketTicker : String) (outcome : ResolutionOutcome) :
    SettlementEvent :=
  ⟨sequenceNumber, .settlement, marketTicker, some outcome, by simp⟩

/-- The reversal of a market. -/
def reversalOf (sequenceNumber : ℤ) (marketTicker : String) : SettlementEvent :=
  ⟨sequenceNumber, .settlementReversed, marketTicker, none, by simp⟩

theorem nextSequence_ok {previous : Option ℤ} {current : ℤ}
    (h : ∀ position, previous = some position → position < current) :
    nextSequence previous current = .ok current := by
  cases previous with
  | none => rfl
  | some position =>
    have hlt := h position rfl
    simp only [nextSequence]
    rw [if_neg (by omega)]

theorem applySettlement_ok {current : MarketResolution} (h : current.status ≠ .resolved)
    (sequenceNumber : ℤ) (marketTicker : String) (outcome : ResolutionOutcome) :
    applySettlement current (settlementOf sequenceNumber marketTicker outcome) =
      .ok (settledMarket current.marketTicker outcome current.reversalCount) := by
  unfold applySettlement newMarketResolution
  rw [if_neg h, dif_pos (by simp [settlementOf])]
  rfl

theorem applyReversal_ok {current : MarketResolution} (h : current.status = .resolved) :
    applyReversal current = .ok (reversedMarket current.marketTicker (current.reversalCount + 1)) := by
  unfold applyReversal newMarketResolution
  rw [if_neg (not_not.mpr h), dif_pos (by simp)]
  rfl

/-- A market that is not settled takes a settlement. -/
theorem trackEvent_settlement {state : TrackerState} {sequenceNumber : ℤ} {marketTicker : String}
    (outcome : ResolutionOutcome)
    (hnext : ∀ position, state.previousSequence = some position → position < sequenceNumber)
    (hopen : (state.tracker.get marketTicker).status ≠ .resolved) :
    trackEvent state (settlementOf sequenceNumber marketTicker outcome) =
      .ok ⟨⟨state.tracker.resolutions.set marketTicker
        (settledMarket (state.tracker.get marketTicker).marketTicker outcome
          (state.tracker.get marketTicker).reversalCount)⟩, some sequenceNumber⟩ := by
  unfold trackEvent
  show (nextSequence state.previousSequence sequenceNumber >>= _) = _
  rw [nextSequence_ok hnext]
  show (applySettlement (state.tracker.get marketTicker) _ >>= _) = _
  rw [applySettlement_ok hopen]
  rfl

/-- A settled market takes a reversal. -/
theorem trackEvent_reversal {state : TrackerState} {sequenceNumber : ℤ} {marketTicker : String}
    (hnext : ∀ position, state.previousSequence = some position → position < sequenceNumber)
    (hsettled : (state.tracker.get marketTicker).status = .resolved) :
    trackEvent state (reversalOf sequenceNumber marketTicker) =
      .ok ⟨⟨state.tracker.resolutions.set marketTicker
        (reversedMarket (state.tracker.get marketTicker).marketTicker
          ((state.tracker.get marketTicker).reversalCount + 1))⟩, some sequenceNumber⟩ := by
  unfold trackEvent
  show (nextSequence state.previousSequence sequenceNumber >>= _) = _
  rw [nextSequence_ok hnext]
  show (applyReversal (state.tracker.get marketTicker) >>= _) = _
  rw [applyReversal_ok hsettled]
  rfl

end Windbreak
