import Windbreak.OrderGateway.Gateway
import Windbreak.RiskKernel.World

/-!
# The cycles that run beside the gateway

A reconciler and a sweeper compare what the gateway tracks with what the venue shows, once per
cycle, and a cancel-all clears the venue when the kill switch is pulled.

* **`Reconciler.runOnce`** — heal the tracked orders that filled out of band, halt on anything else.
* **`Sweeper.sweepOnce`** — freeze the tickers whose market moved, cancel what is stale.
* **`cancelAll`** — cancel whatever rests, one order at a time.
-/

namespace Windbreak

namespace OrderGateway

/-- What a cancel of one resting order did. -/
inductive CancelOutcome where
  | cancelled
  | refused (text : String)
  | cancelledThenRaised (text : String)
  deriving DecidableEq, Repr

/-- What the collaborators do during one cycle, besides what they do during a call.  The clock is
the one a sweep reads. -/
structure CycleEnv extends GatewayEnv where
  fills : Except String (List Fill)
  priceTickPips : String → Except String ℤ
  orderBook : String → Except String OrderBookSnapshot
  cancel : String → CancelOutcome

/-! ## Reads and cancels -/

/-- The whole ledger. -/
def readAll (env : CycleEnv) : GatewayM (List Event) := do
  let w ← get
  if env.ledgerReadRaises then throw ⟨.ledger, "ledger read failed"⟩ else return w.ledger

/-- What rests on the venue. -/
def getOpenOrders (env : CycleEnv) : GatewayM (List OpenOrder) := do
  let w ← get
  if env.openOrdersRaises then throw ⟨.source, "open orders read failed"⟩ else return w.openOrders

/-- The orders tracked now, oldest first. -/
def trackedOrders : GatewayM (List TrackedOrder) := do
  let w ← get
  return w.tracked.values

/-- What rests once an order is cancelled. -/
def withoutOrder (orderId : String) (w : GatewayWorld) : GatewayWorld :=
  w.withOpenOrders (w.openOrders.filter (·.id != orderId))

/-- Cancel one resting order at the venue. -/
def cancelOrder (env : CycleEnv) (orderId : String) : GatewayM Unit :=
  match env.cancel orderId with
  | .cancelled => modify (withoutOrder orderId)
  | .refused text => throw ⟨.source, text⟩
  | .cancelledThenRaised text => do
    modify (withoutOrder orderId)
    throw ⟨.source, text⟩

/-- What a tracked order filled beyond what it had filled when it was acknowledged, as far as its
ticker, side and limit tell. -/
def newFillCentis (fills : List Fill) (order : TrackedOrder) : ℤ :=
  matchedFillCentis fills order.ticker order.side order.pricePips - order.filledCentis

/-- The state the ledger has an order in. -/
def ledgeredState (states : OrderedDict String OrderState) (order : TrackedOrder) : OrderState :=
  (states.get? order.clientOrderId).getD .ACKED

/-! ## The reconciler -/

namespace Reconciler

/-- The result of one cycle. -/
structure ReconcileOutcome where
  halted : Bool
  healed : ℕ
  haltReason : Option String
  deriving DecidableEq, Repr

/-- The diagnostic of each reason to halt. -/
def haltDetail (reason : String) : String :=
  if reason = "foreign_open_order" then
    "resting order on the venue was never placed through the Gateway"
  else
    "tracked resting order vanished from the venue with no corroborating fill"

/-- The first resting order the gateway never placed. -/
def firstForeign (openOrders : List OpenOrder) (trackedIds : List String) : Option OpenOrder :=
  openOrders.find? fun order => decide (order.id ∉ trackedIds)

/-- The halt a mismatch is recorded as. -/
def haltEvent (reason ticker orderId coid : String) : Event :=
  reconciliationHaltedEvent reason ticker orderId coid (haltDetail reason)

/-- Record the mismatch and latch the gateway. -/
def halt (env : CycleEnv) (reason ticker orderId coid : String) : GatewayM ReconcileOutcome := do
  record env.toGatewayEnv (haltEvent reason ticker orderId coid)
  markHalted
  return ⟨true, 0, some reason⟩

/-- The record of a heal. -/
def healedEvent (order : TrackedOrder) : Event :=
  reconciliationHealedEvent order.clientOrderId "fill_confirmed"
    "matched an out-of-band fill on a tracked resting order"

/-- Record a missed fill and stop tracking its order. -/
def heal (env : CycleEnv) (states : OrderedDict String OrderState) (order : TrackedOrder) :
    GatewayM Unit := do
  let _ ← applyAndLedger env.toGatewayEnv (ledgeredState states order) .FILL order.clientOrderId
  record env.toGatewayEnv (healedEvent order)
  retireTrackedOrder order

/-- Heal the tracked orders that are gone, in order, up to the first that shows no fill. -/
def healEach (env : CycleEnv) (openIds : List String) (fills : List Fill)
    (states : OrderedDict String OrderState) (healed : ℕ) :
    List TrackedOrder → GatewayM ReconcileOutcome
  | [] => return ⟨false, healed, none⟩
  | order :: rest =>
    if order.orderId ∈ openIds then healEach env openIds fills states healed rest
    else if newFillCentis fills order ≤ 0 then
      halt env "vanished_order_no_fill" order.ticker order.orderId order.clientOrderId
    else do
      heal env states order
      healEach env openIds fills states (healed + 1) rest

/-- Reconcile every tracked order against the venue once. -/
def runOnce (env : CycleEnv) : GatewayM ReconcileOutcome := do
  let openOrders ← getOpenOrders env
  let fills ← reading .source env.fills
  let tracked ← trackedOrders
  match firstForeign openOrders (tracked.map (·.orderId)) with
  | some foreign => halt env "foreign_open_order" foreign.ticker foreign.id ""
  | none => do
    let records ← readAll env
    let states ← reading .keyError (foldLedgerStates records)
    healEach env (openOrders.map (·.id)) fills states 0 tracked

end Reconciler

/-! ## The sweeper -/

namespace Sweeper

/-- The thresholds a sweeper enforces. -/
structure SweepPolicy where
  ttlSeconds : ℤ
  moveTicks : ℤ
  deriving DecidableEq, Repr

/-- How the stale orders of one cycle were resolved. -/
structure SweepCounts where
  cancelled : ℕ
  filledDuringCancel : ℕ
  skippedUnresolved : ℕ
  deriving DecidableEq, Repr

/-- The result of one cycle. -/
structure SweepOutcome where
  counts : SweepCounts
  frozenTickers : List String
  deriving DecidableEq, Repr

/-- What one cycle reads, once. -/
structure CycleView where
  states : OrderedDict String OrderState
  openIds : List String
  fills : List Fill

/-- The numbers of a move that breached the threshold. -/
structure MoveBreach where
  baselinePricePips : ℤ
  observedPricePips : ℤ
  priceTickPips : ℤ
  deriving DecidableEq, Repr

/-- Read the ledger and the venue. -/
def readCycle (env : CycleEnv) : GatewayM CycleView := do
  let records ← readAll env
  let states ← reading .keyError (foldLedgerStates records)
  let openOrders ← getOpenOrders env
  let fills ← reading .source env.fills
  return ⟨states, openOrders.map (·.id), fills⟩

/-- The top of the book on the side of an order. -/
def observedPrice (env : CycleEnv) (order : TrackedOrder) : Except String (Option ℤ) := do
  let book ← env.orderBook order.ticker
  let levels := if order.side = "yes" then book.yesBids else book.yesAsks
  return levels.head?.map (·.price.value)

/-- Whether the market moved beyond the threshold since an order was placed. -/
def moveBreach (policy : SweepPolicy) (env : CycleEnv) (noted : Option RestingOrderMeta)
    (order : TrackedOrder) : Except String (Option MoveBreach) :=
  match noted with
  | none => return none
  | some noted => do
    match ← observedPrice env order with
    | none => return none
    | some observed => do
      let tick ← env.priceTickPips order.ticker
      if policy.moveTicks * tick < (observed - noted.baselinePricePips).natAbs then
        return some ⟨noted.baselinePricePips, observed, tick⟩
      else return none

/-- The tickers with a breach, each with its first. -/
def detectFrozen (policy : SweepPolicy) (env : CycleEnv)
    (noted : OrderedDict String RestingOrderMeta) :
    OrderedDict String MoveBreach → List TrackedOrder →
      Except String (OrderedDict String MoveBreach)
  | frozen, [] => .ok frozen
  | frozen, order :: rest =>
    if order.ticker ∈ frozen.keys then detectFrozen policy env noted frozen rest
    else do
      match ← moveBreach policy env (noted.get? order.orderId) order with
      | some breach => detectFrozen policy env noted (frozen.set order.ticker breach) rest
      | none => detectFrozen policy env noted frozen rest

/-- Record the request to cancel, unless an earlier cycle did. -/
def requestCancel (env : CycleEnv) (state : OrderState) (coid : String) : GatewayM OrderState :=
  if state = .CANCEL_REQUESTED then return state
  else applyAndLedger env.toGatewayEnv state .REQUEST_CANCEL coid

/-- Cancel one stale order, or book the fill that outran the cancel, or leave it unresolved. -/
def resolveStale (env : CycleEnv) (view : CycleView) (counts : SweepCounts)
    (order : TrackedOrder) : GatewayM SweepCounts := do
  let state ← requestCancel env (ledgeredState view.states order) order.clientOrderId
  if order.orderId ∈ view.openIds then
    cancelOrder env order.orderId
    let _ ← applyAndLedger env.toGatewayEnv state .CANCEL order.clientOrderId
    retireTrackedOrder order
    return { counts with cancelled := counts.cancelled + 1 }
  else if 0 < newFillCentis view.fills order then
    let _ ← applyAndLedger env.toGatewayEnv state .FILL order.clientOrderId
    retireTrackedOrder order
    return { counts with filledDuringCancel := counts.filledDuringCancel + 1 }
  else return { counts with skippedUnresolved := counts.skippedUnresolved + 1 }

/-- Resolve stale orders one after the other. -/
def resolveEach (env : CycleEnv) (view : CycleView) :
    SweepCounts → List TrackedOrder → GatewayM SweepCounts
  | counts, [] => return counts
  | counts, order :: rest => do
    let counts ← resolveStale env view counts order
    resolveEach env view counts rest

/-- The record of a freeze. -/
def freezeEvent (policy : SweepPolicy) (env : CycleEnv) (ticker : String) (breach : MoveBreach) :
    Event :=
  marketFreezeEvent ticker "cancel_on_move" breach.baselinePricePips breach.observedPricePips
    policy.moveTicks breach.priceTickPips env.clock

/-- Freeze a ticker: every order on it is stale, however young. -/
def freezeTicker (policy : SweepPolicy) (env : CycleEnv) (view : CycleView)
    (tracked : List TrackedOrder) (counts : SweepCounts) (ticker : String) (breach : MoveBreach) :
    GatewayM SweepCounts := do
  record env.toGatewayEnv (freezeEvent policy env ticker breach)
  let counts ← resolveEach env view counts (tracked.filter (·.ticker == ticker))
  record env.toGatewayEnv (returnToScreenerEvent ticker "market_freeze" env.clock)
  return counts

/-- Freeze each ticker with a breach. -/
def freezeEach (policy : SweepPolicy) (env : CycleEnv) (view : CycleView)
    (tracked : List TrackedOrder) :
    SweepCounts → List (String × MoveBreach) → GatewayM SweepCounts
  | counts, [] => return counts
  | counts, (ticker, breach) :: rest => do
    let counts ← freezeTicker policy env view tracked counts ticker breach
    freezeEach policy env view tracked counts rest

/-- Whether an order has reached its time to live. -/
def isTtlStale (policy : SweepPolicy) (env : CycleEnv) : Option RestingOrderMeta → Bool
  | none => false
  | some noted => decide (policy.ttlSeconds ≤ env.clock - noted.createdEpochS)

/-- Resolve the orders on unfrozen tickers that are too old. -/
def expireEach (policy : SweepPolicy) (env : CycleEnv) (view : CycleView)
    (frozenTickers : List String) : SweepCounts → List TrackedOrder → GatewayM SweepCounts
  | counts, [] => return counts
  | counts, order :: rest =>
    if order.ticker ∈ frozenTickers then expireEach policy env view frozenTickers counts rest
    else do
      let w ← get
      if isTtlStale policy env (w.restingMeta.get? order.orderId) then
        let counts ← resolveStale env view counts order
        expireEach policy env view frozenTickers counts rest
      else expireEach policy env view frozenTickers counts rest

/-- Sweep every tracked order once. -/
def sweepOnce (policy : SweepPolicy) (env : CycleEnv) : GatewayM SweepOutcome := do
  let view ← readCycle env
  let tracked ← trackedOrders
  let w ← get
  let frozen ← reading .source (detectFrozen policy env w.restingMeta .empty tracked)
  let counts ← freezeEach policy env view tracked ⟨0, 0, 0⟩ frozen.items
  let counts ← expireEach policy env view frozen.keys counts tracked
  return ⟨counts, frozen.keys⟩

end Sweeper

/-! ## Cancelling everything -/

/-- Cancel every order of a list, whatever any cancel raises, and count those that were taken. -/
def cancelEach (env : CycleEnv) : List OpenOrder → GatewayM ℕ
  | [] => return 0
  | order :: rest => do
    let taken ← tryCatch (do cancelOrder env order.id; return 1) fun _ => return 0
    let more ← cancelEach env rest
    return taken + more

/-- Cancel whatever rests on the venue. -/
def cancelAll (env : CycleEnv) : GatewayM DirectiveDelivery :=
  tryCatch (do
    let openOrders ← getOpenOrders env
    let cancelled ← cancelEach env openOrders
    return ⟨cancelled, openOrders.length - cancelled, false⟩) fun _ => return ⟨0, 0, true⟩

end OrderGateway

end Windbreak
