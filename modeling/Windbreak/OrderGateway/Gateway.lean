import Windbreak.OrderGateway.World

/-!
# The order gateway

Verify, submit, recover.

* **`processIntent`** — the gates that come before verification, the verification, and then either
  the replay of a cached acknowledgement or a new submission.
* **`submitNew`** — the submission: journal the intent, record the two transitions that authorise
  it, place the order, journal and cache the acknowledgement, record the rest.
* **`recover`** — fold the ledger, rehydrate from the journal, compare with what rests on the venue,
  and open or halt.
* `markHalted`, `retireTrackedOrder` — what the cycles of the reconciler and the sweeper call.
-/

/-! ## What recovery reads

Pure folds over the ledger, the journal and the venue's resting orders.

* `foldLedgerStates`, `ledgerShowsHalt` — what the ledger says.
* `pendingIntents` — the intents of the journal that were never acknowledged.
* **`buildUnaccountedHalt`** — the halt for a resting order that nothing durable accounts for.
* `matchedFillCentis` — the fills attributed to a tracked order.
-/

namespace Windbreak

namespace OrderGateway

/-- The actions that close a position. -/
def isClosingAction (action : String) : Bool := action == "sell_to_close"

/-- The state a recorded transition led to. -/
def foldLedgerState (states : OrderedDict String OrderState) (event : Event) :
    Except String (OrderedDict String OrderState) :=
  if event.eventType ≠ "OrderTransitionLedgered" then .ok states
  else
    match event.str? "client_order_id", event.str? "to_state" with
    | some coid, some text =>
      match OrderState.ofName? text with
      | some state => .ok (states.set coid state)
      | none => .error text
    | _, _ => .error "data"

/-- The latest state of each order the ledger knows. -/
def foldLedgerStates (records : List Event) : Except String (OrderedDict String OrderState) :=
  records.foldlM foldLedgerState .empty

/-- Whether the ledger records a halt; there is no event that lifts one. -/
def ledgerShowsHalt (records : List Event) : Bool :=
  records.any fun event =>
    event.eventType == "ReduceOnlyViolation" || event.eventType == "ReconciliationHalted"

/-- The journalled intents without a journalled acknowledgement. -/
def pendingIntents (records : List WalRecord) : List OrderIntent :=
  let acked := records.filterMap WalRecord.ackedId?
  (records.filterMap WalRecord.intent?).filterMap fun entry =>
    if entry.1 ∈ acked then none else some entry.2

/-- Whether a pending intent matches a resting order in ticker, side and price.  The quantity may
have shrunk since. -/
def intentMatchesOrder (intents : List OrderIntent) (order : OpenOrder) : Bool :=
  intents.any fun intent =>
    intent.marketTicker == order.ticker && intent.outcome == order.side &&
      intent.price.value == order.price.value

/-- Why a resting order is unaccounted for. -/
def unaccountedReason (intents : List OrderIntent) (order : OpenOrder) : String :=
  if intentMatchesOrder intents order then "ambiguous_match" else "foreign_open_order"

/-- The diagnostic of each reason. -/
def haltDetail (reason : String) : String :=
  if reason = "ambiguous_match" then
    "resting order matches an in-flight intent whose completing write-ahead " ++
      "ack was never durably written; cannot correlate safely"
  else
    "resting order on the venue has no durable ledger or write-ahead trace"

/-- The halt for the first resting order that is not tracked. -/
def buildUnaccountedHalt (openOrders : List OpenOrder) (trackedIds : List String)
    (intents : List OrderIntent) : Option Event :=
  (openOrders.find? fun order => decide (order.id ∉ trackedIds)).map fun order =>
    let reason := unaccountedReason intents order
    reconciliationHaltedEvent reason order.ticker order.id "" (haltDetail reason)

/-- The quantity filled at a ticker, side and price. -/
def matchedFillCentis (fills : List Fill) (ticker side : String) (pricePips : ℤ) : ℤ :=
  ((fills.filter fun fill =>
    fill.ticker == ticker && fill.side == side && fill.price.value == pricePips).map
      (·.quantity.value)).sum

/-- **Recovery halts exactly when some resting order is unaccounted for.** -/
theorem buildUnaccountedHalt_eq_none {openOrders : List OpenOrder} {trackedIds : List String}
    {intents : List OrderIntent} :
    buildUnaccountedHalt openOrders trackedIds intents = none ↔
      ∀ order ∈ openOrders, order.id ∈ trackedIds := by
  simp [buildUnaccountedHalt]

end OrderGateway

end Windbreak

namespace Windbreak

namespace OrderGateway

/-! ## Results -/

/-- The disposition of one call. -/
inductive SubmitOutcome where
  | ACKED
  | IDEMPOTENT_REPLAY
  | REFUSED_EXCHANGE_STATUS
  | REFUSED_REDUCE_ONLY
  | REFUSED_RECOVERY_PENDING
  | REJECTED_TOKEN
  deriving DecidableEq, Repr

/-- The verdict on one intent. -/
structure GatewayResult where
  verifyResult : Option VerifyResult
  state : OrderState
  ack : Option SubmissionAck
  outcome : SubmitOutcome
  refusalReason : Option String
  clientOrderId : String
  positionSnapshot : Option PositionSnapshot
  deriving DecidableEq, Repr

/-- The outcome of one recovery. -/
structure RecoveryReport where
  ordersReconciled : ℕ
  halted : Bool
  deriving DecidableEq, Repr

/-! ## The gates before verification -/

/-- A refusal before verification: nothing reached beyond `INTENT_CREATED`, nothing consumed. -/
def refusal (outcome : SubmitOutcome) (reason coid : String)
    (snapshot : Option PositionSnapshot) : GatewayResult :=
  ⟨none, .INTENT_CREATED, none, outcome, some reason, coid, snapshot⟩

/-- Refuse while recovery has not completed. -/
def refuseRecoveryPending (env : GatewayEnv) (coid : String) : GatewayM GatewayResult := do
  record env (submissionRefusedEvent coid "recovery_pending")
  return refusal .REFUSED_RECOVERY_PENDING "recovery_pending" coid none

/-- Refuse on an exchange that is not open, or whose status is unknown. -/
def refuseStatus (env : GatewayEnv) (coid : String) (status : Option String) :
    GatewayM GatewayResult := do
  let reason := status.getD "unknown"
  record env (submissionRefusedEvent coid reason)
  return refusal .REFUSED_EXCHANGE_STATUS reason coid none

/-- Refuse a close that does not fit. -/
def refuseReduceOnly (env : GatewayEnv) (coid : String) (snapshot : PositionSnapshot) :
    GatewayM GatewayResult := do
  record env (reduceOnlyRefusedEvent coid snapshot.ticker snapshot.heldCentis
    snapshot.inflightClosingCentis snapshot.requestedCloseCentis "reduce_only")
  return refusal .REFUSED_REDUCE_ONLY "reduce_only" coid (some snapshot)

/-- The total of the closes in flight for a ticker. -/
def inflightFor (w : GatewayWorld) (ticker : String) : ℤ :=
  match w.inflightClosing.get? ticker with
  | some size => size.value
  | none => 0

/-- The position picture of a close. -/
def positionSnapshot (w : GatewayWorld) (intent : OrderIntent) (positions : List Position) :
    PositionSnapshot where
  ticker := intent.marketTicker
  heldCentis := heldForTicker positions intent.marketTicker
  inflightClosingCentis := inflightFor w intent.marketTicker
  requestedCloseCentis := intent.size.value

/-- Refuse a brand-new close that would exceed what may still be closed. -/
def reduceOnlyGate (cfg : GatewayConfig) (env : GatewayEnv) (intent : OrderIntent)
    (coid : String) : GatewayM (Option GatewayResult) :=
  if cfg.hasPositionSource = false ∨ isClosingAction intent.action = false then return none
  else do
    let positions ← reading .source env.positions
    let w ← get
    let snapshot := positionSnapshot w intent positions
    if snapshot.admits then return none
    else some <$> refuseReduceOnly env coid snapshot

/-- Refuse a brand-new intent unless the exchange is open. -/
def statusGate (cfg : GatewayConfig) (env : GatewayEnv) (coid : String) :
    GatewayM (Option GatewayResult) :=
  if cfg.hasStatusSource = false then return none
  else do
    let status ← reading .source env.status
    if status = some "open" then return none
    else some <$> refuseStatus env coid status

/-- Every gate before verification; a cached intent passes all but the first. -/
def gateBeforeVerify (cfg : GatewayConfig) (env : GatewayEnv) (intent : OrderIntent)
    (coid : String) : GatewayM (Option GatewayResult) := do
  let w ← get
  if w.acceptingApprovals = false then some <$> refuseRecoveryPending env coid
  else if coid ∈ w.acks.keys then return none
  else
    match ← statusGate cfg env coid with
    | some result => return some result
    | none => reduceOnlyGate cfg env intent coid

/-! ## Submission -/

/-- Journal the intent, if a journal is wired. -/
def walAppendIntent (cfg : GatewayConfig) (env : GatewayEnv) (intent : OrderIntent)
    (coid : String) : GatewayM Unit :=
  if cfg.hasWal then walAppend env.walIntent (.intent coid intent) else pure ()

/-- Journal an acknowledgement, if a journal is wired. -/
def walAppendAck (cfg : GatewayConfig) (env : GatewayEnv) (coid : String) (ack : SubmissionAck) :
    GatewayM Unit :=
  if cfg.hasWal then walAppend env.walAck (.ack coid ack.orderId ack.filled) else pure ()

/-- What an intent rests on the venue under an order id. -/
def restingOrder (intent : OrderIntent) (orderId : Option String) : Option OpenOrder :=
  orderId.map fun id => ⟨id, intent.marketTicker, intent.outcome, intent.price⟩

/-- Call the submitter. -/
def place (cfg : GatewayConfig) (env : GatewayEnv) (intent : OrderIntent)
    (token : SignedApprovalToken) (coid : String) (closing : Bool) : GatewayM SubmissionAck := do
  modify (·.submitted ⟨intent, token, env.clock, closing && cfg.submitterIsReduceOnlyCapable⟩)
  match env.placement with
  | .refused text => throw ⟨.submitter, text⟩
  | .acknowledged ack =>
    modify (·.venueTook coid (restingOrder intent ack.orderId))
    return ack
  | .takenThenRaised restingId text =>
    modify (·.venueTook coid (restingOrder intent restingId))
    throw ⟨.submitter, text⟩

/-- The side an outcome trades on. -/
def outcomeToSide (outcome : String) : Except String String :=
  if outcome = "yes" then .ok "yes"
  else if outcome = "no" then .ok "no"
  else .error s!"unroutable outcome '{outcome}'; expected one of ['no', 'yes']"

/-- The profile of a resting order. -/
def trackedOrder (coid orderId side : String) (intent : OrderIntent) (filled : ContractCentis) :
    TrackedOrder where
  clientOrderId := coid
  orderId := orderId
  ticker := intent.marketTicker
  side := side
  pricePips := intent.price.value
  sizeCentis := intent.size.value
  action := intent.action
  filledCentis := filled.value

/-- What a sweep will know of an order that is tracked now. -/
def restingOrderMeta (env : GatewayEnv) (orderId : String) (intent : OrderIntent) :
    RestingOrderMeta where
  createdEpochS := env.trackedAt orderId
  baselinePricePips := intent.price.value

/-- Track a placement that left something resting. -/
def trackIfResting (env : GatewayEnv) (coid : String) (intent : OrderIntent)
    (ack : SubmissionAck) : GatewayM Unit :=
  match ack.orderId with
  | none => pure ()
  | some orderId => do
    let side ← reading .valueError (outcomeToSide intent.outcome)
    modify (·.withTracked (trackedOrder coid orderId side intent ack.filled)
      (restingOrderMeta env orderId intent))

/-- Record the violation, latch the halt, fail closed. -/
def haltOnViolation (env : GatewayEnv) (intent : OrderIntent) (coid : String)
    (ack : SubmissionAck) (held : ℤ) : GatewayM Unit := do
  record env (reduceOnlyViolationEvent coid intent.marketTicker held ack.filled.value
    (held - ack.filled.value))
  modify (·.latchedHalted)
  throw ⟨.halted,
    s!"reduce-only net-short violation: close {coid} filled {ack.filled.value} against held {held}"⟩

/-- Book a close as in flight, and check what its fill left. -/
def recordCloseFill (cfg : GatewayConfig) (env : GatewayEnv) (intent : OrderIntent)
    (coid : String) (ack : SubmissionAck) : GatewayM Unit := do
  modify fun w => w.withInflight intent.marketTicker
    ⟨inflightFor w intent.marketTicker + intent.size.value⟩
  if cfg.hasPositionSource then
    let positions ← reading .source env.positionsAfterFill
    let held := heldForTicker positions intent.marketTicker
    if isNetShortAfterFill held ack.filled.value then haltOnViolation env intent coid ack held
    else pure ()
  else
    pure ()

/-- What follows a placement: the acknowledgement is journalled and cached first. -/
def settlePlacement (cfg : GatewayConfig) (env : GatewayEnv) (intent : OrderIntent)
    (coid : String) (state : OrderState) (ack : SubmissionAck) : GatewayM GatewayResult := do
  walAppendAck cfg env coid ack
  modify (·.withAck coid ack)
  trackIfResting env coid intent ack
  let state ← applyAndLedger env state .SUBMIT coid
  let state ← applyAndLedger env state .ACK coid
  if isClosingAction intent.action then recordCloseFill cfg env intent coid ack else pure ()
  return ⟨some .OK, state, some ack, .ACKED, none, coid, none⟩

/-- Walk the whole submission chain. -/
def submitNew (cfg : GatewayConfig) (env : GatewayEnv) (intent : OrderIntent)
    (token : SignedApprovalToken) (coid : String) : GatewayM GatewayResult := do
  walAppendIntent cfg env intent coid
  let state ← applyAndLedger env .INTENT_CREATED .APPROVE coid
  let state ← applyAndLedger env state .REQUEST_SUBMISSION coid
  let ack ← place cfg env intent token coid (isClosingAction intent.action)
  settlePlacement cfg env intent coid state ack

/-- Verify a token, consuming its slot when it is good. -/
def verify (cfg : GatewayConfig) (env : GatewayEnv) (intent : OrderIntent)
    (token : SignedApprovalToken) : GatewayM VerifyResult := do
  let w ← get
  let verdict :=
    verifyAndConsume cfg.hmac token intent cfg.verificationKey env.clock w.registry
  set (w.withRegistry verdict.2)
  return verdict.1

/-- The replay of a cached acknowledgement. -/
def replay (coid : String) (ack : SubmissionAck) : GatewayResult :=
  ⟨some .OK, .ACKED, some ack, .IDEMPOTENT_REPLAY, none, coid, none⟩

/-- What a call does once the gates are passed. -/
def verifyAndSubmit (cfg : GatewayConfig) (env : GatewayEnv) (intent : OrderIntent)
    (token : SignedApprovalToken) (coid : String) : GatewayM GatewayResult := do
  let verdict ← verify cfg env intent token
  if verdict ≠ .OK then
    return ⟨some verdict, .INTENT_CREATED, none, .REJECTED_TOKEN, none, coid, none⟩
  else
    let w ← get
    match w.acks.get? coid with
    | some ack => return replay coid ack
    | none => submitNew cfg env intent token coid

/-- Process one intent under its token. -/
def processIntent (cfg : GatewayConfig) (env : GatewayEnv) (intent : OrderIntent)
    (token : SignedApprovalToken) : GatewayM GatewayResult := do
  let w ← get
  if w.halted then
    throw ⟨.halted, "gateway halted after a prior reduce-only net-short violation"⟩
  else
    let coid := clientOrderId cfg.sha256 intent
    match ← gateBeforeVerify cfg env intent coid with
    | some result => return result
    | none => verifyAndSubmit cfg env intent token coid

/-! ## Recovery -/

/-- Walk an adopted order's lifecycle up to `ACKED` from where the ledger has it. -/
def completeLedgerToAcked (env : GatewayEnv) (coid : String) (state : Option OrderState) :
    GatewayM Unit :=
  match state with
  | some .SUBMISSION_REQUESTED => do
    let submitted ← applyAndLedger env .SUBMISSION_REQUESTED .SUBMIT coid
    let _ ← applyAndLedger env submitted .ACK coid
    return ()
  | some .SUBMITTED => do
    let _ ← applyAndLedger env .SUBMITTED .ACK coid
    return ()
  | _ => return ()

/-- Rebuild a resting order, and its share of the closes in flight. -/
def trackRecoveredOrder (env : GatewayEnv) (coid orderId : String) (intent : OrderIntent)
    (filled : ContractCentis) : GatewayM Unit := do
  let side ← reading .valueError (outcomeToSide intent.outcome)
  modify (·.withTracked (trackedOrder coid orderId side intent filled)
    (restingOrderMeta env orderId intent))
  if isClosingAction intent.action then
    modify fun w => w.withInflight intent.marketTicker
      ⟨inflightFor w intent.marketTicker + intent.size.value⟩
  else
    pure ()

/-- The last intent journalled under an id. -/
def journalledIntent (records : List WalRecord) (coid : String) : Option OrderIntent :=
  ((records.filterMap WalRecord.intent?).reverse.find? (·.1 == coid)).map (·.2)

/-- Rebuild an acknowledged order that still rests on the venue and whose intent is journalled. -/
def adoptIfOpen (env : GatewayEnv) (openIds : List String) (coid : String)
    (filled : ContractCentis) : Option String → Option OrderIntent → GatewayM Unit
  | some id, some intent =>
    if id ∈ openIds then trackRecoveredOrder env coid id intent filled else pure ()
  | _, _ => pure ()

/-- Rehydrate one acknowledgement. -/
def rehydrateAck (env : GatewayEnv) (intents : String → Option OrderIntent)
    (openIds : List String) (states : OrderedDict String OrderState) (coid : String)
    (orderId : Option String) (filled : ContractCentis) : GatewayM Unit := do
  modify (·.withAck coid ⟨orderId, filled⟩)
  completeLedgerToAcked env coid (states.get? coid)
  adoptIfOpen env openIds coid filled orderId (intents coid)

/-- Rehydrate the acknowledgements of a journal, the first for each id, and count them. -/
def rehydrateEach (env : GatewayEnv) (intents : String → Option OrderIntent)
    (openIds : List String) (states : OrderedDict String OrderState) :
    List WalRecord → GatewayM ℕ
  | [] => return 0
  | .intent _ _ :: rest => rehydrateEach env intents openIds states rest
  | .ack coid orderId filled :: rest => do
    let w ← get
    if coid ∈ w.acks.keys then rehydrateEach env intents openIds states rest
    else
      rehydrateAck env intents openIds states coid orderId filled
      let reconciled ← rehydrateEach env intents openIds states rest
      return reconciled + 1

/-- Rebuild the memory of the gateway from the journal and the ledger. -/
def rehydrateFromWal (env : GatewayEnv) (records : List Event) (walRecords : List WalRecord)
    (openOrders : List OpenOrder) : GatewayM ℕ := do
  let states ← reading .keyError (foldLedgerStates records)
  rehydrateEach env (journalledIntent walRecords) (openOrders.map (·.id)) states walRecords

/-- The ledger, when a reader is wired. -/
def readLedger (cfg : GatewayConfig) (env : GatewayEnv) : GatewayM (List Event) := do
  let w ← get
  if cfg.hasLedgerReader = false then return []
  else if env.ledgerReadRaises then throw ⟨.ledger, "ledger read failed"⟩
  else return w.ledger

/-- The journal, when one is wired. -/
def readWal (cfg : GatewayConfig) : GatewayM (List WalRecord) := do
  let w ← get
  if cfg.hasWal = false then return [] else reading .journal w.wal.readAll

/-- The resting orders, when a source is wired. -/
def readOpenOrders (cfg : GatewayConfig) (env : GatewayEnv) : GatewayM (List OpenOrder) := do
  let w ← get
  if cfg.hasReconciliationSource = false then return []
  else if env.openOrdersRaises then throw ⟨.source, "open orders read failed"⟩
  else return w.openOrders

/-- Compare the resting orders with what was rehydrated, and open the gateway or halt it. -/
def openOrHalt (env : GatewayEnv) (walRecords : List WalRecord) (openOrders : List OpenOrder)
    (reconciled : ℕ) : GatewayM RecoveryReport := do
  let w ← get
  match buildUnaccountedHalt openOrders w.tracked.keys (pendingIntents walRecords) with
  | some halt =>
    record env halt
    modify (·.markedHalted)
    return ⟨reconciled, true⟩
  | none =>
    record env (recoveryCompletedEvent reconciled false)
    modify (·.opened)
    return ⟨reconciled, false⟩

/-- Reconcile what survived a restart, then open the gateway or halt it. -/
def recover (cfg : GatewayConfig) (env : GatewayEnv) : GatewayM RecoveryReport :=
  if cfg.recoveryWired = false then return ⟨0, false⟩
  else do
    let records ← readLedger cfg env
    if ledgerShowsHalt records then
      modify (·.markedHalted)
      return ⟨0, true⟩
    else
      let walRecords ← readWal cfg
      let openOrders ← readOpenOrders cfg env
      let reconciled ← rehydrateFromWal env records walRecords openOrders
      openOrHalt env walRecords openOrders reconciled

/-! ## The seams of the cycles -/

/-- Latch the gateway fail-closed. -/
def markHalted : GatewayM Unit := modify (·.markedHalted)

/-- Return the size of a close to what may still be closed. -/
def retireInflight (w : GatewayWorld) (ticker : String) (sizeCentis : ℤ) : GatewayWorld :=
  let remaining := max (inflightFor w ticker - sizeCentis) 0
  if 0 < remaining then w.withInflight ticker ⟨remaining⟩ else w.withoutInflight ticker

/-- The world without a tracked order, and without its share of the closes in flight. -/
def retired (order : TrackedOrder) (w : GatewayWorld) : GatewayWorld :=
  if isClosingAction order.action then
    retireInflight (w.untracked order.orderId) order.ticker order.sizeCentis
  else w.untracked order.orderId

/-- Stop tracking an order that is done. -/
def retireTrackedOrder (order : TrackedOrder) : GatewayM Unit := modify (retired order)

end OrderGateway

end Windbreak
