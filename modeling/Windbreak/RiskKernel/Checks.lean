import Windbreak.RiskKernel.Context

/-!
# The pre-trade veto checks

Twenty-four checks, each a pure function of the intent and the context, run in a pinned order and
fail-closed: a check that raises becomes a veto and the checks after it still run.

* **Shared helpers** — `ppmOf`, `isDeriskingClose`, `orderCost`, `isStale`.
* **The checks**, under their pinned names, and `defaultChecks` in the pinned order.
* **`evaluateIntent`** — the decision with every reason.
* **Reading a decision** — `evaluateIntent_passed`: when nothing vetoed, every check approved.
  One lemma for each check whose approval a later argument uses says what the approval means.
-/

/-! ## Worst-case equity and worst-case cost

The two exact sums the floor comparison is built from: what the account is worth under the most
adverse resolution of everything uncertain, and what an order can cost at most.
-/

namespace Windbreak

/-- Cash and guaranteed value, less every claim that could yet materialize. -/
def worstCaseEquity (exchangeVerifiedAvailableCash guaranteedTerminalValueOfPositions
    pendingKernelReservations unresolvedFeeUpperBounds
    reconciliationUncertaintyBuffer : MoneyMicros) : MoneyMicros :=
  exchangeVerifiedAvailableCash + guaranteedTerminalValueOfPositions
    - pendingKernelReservations - unresolvedFeeUpperBounds - reconciliationUncertaintyBuffer

/-- Notional, both fee bounds and the rounding buffer. -/
def worstCaseCost (price : PricePips) (size : ContractCentis)
    (maxTradingFee maxSettlementFee roundingBuffer : MoneyMicros) : MoneyMicros :=
  moneyFromPriceAndCount price size .overstateCost + maxTradingFee + maxSettlementFee
    + roundingBuffer

/-- The worst-case equity of an account snapshot. -/
def equityOf (account : AccountState) : MoneyMicros :=
  worstCaseEquity account.exchangeVerifiedAvailableCash
    account.guaranteedTerminalValueOfPositions account.pendingKernelReservations
    account.unresolvedFeeUpperBounds account.reconciliationUncertaintyBuffer

/-- The account with its reservation total replaced, as the pipeline stamps it. -/
def AccountState.withReserved (account : AccountState) (reserved : MoneyMicros) : AccountState :=
  { account with pendingKernelReservations := reserved }

/-- Reserving more lowers the worst-case equity by exactly as much. -/
theorem equityOf_withReserved_add (account : AccountState) (reserved cost : MoneyMicros) :
    (equityOf (account.withReserved (reserved + cost))).value =
      (equityOf (account.withReserved reserved)).value - cost.value := by
  simp only [equityOf, worstCaseEquity, AccountState.withReserved, IntUnit.value_add,
    IntUnit.value_sub]
  omega

end Windbreak

namespace Windbreak

/-- The outcome of a single check. -/
structure CheckResult where
  vetoed : Bool
  reason : String
  deriving DecidableEq, Repr

/-- The aggregate verdict over an intent. -/
structure Decision where
  vetoed : Bool
  reasons : List String
  ledgered : Bool
  deriving DecidableEq, Repr

/-- A named pre-trade check, which may raise. -/
structure Check where
  name : String
  call : OrderIntent → EvaluationContext → Except KernelError CheckResult

/-! ## Shared helpers -/

def CheckResult.approve : CheckResult := ⟨false, "ok"⟩

def CheckResult.veto (reason : String) : CheckResult := ⟨true, reason⟩

open CheckResult

def openingActions : List String := ["buy"]

def closingActions : List String := ["sell_to_close"]

def unprovableReason : String := "unprovable"

def liveTradingModes : List Mode := [.LIVE_MICRO, .LIVE]

def semanticsUnknownReason : String := "balance semantics not fully known in live mode"

def humanAckRequiredReason : String := "human acknowledgement required"

/-- The floored parts-per-million share of a base. -/
def ppmOf (base ppm : ℤ) : ℤ := quotient (base * ppm) 1000000 .understateEquity

/-- A close of a known open position that it cannot overshoot. -/
def isDeriskingClose (intent : OrderIntent) (context : EvaluationContext) : Bool :=
  match context.market.openPosition with
  | none => false
  | some openPosition =>
    decide (intent.action ∈ closingActions) && decide (intent.size ≤ openPosition)

/-- The full worst-case cost of an order, whatever its action; it raises when a fee bound is
absent. -/
def orderCost (intent : OrderIntent) (context : EvaluationContext) :
    Except KernelError MoneyMicros :=
  match context.fees.maxTradingFee, context.fees.maxSettlementFee with
  | some trading, some settlement =>
    .ok (worstCaseCost intent.price intent.size trading settlement context.limits.roundingBuffer)
  | _, _ => .error ⟨.unprovableCost, ""⟩

/-- Run `k` on the order's cost, vetoing as unprovable when there is none. -/
def withOrderCost (intent : OrderIntent) (context : EvaluationContext)
    (k : MoneyMicros → CheckResult) : CheckResult :=
  match orderCost intent context with
  | .ok cost => k cost
  | .error _ => veto unprovableReason

/-- A timestamp that is missing, in the future, or past its ttl. -/
def isStale (timestamp : Option ℤ) (now ttlSeconds : ℤ) : Bool :=
  match timestamp with
  | none => true
  | some t => if t > now then true else decide (now - t > ttlSeconds)

/-- The one shape shared by the freshness checks: veto with `reason` when the datum is stale. -/
def freshnessCheck (stale : Bool) (reason : String) : CheckResult :=
  if stale then veto reason else approve

/-- The one shape shared by the two fee-bound checks. -/
def presenceCheck (bound : Option MoneyMicros) (reason : String) : CheckResult :=
  if bound.isNone then veto reason else approve

/-- The one shape shared by the two uniqueness checks. -/
def uniquenessCheck (id : String) (used : Finset String) (reason : String) : CheckResult :=
  if id ∈ used then veto reason else approve

/-! ## The checks -/

def instrumentWhitelist : Check where
  name := "instrument_whitelist"
  call intent context := .ok <|
    if intent.marketTicker ∈ context.limits.instrumentWhitelist then approve
    else veto s!"ticker {intent.marketTicker} not on whitelist"

def jurisdictionProductEligibility : Check where
  name := "jurisdiction_product_eligibility"
  call _ context := .ok <|
    match context.market.jurisdictionStatus with
    | none => veto "jurisdiction eligibility unknown or missing"
    | some status =>
      if status ≠ .ELIGIBLE then veto "market not jurisdiction-eligible"
      else if context.market.productType ≠ some .FULLY_COLLATERALIZED_BINARY then
        veto "product not provably a fully collateralized binary"
      else approve

/-- The mode gate is absolute.  Inside `LIVE_MICRO` the ceiling counts the capital already reserved
against other in-flight approvals; a provable de-risking close is exempt from it. -/
def modePermissionCeiling : Check where
  name := "mode_permission_ceiling"
  call intent context := .ok <|
    if !context.mode.mayTrade then veto s!"mode {context.mode.name} may not trade"
    else if context.mode ≠ .LIVE_MICRO then approve
    else if isDeriskingClose intent context then approve
    else withOrderCost intent context fun cost =>
      if context.account.totalExposure + context.account.pendingKernelReservations + cost
          > context.limits.microCap then
        veto "live-micro exposure ceiling exceeded"
      else approve

/-- The cost the floor charges: everything for an open, fees and buffer for a close. -/
def floorCost (intent : OrderIntent) (context : EvaluationContext)
    (trading settlement : MoneyMicros) : Option MoneyMicros :=
  if intent.action ∈ openingActions then
    some (worstCaseCost intent.price intent.size trading settlement context.limits.roundingBuffer)
  else if intent.action ∈ closingActions then
    some (trading + settlement + context.limits.roundingBuffer)
  else none

def floorInvariant : Check where
  name := "floor_invariant"
  call intent context := .ok <|
    match context.fees.maxTradingFee, context.fees.maxSettlementFee with
    | some trading, some settlement =>
      match floorCost intent context trading settlement with
      | none => veto unprovableReason
      | some cost =>
        if context.limits.floor ≤ equityOf context.account - cost then approve
        else veto "worst-case equity below floor"
    | _, _ => veto unprovableReason

/-- One reconciliation dimension: fail closed on a missing or stale snapshot, then on the
dimension's own flag, then (balance only) on unknown semantics in a live mode. -/
def reconciliationCheck (name : String) (ok : VerificationSnapshot → Bool)
    (staleReason mismatchReason : String) (gateSemantics : Bool) : Check where
  name := name
  call _ context := .ok <|
    match context.verification with
    | none => veto staleReason
    | some snapshot =>
      if isStale (some snapshot.verifiedAtEpochS) context.nowEpochS
          context.limits.verificationTtlSeconds then
        veto staleReason
      else if !ok snapshot then veto mismatchReason
      else if gateSemantics && !snapshot.semanticsFullyKnown
          && decide (context.mode ∈ liveTradingModes) then
        veto semanticsUnknownReason
      else approve

def balanceReconciliation : Check :=
  reconciliationCheck "balance_reconciliation" (·.balanceOk)
    "balance verification stale or missing" "balance reconciliation mismatch" true

def positionReconciliation : Check :=
  reconciliationCheck "position_reconciliation" (·.positionOk)
    "position verification stale or missing" "position reconciliation mismatch" false

def openOrderReconciliation : Check :=
  reconciliationCheck "open_order_reconciliation" (·.openOrderOk)
    "open-order verification stale or missing" "open-order reconciliation mismatch" false

def feeUpperBoundPresent : Check where
  name := "fee_upper_bound_present"
  call _ context := .ok <| presenceCheck context.fees.maxTradingFee "no trading-fee upper bound"

def settlementFeeUpperBound : Check where
  name := "settlement_fee_upper_bound"
  call _ context := .ok <|
    presenceCheck context.fees.maxSettlementFee "no settlement-fee upper bound"

/-- The four exposure dimensions, each with its share of equity. -/
def concentrationDimensions (account : AccountState) (limits : RiskLimits) :
    List (MoneyMicros × ℤ) :=
  [(account.marketExposure, limits.maxPosMarketPctPpm),
    (account.eventExposure, limits.maxPosEventPctPpm),
    (account.bucketExposure, limits.maxPosBucketPctPpm),
    (account.totalExposure, limits.maxPosTotalPctPpm)]

def concentrationLimits : Check where
  name := "concentration_limits"
  call intent context := .ok <|
    if isDeriskingClose intent context then approve
    else withOrderCost intent context fun cost =>
      let equity := (equityOf context.account).value
      if (concentrationDimensions context.account context.limits).any fun d =>
          decide (d.1.value + cost.value > ppmOf equity d.2) then
        veto "concentration limit exceeded"
      else approve

def dailyLossLimit : Check where
  name := "daily_loss_limit"
  call _ context := .ok <|
    let threshold :=
      ppmOf context.account.equityStartOfDay.value context.limits.dailyLossLimitPctPpm
    if context.account.realizedLossToday.value ≥ threshold then veto "daily loss limit reached"
    else approve

def trailingDrawdownLimit : Check where
  name := "trailing_drawdown_limit"
  call _ context := .ok <|
    let mark := context.account.equityHighWaterMark.value
    let drawdown := mark - context.account.sampledEquity.value
    if drawdown ≥ ppmOf mark context.limits.maxDrawdownPctPpm then
      veto "trailing drawdown limit reached"
    else approve

/-- The hourly cap applies to every order; a provable de-risking close is exempt from the daily
notional only. -/
def velocityLimits : Check where
  name := "velocity_limits"
  call intent context := .ok <|
    if context.account.ordersLastHour + 1 > context.limits.maxOrdersPerHour then
      veto "hourly order cap exceeded"
    else if isDeriskingClose intent context then approve
    else withOrderCost intent context fun cost =>
      if context.account.notionalToday + cost > context.limits.maxNotionalPerDay then
        veto "daily notional cap exceeded"
      else approve

def quoteFreshness : Check where
  name := "quote_freshness"
  call _ context := .ok <|
    freshnessCheck (isStale context.market.quoteSnapshotEpochS context.nowEpochS
      context.limits.quoteTtlSeconds) "quote is stale or missing"

def forecastFreshness : Check where
  name := "forecast_freshness"
  call _ context := .ok <|
    freshnessCheck (isStale context.market.forecastEpochS context.nowEpochS
      context.limits.forecastTtlSeconds) "forecast is stale or missing"

def priceBandCompliance : Check where
  name := "price_band_compliance"
  call intent context := .ok <|
    if intent.action ∈ closingActions then approve
    else if intent.action ∉ openingActions then veto unprovableReason
    else if context.limits.minOpenPrice ≤ intent.price ∧
        intent.price ≤ context.limits.maxOpenPrice then approve
    else veto "price outside open band"

def participationCapCompliance : Check where
  name := "participation_cap_compliance"
  call intent context := .ok <|
    match context.market.visibleDepth with
    | none => veto "visible depth unknown"
    | some depth =>
      if intent.size.value > ppmOf depth.value context.limits.maxParticipationPpm then
        veto "participation cap exceeded"
      else approve

def clockSkewLimit : Check where
  name := "clock_skew_limit"
  call _ context := .ok <|
    match context.market.exchangeClockEpochS with
    | none => veto "exchange clock unknown"
    | some exchangeClock =>
      if ((context.nowEpochS - exchangeClock).natAbs : ℤ) > context.limits.clockSkewMaxSeconds then
        veto "clock skew exceeds limit"
      else approve

/-- Staleness first, so that a stale status can never read as tradable. -/
def exchangeStatusOk : Check where
  name := "exchange_status_ok"
  call _ context := .ok <|
    if context.market.exchangeStatus.isNone || isStale context.market.exchangeStatusEpochS
        context.nowEpochS context.limits.exchangeStatusTtlSeconds then
      veto "exchange status stale or missing"
    else if context.market.exchangeStatus ≠ some .OPEN then veto "exchange not open for trading"
    else approve

def pipelineHeartbeatOk : Check where
  name := "pipeline_heartbeat_ok"
  call _ context := .ok <|
    freshnessCheck (isStale context.pipelineHeartbeatEpochS context.nowEpochS
      context.limits.pipelineHeartbeatTtlSeconds) "pipeline heartbeat stale or missing"

def humanAckSatisfied : Check where
  name := "human_ack_satisfied"
  call intent context := .ok <|
    match context.limits.requireHumanAckAboveMicros with
    | none => approve
    | some threshold =>
      if context.mode ∉ liveTradingModes then approve
      else withOrderCost intent context fun cost =>
        if cost > threshold ∧ intent.intentId ∉ context.acknowledgedIntentIds then
          veto humanAckRequiredReason
        else approve

def approvalTokenUniqueness : Check where
  name := "approval_token_uniqueness"
  call intent context := .ok <|
    uniquenessCheck intent.intentId context.usedIntentIds
      "approval token already issued for intent id"

def idempotencyKeyUniqueness : Check where
  name := "idempotency_key_uniqueness"
  call intent context := .ok <|
    uniquenessCheck intent.idempotencyKey context.usedIdempotencyKeys
      "idempotency key already used"

def reduceOnlyProvable : Check where
  name := "reduce_only_provable"
  call intent context := .ok <|
    if intent.action ∈ openingActions then approve
    else if intent.action ∉ closingActions then veto unprovableReason
    else if isDeriskingClose intent context then approve
    else veto "close is not provably reduce-only"

/-- The twenty-four checks in their pinned order. -/
def defaultChecks : List Check :=
  [instrumentWhitelist, jurisdictionProductEligibility, modePermissionCeiling, floorInvariant,
    balanceReconciliation, positionReconciliation, openOrderReconciliation, feeUpperBoundPresent,
    settlementFeeUpperBound, concentrationLimits, dailyLossLimit, trailingDrawdownLimit,
    velocityLimits, quoteFreshness, forecastFreshness, priceBandCompliance,
    participationCapCompliance, humanAckSatisfied, approvalTokenUniqueness,
    idempotencyKeyUniqueness, clockSkewLimit, exchangeStatusOk, pipelineHeartbeatOk,
    reduceOnlyProvable]

/-- Run one check fail-closed: the veto reason, if it vetoes or raises. -/
def runCheck (check : Check) (intent : OrderIntent) (context : EvaluationContext) :
    Option String :=
  match check.call intent context with
  | .error exc => some s!"{check.name}: error: {exc.message}"
  | .ok result => if result.vetoed then some result.reason else none

/-- Evaluate an intent against every check. -/
def evaluateIntent (intent : OrderIntent) (context : EvaluationContext)
    (checks : List Check) : Decision :=
  let reasons := checks.filterMap fun check => runCheck check intent context
  ⟨!reasons.isEmpty, reasons, false⟩

/-! ## Reading a decision -/

theorem evaluateIntent_vetoed_false {intent : OrderIntent} {context : EvaluationContext}
    {checks : List Check} :
    (evaluateIntent intent context checks).vetoed = false ↔
      ∀ check ∈ checks, runCheck check intent context = none := by
  simp only [evaluateIntent, Bool.not_eq_false', List.isEmpty_iff, List.filterMap_eq_nil_iff]

/-- **When nothing vetoed, every check approved.** -/
theorem evaluateIntent_passed {intent : OrderIntent} {context : EvaluationContext}
    (h : (evaluateIntent intent context defaultChecks).vetoed = false) {check : Check}
    (hc : check ∈ defaultChecks) : runCheck check intent context = none :=
  evaluateIntent_vetoed_false.mp h check hc

/-- A check that cannot raise passes exactly when its result does not veto. -/
theorem runCheck_eq_none {check : Check} {intent : OrderIntent} {context : EvaluationContext}
    {result : CheckResult} (h : check.call intent context = .ok result) :
    runCheck check intent context = none ↔ result.vetoed = false := by
  unfold runCheck
  rw [h]
  cases hv : result.vetoed <;> simp [hv]

@[simp] theorem vetoed_veto (reason : String) : (veto reason).vetoed = true := rfl

@[simp] theorem vetoed_approve : approve.vetoed = false := rfl

@[simp] theorem vetoed_ite (c : Prop) [Decidable c] (a b : CheckResult) :
    (if c then a else b).vetoed = if c then a.vetoed else b.vetoed := apply_ite _ _ _ _

/-- The cost-consuming checks approve only on a provable cost. -/
theorem withOrderCost_passed {intent : OrderIntent} {context : EvaluationContext}
    {k : MoneyMicros → CheckResult} :
    (withOrderCost intent context k).vetoed = false ↔
      ∃ cost, orderCost intent context = .ok cost ∧ (k cost).vetoed = false := by
  unfold withOrderCost
  cases h : orderCost intent context with
  | ok cost => simp
  | error e => simp

/-- The cost of an order with both fee bounds, spelled out. -/
theorem orderCost_ok {intent : OrderIntent} {context : EvaluationContext} {cost : MoneyMicros} :
    orderCost intent context = .ok cost ↔
      ∃ trading settlement, context.fees.maxTradingFee = some trading ∧
        context.fees.maxSettlementFee = some settlement ∧
        cost = worstCaseCost intent.price intent.size trading settlement
          context.limits.roundingBuffer := by
  unfold orderCost
  cases ht : context.fees.maxTradingFee with
  | none => simp
  | some t =>
      cases hs : context.fees.maxSettlementFee with
      | none => simp
      | some f => simp [eq_comm]

theorem isDeriskingClose_iff {intent : OrderIntent} {context : EvaluationContext} :
    isDeriskingClose intent context = true ↔
      intent.action ∈ closingActions ∧
        ∃ openPosition, context.market.openPosition = some openPosition ∧
          intent.size ≤ openPosition := by
  unfold isDeriskingClose
  cases h : context.market.openPosition with
  | none => simp
  | some p => simp

/-- The mode gate: only a trading mode passes, and inside `LIVE_MICRO` the projected exposure of
anything but a provable de-risking close is within the cap. -/
theorem modePermissionCeiling_passed {intent : OrderIntent} {context : EvaluationContext}
    (h : runCheck modePermissionCeiling intent context = none) :
    context.mode.mayTrade = true ∧
      (context.mode = .LIVE_MICRO → isDeriskingClose intent context = false →
        ∃ cost, orderCost intent context = .ok cost ∧
          context.account.totalExposure.value + context.account.pendingKernelReservations.value
            + cost.value ≤ context.limits.microCap.value) := by
  rw [runCheck_eq_none rfl] at h
  split_ifs at h with hmode hmicro hclose
  · simp at h
  · exact ⟨by simpa using hmode, fun hm => absurd hm hmicro⟩
  · exact ⟨by simpa using hmode, fun _ hc => by simp [hclose] at hc⟩
  · refine ⟨by simpa using hmode, fun _ _ => ?_⟩
    obtain ⟨cost, hcost, hk⟩ := withOrderCost_passed.mp h
    refine ⟨cost, hcost, ?_⟩
    split_ifs at hk with hcap
    · simp at hk
    · exact Int.not_lt.mp hcap

/-- The floor: equity less the charged cost clears it. -/
theorem floorInvariant_passed {intent : OrderIntent} {context : EvaluationContext}
    (h : runCheck floorInvariant intent context = none) :
    ∃ trading settlement charged, context.fees.maxTradingFee = some trading ∧
      context.fees.maxSettlementFee = some settlement ∧
      floorCost intent context trading settlement = some charged ∧
      context.limits.floor.value ≤ (equityOf context.account).value - charged.value := by
  rw [runCheck_eq_none rfl] at h
  cases ht : context.fees.maxTradingFee with
  | none => simp [ht] at h
  | some trading =>
      cases hs : context.fees.maxSettlementFee with
      | none => simp [ht, hs] at h
      | some settlement =>
          cases hc : floorCost intent context trading settlement with
          | none => simp [ht, hs, hc] at h
          | some charged =>
              simp only [ht, hs, hc] at h
              split_ifs at h with hfloor
              · exact ⟨trading, settlement, charged, rfl, rfl, hc, hfloor⟩
              · simp at h

/-- Every exposure dimension of an order that is not an exempt close stays within its share. -/
theorem concentrationLimits_passed {intent : OrderIntent} {context : EvaluationContext}
    (h : runCheck concentrationLimits intent context = none)
    (hopen : isDeriskingClose intent context = false) :
    ∃ cost, orderCost intent context = .ok cost ∧
      ∀ d ∈ concentrationDimensions context.account context.limits,
        d.1.value + cost.value ≤ ppmOf (equityOf context.account).value d.2 := by
  rw [runCheck_eq_none rfl] at h
  rw [if_neg (by simp [hopen])] at h
  obtain ⟨cost, hcost, hk⟩ := withOrderCost_passed.mp h
  refine ⟨cost, hcost, fun d hd => ?_⟩
  dsimp only at hk
  split_ifs at hk with hany
  · simp at hk
  · simp only [List.any_eq_true, decide_eq_true_eq, not_exists, not_and] at hany
    exact Int.not_lt.mp (hany d hd)

/-- The hourly cap holds of every order, the daily notional cap of every non-exempt one. -/
theorem velocityLimits_passed {intent : OrderIntent} {context : EvaluationContext}
    (h : runCheck velocityLimits intent context = none) :
    context.account.ordersLastHour + 1 ≤ context.limits.maxOrdersPerHour ∧
      (isDeriskingClose intent context = false →
        ∃ cost, orderCost intent context = .ok cost ∧
          context.account.notionalToday.value + cost.value ≤
            context.limits.maxNotionalPerDay.value) := by
  rw [runCheck_eq_none rfl] at h
  split_ifs at h with hhour hclose
  · simp at h
  · exact ⟨Int.not_lt.mp hhour, fun hc => by simp [hclose] at hc⟩
  · refine ⟨Int.not_lt.mp hhour, fun _ => ?_⟩
    obtain ⟨cost, hcost, hk⟩ := withOrderCost_passed.mp h
    refine ⟨cost, hcost, ?_⟩
    split_ifs at hk with hcap
    · simp at hk
    · exact Int.not_lt.mp hcap

theorem approvalTokenUniqueness_passed {intent : OrderIntent} {context : EvaluationContext}
    (h : runCheck approvalTokenUniqueness intent context = none) :
    intent.intentId ∉ context.usedIntentIds := by
  rw [runCheck_eq_none rfl] at h
  intro hmem
  simp [uniquenessCheck, hmem] at h

theorem idempotencyKeyUniqueness_passed {intent : OrderIntent} {context : EvaluationContext}
    (h : runCheck idempotencyKeyUniqueness intent context = none) :
    intent.idempotencyKey ∉ context.usedIdempotencyKeys := by
  rw [runCheck_eq_none rfl] at h
  intro hmem
  simp [uniquenessCheck, hmem] at h

/-- An approved action is an open, or a close that is provably de-risking. -/
theorem reduceOnlyProvable_passed {intent : OrderIntent} {context : EvaluationContext}
    (h : runCheck reduceOnlyProvable intent context = none) :
    intent.action ∈ openingActions ∨
      (intent.action ∈ closingActions ∧ isDeriskingClose intent context = true) := by
  rw [runCheck_eq_none rfl] at h
  split_ifs at h with hopen hclose hrisk
  · exact Or.inl hopen
  · exact Or.inr ⟨hclose, hrisk⟩
  · simp at h
  · simp at h

/-- An opening action is never an exempt close. -/
theorem isDeriskingClose_of_opening {intent : OrderIntent} (context : EvaluationContext)
    (h : intent.action ∈ openingActions) : isDeriskingClose intent context = false := by
  rw [Bool.eq_false_iff]
  intro hc
  have hclose := (isDeriskingClose_iff.mp hc).1
  simp only [openingActions, closingActions, List.mem_singleton] at h hclose
  rw [h] at hclose
  exact absurd hclose (by decide)

end Windbreak
