import Windbreak.Numeric.Rounding
import Windbreak.RiskKernel.Checks

/-!
# When each check passes

One equivalence for each of the twenty-four checks, so that what is said of a whole decision need
not go back to the code of any.

* **Freshness** — `fresh_iff`: a timestamp is known, not in the future, and young enough.
* **Data that must be known**, **limits on the account**, **limits on the order**.
-/

namespace Windbreak

variable {intent : OrderIntent} {context : EvaluationContext}

/-! ## Freshness -/

/-- **A timestamp is fresh** when it is known, not in the future, and young enough. -/
theorem fresh_iff {timestamp : Option ℤ} {now ttlSeconds : ℤ} :
    isStale timestamp now ttlSeconds = false ↔
      ∃ t, timestamp = some t ∧ t ≤ now ∧ now - t ≤ ttlSeconds := by
  cases timestamp with
  | none => simp [isStale]
  | some t => simp [isStale]

theorem freshnessCheck_vetoed {stale : Bool} {reason : String} :
    (freshnessCheck stale reason).vetoed = false ↔ stale = false := by
  cases stale <;> simp [freshnessCheck]

theorem quoteFreshness_iff : runCheck quoteFreshness intent context = none ↔
    ∃ t, context.market.quoteSnapshotEpochS = some t ∧ t ≤ context.nowEpochS ∧
      context.nowEpochS - t ≤ context.limits.quoteTtlSeconds := by
  rw [runCheck_eq_none rfl, freshnessCheck_vetoed, fresh_iff]

theorem forecastFreshness_iff : runCheck forecastFreshness intent context = none ↔
    ∃ t, context.market.forecastEpochS = some t ∧ t ≤ context.nowEpochS ∧
      context.nowEpochS - t ≤ context.limits.forecastTtlSeconds := by
  rw [runCheck_eq_none rfl, freshnessCheck_vetoed, fresh_iff]

theorem pipelineHeartbeatOk_iff : runCheck pipelineHeartbeatOk intent context = none ↔
    ∃ t, context.pipelineHeartbeatEpochS = some t ∧ t ≤ context.nowEpochS ∧
      context.nowEpochS - t ≤ context.limits.pipelineHeartbeatTtlSeconds := by
  rw [runCheck_eq_none rfl, freshnessCheck_vetoed, fresh_iff]

theorem exchangeStatusOk_iff : runCheck exchangeStatusOk intent context = none ↔
    context.market.exchangeStatus = some .OPEN ∧
      ∃ t, context.market.exchangeStatusEpochS = some t ∧ t ≤ context.nowEpochS ∧
        context.nowEpochS - t ≤ context.limits.exchangeStatusTtlSeconds := by
  rw [runCheck_eq_none rfl, ← fresh_iff]
  cases hstatus : context.market.exchangeStatus with
  | none => simp
  | some status => cases status <;> simp

/-! ## Data that must be known -/

theorem presenceCheck_vetoed {bound : Option MoneyMicros} {reason : String} :
    (presenceCheck bound reason).vetoed = false ↔ ∃ fee, bound = some fee := by
  cases bound <;> simp [presenceCheck]

theorem feeUpperBoundPresent_iff : runCheck feeUpperBoundPresent intent context = none ↔
    ∃ fee, context.fees.maxTradingFee = some fee := by
  rw [runCheck_eq_none rfl, presenceCheck_vetoed]

theorem settlementFeeUpperBound_iff : runCheck settlementFeeUpperBound intent context = none ↔
    ∃ fee, context.fees.maxSettlementFee = some fee := by
  rw [runCheck_eq_none rfl, presenceCheck_vetoed]

theorem jurisdictionProductEligibility_iff :
    runCheck jurisdictionProductEligibility intent context = none ↔
      context.market.jurisdictionStatus = some .ELIGIBLE ∧
        context.market.productType = some .FULLY_COLLATERALIZED_BINARY := by
  rw [runCheck_eq_none rfl]
  cases hstatus : context.market.jurisdictionStatus with
  | none => simp
  | some status => cases status <;> simp

theorem clockSkewLimit_iff : runCheck clockSkewLimit intent context = none ↔
    ∃ clock, context.market.exchangeClockEpochS = some clock ∧
      ((context.nowEpochS - clock).natAbs : ℤ) ≤ context.limits.clockSkewMaxSeconds := by
  rw [runCheck_eq_none rfl]
  cases hclock : context.market.exchangeClockEpochS with
  | none => simp
  | some clock => simp

theorem participationCapCompliance_iff :
    runCheck participationCapCompliance intent context = none ↔
      ∃ depth, context.market.visibleDepth = some depth ∧
        intent.size.value ≤ ppmOf depth.value context.limits.maxParticipationPpm := by
  rw [runCheck_eq_none rfl]
  cases hdepth : context.market.visibleDepth with
  | none => simp
  | some depth => simp

/-- A reconciliation dimension passes on a fresh snapshot that reports it clean, in a live mode only
if the semantics are known where that is asked. -/
theorem reconciliationCheck_iff {name : String} {ok : VerificationSnapshot → Bool}
    {staleReason mismatchReason : String} {gateSemantics : Bool} :
    runCheck (reconciliationCheck name ok staleReason mismatchReason gateSemantics) intent context =
        none ↔
      ∃ snapshot, context.verification = some snapshot ∧
        (snapshot.verifiedAtEpochS ≤ context.nowEpochS ∧
          context.nowEpochS - snapshot.verifiedAtEpochS ≤ context.limits.verificationTtlSeconds) ∧
        ok snapshot = true ∧
        (gateSemantics = true → snapshot.semanticsFullyKnown = false →
          context.mode ∉ liveTradingModes) := by
  rw [runCheck_eq_none rfl]
  cases hsnapshot : context.verification with
  | none => simp
  | some snapshot =>
      have hfresh : isStale (some snapshot.verifiedAtEpochS) context.nowEpochS
          context.limits.verificationTtlSeconds = false ↔
          snapshot.verifiedAtEpochS ≤ context.nowEpochS ∧
            context.nowEpochS - snapshot.verifiedAtEpochS ≤
              context.limits.verificationTtlSeconds := by
        rw [fresh_iff]
        simp
      simp only [Option.some.injEq, exists_eq_left', ← hfresh]
      cases isStale (some snapshot.verifiedAtEpochS) context.nowEpochS
        context.limits.verificationTtlSeconds <;> cases ok snapshot <;> cases gateSemantics <;>
        cases snapshot.semanticsFullyKnown <;> simp

/-! ## Limits on the account -/

theorem dailyLossLimit_iff : runCheck dailyLossLimit intent context = none ↔
    context.account.realizedLossToday.value <
      ppmOf context.account.equityStartOfDay.value context.limits.dailyLossLimitPctPpm := by
  rw [runCheck_eq_none rfl]
  simp

theorem trailingDrawdownLimit_iff : runCheck trailingDrawdownLimit intent context = none ↔
    context.account.equityHighWaterMark.value - context.account.sampledEquity.value <
      ppmOf context.account.equityHighWaterMark.value context.limits.maxDrawdownPctPpm := by
  rw [runCheck_eq_none rfl]
  simp

/-! ## Limits on the order -/

theorem instrumentWhitelist_iff : runCheck instrumentWhitelist intent context = none ↔
    intent.marketTicker ∈ context.limits.instrumentWhitelist := by
  rw [runCheck_eq_none rfl]
  simp

theorem modePermissionCeiling_iff : runCheck modePermissionCeiling intent context = none ↔
    context.mode.mayTrade = true ∧
      (context.mode = .LIVE_MICRO → isDeriskingClose intent context = false →
        ∃ cost, orderCost intent context = .ok cost ∧
          context.account.totalExposure.value + context.account.pendingKernelReservations.value
            + cost.value ≤ context.limits.microCap.value) := by
  refine ⟨modePermissionCeiling_passed, fun ⟨hmode, hcap⟩ => ?_⟩
  rw [runCheck_eq_none rfl]
  by_cases hmicro : context.mode = .LIVE_MICRO
  · by_cases hclose : isDeriskingClose intent context = true
    · rw [if_neg (by simp [hmode]), if_neg (not_not.mpr hmicro), if_pos hclose]
      rfl
    · obtain ⟨cost, hcost, hle⟩ := hcap hmicro (Bool.eq_false_iff.mpr hclose)
      rw [if_neg (by simp [hmode]), if_neg (not_not.mpr hmicro), if_neg hclose,
        withOrderCost_passed]
      exact ⟨cost, hcost, congrArg CheckResult.vetoed (if_neg (Int.not_lt.mpr hle))⟩
  · simp [hmode, hmicro]

theorem floorInvariant_iff : runCheck floorInvariant intent context = none ↔
    ∃ trading settlement charged, context.fees.maxTradingFee = some trading ∧
      context.fees.maxSettlementFee = some settlement ∧
      floorCost intent context trading settlement = some charged ∧
      context.limits.floor.value ≤ (equityOf context.account).value - charged.value := by
  refine ⟨floorInvariant_passed, ?_⟩
  rintro ⟨trading, settlement, charged, htrading, hsettlement, hcharged, hfloor⟩
  rw [runCheck_eq_none rfl]
  simp only [htrading, hsettlement, hcharged]
  exact congrArg CheckResult.vetoed (if_pos hfloor)

theorem concentrationLimits_iff : runCheck concentrationLimits intent context = none ↔
    (isDeriskingClose intent context = false →
      ∃ cost, orderCost intent context = .ok cost ∧
        ∀ d ∈ concentrationDimensions context.account context.limits,
          d.1.value + cost.value ≤ ppmOf (equityOf context.account).value d.2) := by
  refine ⟨concentrationLimits_passed, fun h => ?_⟩
  rw [runCheck_eq_none rfl]
  by_cases hclose : isDeriskingClose intent context = true
  · rw [if_pos hclose]
    rfl
  · obtain ⟨cost, hcost, hwithin⟩ := h (Bool.eq_false_iff.mpr hclose)
    rw [if_neg hclose, withOrderCost_passed]
    refine ⟨cost, hcost, congrArg CheckResult.vetoed (if_neg ?_)⟩
    rw [List.any_eq_true]
    rintro ⟨d, hd, hover⟩
    exact absurd (hwithin d hd) (Int.not_le.mpr (of_decide_eq_true hover))

theorem velocityLimits_iff : runCheck velocityLimits intent context = none ↔
    context.account.ordersLastHour + 1 ≤ context.limits.maxOrdersPerHour ∧
      (isDeriskingClose intent context = false →
        ∃ cost, orderCost intent context = .ok cost ∧
          context.account.notionalToday.value + cost.value ≤
            context.limits.maxNotionalPerDay.value) := by
  refine ⟨velocityLimits_passed, fun ⟨hhour, hday⟩ => ?_⟩
  rw [runCheck_eq_none rfl, if_neg (Int.not_lt.mpr hhour)]
  by_cases hclose : isDeriskingClose intent context = true
  · rw [if_pos hclose]
    rfl
  · obtain ⟨cost, hcost, hle⟩ := hday (Bool.eq_false_iff.mpr hclose)
    rw [if_neg hclose, withOrderCost_passed]
    exact ⟨cost, hcost, congrArg CheckResult.vetoed (if_neg (Int.not_lt.mpr hle))⟩

theorem priceBandCompliance_iff : runCheck priceBandCompliance intent context = none ↔
    intent.action ∈ closingActions ∨ (intent.action ∈ openingActions ∧
      context.limits.minOpenPrice ≤ intent.price ∧
        intent.price ≤ context.limits.maxOpenPrice) := by
  rw [runCheck_eq_none rfl]
  by_cases hclosing : intent.action ∈ closingActions
  · simp [hclosing]
  · simp [hclosing]

theorem humanAckSatisfied_iff : runCheck humanAckSatisfied intent context = none ↔
    ∀ threshold, context.limits.requireHumanAckAboveMicros = some threshold →
      context.mode ∈ liveTradingModes →
      ∃ cost, orderCost intent context = .ok cost ∧
        (cost ≤ threshold ∨ intent.intentId ∈ context.acknowledgedIntentIds) := by
  rw [runCheck_eq_none rfl]
  cases hthreshold : context.limits.requireHumanAckAboveMicros with
  | none => simp
  | some threshold =>
      by_cases hlive : context.mode ∈ liveTradingModes
      · simp only [hlive, not_true_eq_false, if_false, withOrderCost_passed, Option.some.injEq,
          forall_eq', forall_const]
        refine exists_congr fun cost => and_congr_right fun _ => ?_
        by_cases hover : cost > threshold ∧ intent.intentId ∉ context.acknowledgedIntentIds
        · rw [if_pos hover]
          exact iff_of_false (by simp)
            (not_or.mpr ⟨Int.not_le.mpr hover.1, hover.2⟩)
        · rw [if_neg hover]
          refine iff_of_true rfl ?_
          rw [not_and_or, not_not] at hover
          exact hover.imp Int.not_lt.mp id
      · simp [hlive]

theorem uniquenessCheck_vetoed {id : String} {used : Finset String} {reason : String} :
    (uniquenessCheck id used reason).vetoed = false ↔ id ∉ used := by
  by_cases h : id ∈ used <;> simp [uniquenessCheck, h]

theorem approvalTokenUniqueness_iff : runCheck approvalTokenUniqueness intent context = none ↔
    intent.intentId ∉ context.usedIntentIds := by
  rw [runCheck_eq_none rfl, uniquenessCheck_vetoed]

theorem idempotencyKeyUniqueness_iff : runCheck idempotencyKeyUniqueness intent context = none ↔
    intent.idempotencyKey ∉ context.usedIdempotencyKeys := by
  rw [runCheck_eq_none rfl, uniquenessCheck_vetoed]

theorem reduceOnlyProvable_iff : runCheck reduceOnlyProvable intent context = none ↔
    intent.action ∈ openingActions ∨
      (intent.action ∈ closingActions ∧ isDeriskingClose intent context = true) := by
  refine ⟨reduceOnlyProvable_passed, ?_⟩
  rintro (hopen | ⟨hclose, hrisk⟩)
  · rw [runCheck_eq_none rfl, if_pos hopen]
    rfl
  · have hnot : intent.action ∉ openingActions := fun hopen => by
      rw [isDeriskingClose_of_opening context hopen] at hrisk
      exact absurd hrisk Bool.false_ne_true
    rw [runCheck_eq_none rfl, if_neg hnot, if_neg (not_not.mpr hclose), if_pos hrisk]
    rfl

end Windbreak
