import Windbreak.Core.Caution
import Windbreak.RiskKernel.LedgerRuns
import Windbreak.RiskKernel.Passing

/-!
# Bad news never turns a veto into an approval

Two contexts, the second worse than the first in any number of data: an amount has moved against the
account, or what was known is known no longer.  Every check is cautious, so the decision is.

* **`Worse`** — the order on contexts.  A timestamp from the future counts as unknown, so it is none
  the worse for being replaced by an older one; and a higher mark is worse as long as the drawdown
  limit is at most the whole of it.
* **The checks**, each cautious.
* **`veto_kept`** — a veto stands in every worse context.
-/

namespace Windbreak

open Caution

/-! ## Worse contexts -/

/-- A timestamp that was not in the future becomes older. -/
def Aged (now t t' : ℤ) : Prop := t' = t ∨ (t' ≤ t ∧ t ≤ now)

theorem Aged.refl (now t : ℤ) : Aged now t t := .inl rfl

/-- Every number among the limits is at least zero. -/
structure RiskLimits.NonNegative (limits : RiskLimits) : Prop where
  floor : 0 ≤ limits.floor.value
  microCap : 0 ≤ limits.microCap.value
  minOpenPrice : 0 ≤ limits.minOpenPrice.value
  maxOpenPrice : 0 ≤ limits.maxOpenPrice.value
  maxParticipationPpm : 0 ≤ limits.maxParticipationPpm
  maxPosMarketPctPpm : 0 ≤ limits.maxPosMarketPctPpm
  maxPosEventPctPpm : 0 ≤ limits.maxPosEventPctPpm
  maxPosBucketPctPpm : 0 ≤ limits.maxPosBucketPctPpm
  maxPosTotalPctPpm : 0 ≤ limits.maxPosTotalPctPpm
  dailyLossLimitPctPpm : 0 ≤ limits.dailyLossLimitPctPpm
  maxDrawdownPctPpm : 0 ≤ limits.maxDrawdownPctPpm
  maxOrdersPerHour : 0 ≤ limits.maxOrdersPerHour
  maxNotionalPerDay : 0 ≤ limits.maxNotionalPerDay.value
  quoteTtlSeconds : 0 ≤ limits.quoteTtlSeconds
  forecastTtlSeconds : 0 ≤ limits.forecastTtlSeconds
  clockSkewMaxSeconds : 0 ≤ limits.clockSkewMaxSeconds
  roundingBuffer : 0 ≤ limits.roundingBuffer.value
  verificationTtlSeconds : 0 ≤ limits.verificationTtlSeconds
  requireHumanAckAboveMicros :
    ∀ threshold, limits.requireHumanAckAboveMicros = some threshold → 0 ≤ threshold.value
  exchangeStatusTtlSeconds : 0 ≤ limits.exchangeStatusTtlSeconds
  pipelineHeartbeatTtlSeconds : 0 ≤ limits.pipelineHeartbeatTtlSeconds

/-- An account with less, or with more of it claimed. -/
structure AccountState.Worse (limits : RiskLimits) (a a' : AccountState) : Prop where
  cash : a'.exchangeVerifiedAvailableCash ≤ a.exchangeVerifiedAvailableCash
  positions : a'.guaranteedTerminalValueOfPositions ≤ a.guaranteedTerminalValueOfPositions
  reserved : a.pendingKernelReservations ≤ a'.pendingKernelReservations
  unresolvedFees : a.unresolvedFeeUpperBounds ≤ a'.unresolvedFeeUpperBounds
  buffer : a.reconciliationUncertaintyBuffer ≤ a'.reconciliationUncertaintyBuffer
  startOfDay : a'.equityStartOfDay ≤ a.equityStartOfDay
  /-- A limit above the whole of the mark would grow faster than the drawdown does. -/
  mark : a'.equityHighWaterMark = a.equityHighWaterMark ∨
    (a.equityHighWaterMark ≤ a'.equityHighWaterMark ∧ limits.maxDrawdownPctPpm ≤ 1000000)
  sampled : a'.sampledEquity ≤ a.sampledEquity
  loss : a.realizedLossToday ≤ a'.realizedLossToday
  market : a.marketExposure ≤ a'.marketExposure
  event : a.eventExposure ≤ a'.eventExposure
  bucket : a.bucketExposure ≤ a'.bucketExposure
  total : a.totalExposure ≤ a'.totalExposure
  orders : a.ordersLastHour ≤ a'.ordersLastHour
  notional : a.notionalToday ≤ a'.notionalToday

/-- A market of which less is known, or which is known to be older, thinner or further off. -/
structure MarketView.Worse (now : ℤ) (m m' : MarketView) : Prop where
  quote : Known (Aged now) m.quoteSnapshotEpochS m'.quoteSnapshotEpochS
  forecast : Known (Aged now) m.forecastEpochS m'.forecastEpochS
  depth : Known (fun depth depth' => depth' ≤ depth) m.visibleDepth m'.visibleDepth
  clock : Known (fun clock clock' => (now - clock).natAbs ≤ (now - clock').natAbs)
    m.exchangeClockEpochS m'.exchangeClockEpochS
  position : Known (fun held held' => held' ≤ held) m.openPosition m'.openPosition
  status : Known Eq m.exchangeStatus m'.exchangeStatus
  statusEpoch : Known (Aged now) m.exchangeStatusEpochS m'.exchangeStatusEpochS
  jurisdiction : Known Eq m.jurisdictionStatus m'.jurisdictionStatus
  product : Known Eq m.productType m'.productType

/-- Fee bounds that are higher, or not known. -/
structure FeeBounds.Worse (f f' : FeeBounds) : Prop where
  trading : Known (fun fee fee' => fee ≤ fee') f.maxTradingFee f'.maxTradingFee
  settlement : Known (fun fee fee' => fee ≤ fee') f.maxSettlementFee f'.maxSettlementFee

/-- The same limits over a higher floor and a larger safety buffer. -/
structure RiskLimits.Worse (l l' : RiskLimits) : Prop where
  floor : l.floor ≤ l'.floor
  buffer : l.roundingBuffer ≤ l'.roundingBuffer
  others : l' = { l with floor := l'.floor, roundingBuffer := l'.roundingBuffer }

/-- The same snapshot, taken earlier. -/
structure VerificationSnapshot.Older (now : ℤ) (s s' : VerificationSnapshot) : Prop where
  verifiedAt : Aged now s.verifiedAtEpochS s'.verifiedAtEpochS
  others : s' = { s with verifiedAtEpochS := s'.verifiedAtEpochS }

/-- **A context that is worse** in any number of data, and otherwise the same. -/
structure EvaluationContext.Worse (c c' : EvaluationContext) : Prop where
  mode : c'.mode = c.mode
  limits : c.limits.Worse c'.limits
  account : c.account.Worse c.limits c'.account
  market : c.market.Worse c.nowEpochS c'.market
  fees : c.fees.Worse c'.fees
  now : c'.nowEpochS = c.nowEpochS
  usedIntents : c.usedIntentIds ⊆ c'.usedIntentIds
  usedKeys : c.usedIdempotencyKeys ⊆ c'.usedIdempotencyKeys
  verification : Known (VerificationSnapshot.Older c.nowEpochS) c.verification c'.verification
  acknowledged : c'.acknowledgedIntentIds ⊆ c.acknowledgedIntentIds
  heartbeat : Known (Aged c.nowEpochS) c.pipelineHeartbeatEpochS c'.pipelineHeartbeatEpochS

/-- A context with limits of at least zero, and a worse one. -/
def Worsens (c c' : EvaluationContext) : Prop := c.limits.NonNegative ∧ c.Worse c'

/-- A check that passes in a context whenever it passes in a worse one. -/
def Check.Cautious (check : Check) : Prop :=
  ∀ intent, Caution.Cautious Worsens fun c => runCheck check intent c = none

/-! ## What worsens with a context -/

/-- A smaller base has the smaller share. -/
theorem ppmOf_mono {base base' ppm : ℤ} (hppm : 0 ≤ ppm) (h : base' ≤ base) :
    ppmOf base' ppm ≤ ppmOf base ppm := by
  unfold ppmOf
  rw [le_quotient_understate_iff (by decide)]
  have hfloor := (quotient_bounds (d := 1000000) (by decide) (base' * ppm)).1
  have hmul : base' * ppm ≤ base * ppm := Int.mul_le_mul_of_nonneg_right h hppm
  exact hfloor.trans hmul

/-- A share of at most the whole grows no faster than its base. -/
theorem ppmOf_growth {base base' ppm : ℤ} (hppm : ppm ≤ 1000000) (h : base ≤ base') :
    ppmOf base' ppm ≤ ppmOf base ppm + (base' - base) := by
  have hrest : ppmOf base' ppm - (base' - base) ≤ ppmOf base ppm := by
    unfold ppmOf
    rw [le_quotient_understate_iff (by decide)]
    have hfloor := (quotient_bounds (d := 1000000) (by decide) (base' * ppm)).1
    have hmul : (base' - base) * ppm ≤ (base' - base) * 1000000 :=
      Int.mul_le_mul_of_nonneg_left hppm (Int.sub_nonneg.mpr h)
    rw [Int.sub_mul] at hmul ⊢
    omega
  omega

/-- Whatever does not read the floor or the buffer reads the same of worse limits. -/
theorem RiskLimits.Worse.same {β : Type} {l l' : RiskLimits} (h : l.Worse l') (read : RiskLimits → β)
    (hread : ∀ (l : RiskLimits) floor buffer,
      read { l with floor := floor, roundingBuffer := buffer } = read l) : read l' = read l := by
  rw [h.others, hread]

section Worsened

variable {intent : OrderIntent} {c c' : EvaluationContext}

/-- Less cash, or more of it claimed, is less equity. -/
theorem EvaluationContext.Worse.equity (h : c.Worse c') :
    (equityOf c'.account).value ≤ (equityOf c.account).value := by
  have hcash := (IntUnit.le_iff _ _).mp h.account.cash
  have hpositions := (IntUnit.le_iff _ _).mp h.account.positions
  have hreserved := (IntUnit.le_iff _ _).mp h.account.reserved
  have hfees := (IntUnit.le_iff _ _).mp h.account.unresolvedFees
  have hbuffer := (IntUnit.le_iff _ _).mp h.account.buffer
  simp only [equityOf, worstCaseEquity, IntUnit.value_add, IntUnit.value_sub]
  omega

/-- A close that is provable in a worse context is provable. -/
theorem EvaluationContext.Worse.derisking (h : c.Worse c')
    (hclose : isDeriskingClose intent c' = true) : isDeriskingClose intent c = true := by
  rw [isDeriskingClose_iff] at hclose ⊢
  obtain ⟨haction, held', hheld', hsize⟩ := hclose
  obtain ⟨held, hheld, hle⟩ := h.market.position held' hheld'
  exact ⟨haction, held, hheld, Int.le_trans hsize hle⟩

/-- What has to be shown of the orders that are not exempt has to be shown of no fewer. -/
theorem EvaluationContext.Worse.not_derisking (h : c.Worse c')
    (hopen : isDeriskingClose intent c = false) : isDeriskingClose intent c' = false := by
  rw [Bool.eq_false_iff] at hopen ⊢
  exact fun hclose => hopen (h.derisking hclose)

/-- An order costs no more than in a worse context. -/
theorem EvaluationContext.Worse.orderCost (h : c.Worse c') {cost' : MoneyMicros}
    (hcost : orderCost intent c' = .ok cost') :
    ∃ cost, orderCost intent c = .ok cost ∧ cost.value ≤ cost'.value := by
  obtain ⟨trading', settlement', htrading', hsettlement', rfl⟩ := orderCost_ok.mp hcost
  obtain ⟨trading, htrading, htradingLe⟩ := h.fees.trading trading' htrading'
  obtain ⟨settlement, hsettlement, hsettlementLe⟩ := h.fees.settlement settlement' hsettlement'
  refine ⟨_, orderCost_ok.mpr ⟨trading, settlement, htrading, hsettlement, rfl⟩, ?_⟩
  have hbuffer := (IntUnit.le_iff _ _).mp h.limits.buffer
  have hfirst := (IntUnit.le_iff _ _).mp htradingLe
  have hsecond := (IntUnit.le_iff _ _).mp hsettlementLe
  simp only [worstCaseCost, IntUnit.value_add]
  omega

/-- An order within a cap in a worse context is within it. -/
theorem EvaluationContext.Worse.within (h : c.Worse c') {used used' cap : ℤ} (hused : used ≤ used')
    (hwithin : ∃ cost, Windbreak.orderCost intent c' = .ok cost ∧ used' + cost.value ≤ cap) :
    ∃ cost, Windbreak.orderCost intent c = .ok cost ∧ used + cost.value ≤ cap := by
  obtain ⟨cost', hcost', hle⟩ := hwithin
  obtain ⟨cost, hcost, hcheaper⟩ := h.orderCost hcost'
  exact ⟨cost, hcost, by omega⟩

end Worsened

/-- **A datum that is fresh in a worse context is fresh.** -/
theorem cautious_fresh {datum : EvaluationContext → Option ℤ} {ttl : RiskLimits → ℤ}
    (hdatum : ∀ c c' : EvaluationContext, c.Worse c' → Known (Aged c.nowEpochS) (datum c) (datum c'))
    (httl : ∀ l l' : RiskLimits, l.Worse l' → ttl l' = ttl l) :
    Caution.Cautious Worsens fun c =>
      ∃ t, datum c = some t ∧ t ≤ c.nowEpochS ∧ c.nowEpochS - t ≤ ttl c.limits := by
  refine Cautious.of_known (fun c c' h => hdatum c c' h.2) ?_
  rintro c c' t t' ⟨-, h⟩ haged ⟨hpast, hyoung⟩
  rw [h.now] at hpast hyoung
  rw [httl _ _ h.limits] at hyoung
  rcases haged with rfl | ⟨holder, hknown⟩
  · exact ⟨hpast, hyoung⟩
  · exact ⟨hknown, by omega⟩

/-! ## The checks -/

theorem quoteFreshness_cautious : quoteFreshness.Cautious := by
  intro intent
  simp only [quoteFreshness_iff]
  exact cautious_fresh (fun _ _ h => h.market.quote)
    fun _ _ h => h.same RiskLimits.quoteTtlSeconds fun _ _ _ => rfl

theorem forecastFreshness_cautious : forecastFreshness.Cautious := by
  intro intent
  simp only [forecastFreshness_iff]
  exact cautious_fresh (fun _ _ h => h.market.forecast)
    fun _ _ h => h.same RiskLimits.forecastTtlSeconds fun _ _ _ => rfl

theorem pipelineHeartbeatOk_cautious : pipelineHeartbeatOk.Cautious := by
  intro intent
  simp only [pipelineHeartbeatOk_iff]
  exact cautious_fresh (fun _ _ h => h.heartbeat)
    fun _ _ h => h.same RiskLimits.pipelineHeartbeatTtlSeconds fun _ _ _ => rfl

theorem exchangeStatusOk_cautious : exchangeStatusOk.Cautious := by
  intro intent
  simp only [exchangeStatusOk_iff]
  refine Cautious.and (fun c c' h hopen => h.2.market.status.same hopen) ?_
  exact cautious_fresh (fun _ _ h => h.market.statusEpoch)
    fun _ _ h => h.same RiskLimits.exchangeStatusTtlSeconds fun _ _ _ => rfl

theorem feeUpperBoundPresent_cautious : feeUpperBoundPresent.Cautious := by
  intro intent c c' h hpass
  rw [feeUpperBoundPresent_iff] at hpass ⊢
  obtain ⟨fee', hfee'⟩ := hpass
  obtain ⟨fee, hfee, -⟩ := h.2.fees.trading fee' hfee'
  exact ⟨fee, hfee⟩

theorem settlementFeeUpperBound_cautious : settlementFeeUpperBound.Cautious := by
  intro intent c c' h hpass
  rw [settlementFeeUpperBound_iff] at hpass ⊢
  obtain ⟨fee', hfee'⟩ := hpass
  obtain ⟨fee, hfee, -⟩ := h.2.fees.settlement fee' hfee'
  exact ⟨fee, hfee⟩

theorem jurisdictionProductEligibility_cautious : jurisdictionProductEligibility.Cautious := by
  intro intent
  simp only [jurisdictionProductEligibility_iff]
  exact Cautious.and (fun c c' h helig => h.2.market.jurisdiction.same helig)
    fun c c' h hproduct => h.2.market.product.same hproduct

theorem clockSkewLimit_cautious : clockSkewLimit.Cautious := by
  intro intent
  simp only [clockSkewLimit_iff]
  refine Cautious.of_known (fun c c' h => h.2.market.clock) ?_
  rintro c c' clock clock' ⟨-, h⟩ hcloser hskew
  rw [h.now, h.limits.same RiskLimits.clockSkewMaxSeconds fun _ _ _ => rfl] at hskew
  exact le_trans (Int.ofNat_le.mpr hcloser) hskew

theorem participationCapCompliance_cautious : participationCapCompliance.Cautious := by
  intro intent
  simp only [participationCapCompliance_iff]
  refine Cautious.of_known (fun c c' h => h.2.market.depth) ?_
  rintro c c' depth depth' ⟨hlimits, h⟩ hthinner hsize
  rw [h.limits.same RiskLimits.maxParticipationPpm fun _ _ _ => rfl] at hsize
  exact hsize.trans (ppmOf_mono hlimits.maxParticipationPpm hthinner)

theorem reconciliationCheck_cautious {name : String} {ok : VerificationSnapshot → Bool}
    {staleReason mismatchReason : String} {gateSemantics : Bool}
    (hok : ∀ (s : VerificationSnapshot) t, ok { s with verifiedAtEpochS := t } = ok s) :
    (reconciliationCheck name ok staleReason mismatchReason gateSemantics).Cautious := by
  intro intent
  simp only [reconciliationCheck_iff]
  refine Cautious.of_known (fun c c' h => h.2.verification) ?_
  rintro c c' s s' ⟨-, h⟩ holder ⟨⟨hpast, hyoung⟩, hclean, hsemantics⟩
  rw [h.now] at hpast hyoung
  rw [h.limits.same RiskLimits.verificationTtlSeconds fun _ _ _ => rfl] at hyoung
  rw [holder.others, hok] at hclean
  rw [h.mode, holder.others] at hsemantics
  refine ⟨?_, hclean, hsemantics⟩
  rcases holder.verifiedAt with hsame | ⟨hle, hknown⟩
  · rw [hsame] at hpast hyoung
    exact ⟨hpast, hyoung⟩
  · exact ⟨hknown, by omega⟩

theorem dailyLossLimit_cautious : dailyLossLimit.Cautious := by
  rintro intent c c' ⟨hlimits, h⟩ hpass
  rw [dailyLossLimit_iff] at hpass ⊢
  rw [h.limits.same RiskLimits.dailyLossLimitPctPpm fun _ _ _ => rfl] at hpass
  have hloss := (IntUnit.le_iff _ _).mp h.account.loss
  have hthreshold := ppmOf_mono hlimits.dailyLossLimitPctPpm
    ((IntUnit.le_iff _ _).mp h.account.startOfDay)
  omega

theorem trailingDrawdownLimit_cautious : trailingDrawdownLimit.Cautious := by
  rintro intent c c' ⟨-, h⟩ hpass
  rw [trailingDrawdownLimit_iff] at hpass ⊢
  rw [h.limits.same RiskLimits.maxDrawdownPctPpm fun _ _ _ => rfl] at hpass
  have hsampled := (IntUnit.le_iff _ _).mp h.account.sampled
  rcases h.account.mark with hmark | ⟨hmark, hwhole⟩
  · rw [hmark] at hpass
    omega
  · have hgrowth := ppmOf_growth hwhole ((IntUnit.le_iff _ _).mp hmark)
    omega

theorem instrumentWhitelist_cautious : instrumentWhitelist.Cautious := by
  rintro intent c c' ⟨-, h⟩ hpass
  rw [instrumentWhitelist_iff] at hpass ⊢
  rw [h.limits.same RiskLimits.instrumentWhitelist fun _ _ _ => rfl] at hpass
  exact hpass

theorem modePermissionCeiling_cautious : modePermissionCeiling.Cautious := by
  rintro intent c c' ⟨-, h⟩ hpass
  rw [modePermissionCeiling_iff] at hpass ⊢
  rw [h.mode, h.limits.same RiskLimits.microCap fun _ _ _ => rfl] at hpass
  refine ⟨hpass.1, fun hmicro hopen => ?_⟩
  have htotal := (IntUnit.le_iff _ _).mp h.account.total
  have hreserved := (IntUnit.le_iff _ _).mp h.account.reserved
  exact h.within (Int.add_le_add htotal hreserved) (hpass.2 hmicro (h.not_derisking hopen))

/-- The floor charges an order no more than in a worse context. -/
theorem floorCost_worse {intent : OrderIntent} {c c' : EvaluationContext} (h : c.Worse c')
    {trading settlement trading' settlement' charged' : MoneyMicros} (htrading : trading ≤ trading')
    (hsettlement : settlement ≤ settlement')
    (hcharged : floorCost intent c' trading' settlement' = some charged') :
    ∃ charged, floorCost intent c trading settlement = some charged ∧
      charged.value ≤ charged'.value := by
  have hbuffer := (IntUnit.le_iff _ _).mp h.limits.buffer
  have hfirst := (IntUnit.le_iff _ _).mp htrading
  have hsecond := (IntUnit.le_iff _ _).mp hsettlement
  unfold floorCost at hcharged ⊢
  by_cases hopen : intent.action ∈ openingActions
  · rw [if_pos hopen] at hcharged ⊢
    cases hcharged
    refine ⟨_, rfl, ?_⟩
    simp only [worstCaseCost, IntUnit.value_add]
    omega
  · rw [if_neg hopen] at hcharged ⊢
    by_cases hclose : intent.action ∈ closingActions
    · rw [if_pos hclose] at hcharged ⊢
      cases hcharged
      refine ⟨_, rfl, ?_⟩
      simp only [IntUnit.value_add]
      omega
    · rw [if_neg hclose] at hcharged
      cases hcharged

theorem floorInvariant_cautious : floorInvariant.Cautious := by
  rintro intent c c' ⟨-, h⟩ hpass
  rw [floorInvariant_iff] at hpass ⊢
  obtain ⟨trading', settlement', charged', htrading', hsettlement', hcharged', hfloor⟩ := hpass
  obtain ⟨trading, htrading, htradingLe⟩ := h.fees.trading trading' htrading'
  obtain ⟨settlement, hsettlement, hsettlementLe⟩ := h.fees.settlement settlement' hsettlement'
  obtain ⟨charged, hcharged, hcheaper⟩ :=
    floorCost_worse h htradingLe hsettlementLe hcharged'
  refine ⟨trading, settlement, charged, htrading, hsettlement, hcharged, ?_⟩
  have hraised := (IntUnit.le_iff _ _).mp h.limits.floor
  have hequity := h.equity
  omega

theorem concentrationLimits_cautious : concentrationLimits.Cautious := by
  rintro intent c c' ⟨hlimits, h⟩ hpass
  rw [concentrationLimits_iff] at hpass ⊢
  intro hopen
  obtain ⟨cost', hcost', hwithin⟩ := hpass (h.not_derisking hopen)
  obtain ⟨cost, hcost, hcheaper⟩ := h.orderCost hcost'
  refine ⟨cost, hcost, ?_⟩
  have hdimension : ∀ {exposure exposure' : MoneyMicros} {cap : ℤ}, 0 ≤ cap →
      exposure ≤ exposure' → exposure'.value + cost'.value ≤ ppmOf (equityOf c'.account).value cap →
      exposure.value + cost.value ≤ ppmOf (equityOf c.account).value cap := by
    intro exposure exposure' cap hcap hexposure hle
    have hshare := ppmOf_mono hcap h.equity
    have hgrown := (IntUnit.le_iff _ _).mp hexposure
    omega
  simp only [concentrationDimensions, List.forall_mem_cons,
    h.limits.same RiskLimits.maxPosMarketPctPpm fun _ _ _ => rfl,
    h.limits.same RiskLimits.maxPosEventPctPpm fun _ _ _ => rfl,
    h.limits.same RiskLimits.maxPosBucketPctPpm fun _ _ _ => rfl,
    h.limits.same RiskLimits.maxPosTotalPctPpm fun _ _ _ => rfl] at hwithin ⊢
  obtain ⟨hmarket, hevent, hbucket, htotal, -⟩ := hwithin
  exact ⟨hdimension hlimits.maxPosMarketPctPpm h.account.market hmarket,
    hdimension hlimits.maxPosEventPctPpm h.account.event hevent,
    hdimension hlimits.maxPosBucketPctPpm h.account.bucket hbucket,
    hdimension hlimits.maxPosTotalPctPpm h.account.total htotal,
    fun d hd => absurd hd List.not_mem_nil⟩

theorem velocityLimits_cautious : velocityLimits.Cautious := by
  rintro intent c c' ⟨-, h⟩ hpass
  rw [velocityLimits_iff] at hpass ⊢
  rw [h.limits.same RiskLimits.maxOrdersPerHour fun _ _ _ => rfl,
    h.limits.same RiskLimits.maxNotionalPerDay fun _ _ _ => rfl] at hpass
  have horders := h.account.orders
  have hnotional := (IntUnit.le_iff _ _).mp h.account.notional
  exact ⟨le_trans (Int.add_le_add_right horders 1) hpass.1,
    fun hopen => h.within hnotional (hpass.2 (h.not_derisking hopen))⟩

theorem priceBandCompliance_cautious : priceBandCompliance.Cautious := by
  rintro intent c c' ⟨-, h⟩ hpass
  rw [priceBandCompliance_iff] at hpass ⊢
  rw [h.limits.same RiskLimits.minOpenPrice fun _ _ _ => rfl,
    h.limits.same RiskLimits.maxOpenPrice fun _ _ _ => rfl] at hpass
  exact hpass

theorem humanAckSatisfied_cautious : humanAckSatisfied.Cautious := by
  rintro intent c c' ⟨-, h⟩ hpass
  rw [humanAckSatisfied_iff] at hpass ⊢
  rw [h.mode, h.limits.same RiskLimits.requireHumanAckAboveMicros fun _ _ _ => rfl] at hpass
  intro threshold hthreshold hlive
  obtain ⟨cost', hcost', hpaid⟩ := hpass threshold hthreshold hlive
  obtain ⟨cost, hcost, hcheaper⟩ := h.orderCost hcost'
  refine ⟨cost, hcost, hpaid.imp (fun hle => ?_) fun hacknowledged => ?_⟩
  · exact Int.le_trans hcheaper hle
  · exact h.acknowledged hacknowledged

theorem approvalTokenUniqueness_cautious : approvalTokenUniqueness.Cautious := by
  rintro intent c c' ⟨-, h⟩ hpass
  rw [approvalTokenUniqueness_iff] at hpass ⊢
  exact fun hused => hpass (h.usedIntents hused)

theorem idempotencyKeyUniqueness_cautious : idempotencyKeyUniqueness.Cautious := by
  rintro intent c c' ⟨-, h⟩ hpass
  rw [idempotencyKeyUniqueness_iff] at hpass ⊢
  exact fun hused => hpass (h.usedKeys hused)

theorem reduceOnlyProvable_cautious : reduceOnlyProvable.Cautious := by
  rintro intent c c' ⟨-, h⟩ hpass
  rw [reduceOnlyProvable_iff] at hpass ⊢
  exact hpass.imp id fun hclose => ⟨hclose.1, h.derisking hclose.2⟩

/-- **Every check is cautious.** -/
theorem defaultChecks_cautious : ∀ check ∈ defaultChecks, check.Cautious := by
  simp only [defaultChecks, List.forall_mem_cons]
  exact ⟨instrumentWhitelist_cautious, jurisdictionProductEligibility_cautious,
    modePermissionCeiling_cautious, floorInvariant_cautious,
    reconciliationCheck_cautious fun _ _ => rfl, reconciliationCheck_cautious fun _ _ => rfl,
    reconciliationCheck_cautious fun _ _ => rfl, feeUpperBoundPresent_cautious,
    settlementFeeUpperBound_cautious, concentrationLimits_cautious, dailyLossLimit_cautious,
    trailingDrawdownLimit_cautious, velocityLimits_cautious, quoteFreshness_cautious,
    forecastFreshness_cautious, priceBandCompliance_cautious, participationCapCompliance_cautious,
    humanAckSatisfied_cautious, approvalTokenUniqueness_cautious, idempotencyKeyUniqueness_cautious,
    clockSkewLimit_cautious, exchangeStatusOk_cautious, pipelineHeartbeatOk_cautious,
    reduceOnlyProvable_cautious, fun check hcheck => absurd hcheck List.not_mem_nil⟩

/-! ## The decision -/

/-- Whatever the checks, the decision is as cautious as they are. -/
theorem evaluateIntent_cautious {checks : List Check} (h : ∀ check ∈ checks, check.Cautious)
    (intent : OrderIntent) :
    Caution.Cautious Worsens fun c => (evaluateIntent intent c checks).vetoed = false := by
  simp only [evaluateIntent_vetoed_false]
  exact Cautious.all fun check hcheck => h check hcheck intent

/-- **A veto stands in every worse context.** -/
theorem veto_kept (intent : OrderIntent) {c c' : EvaluationContext} (hlimits : c.limits.NonNegative)
    (hworse : c.Worse c') (hveto : (evaluateIntent intent c defaultChecks).vetoed = true) :
    (evaluateIntent intent c' defaultChecks).vetoed = true := by
  by_contra happroved
  rw [Bool.not_eq_true] at happroved
  have hpassed : (evaluateIntent intent c defaultChecks).vetoed = false :=
    evaluateIntent_cautious defaultChecks_cautious intent c c' ⟨hlimits, hworse⟩ happroved
  rw [hveto] at hpassed
  exact absurd hpassed (by decide)

/-! ## Samples -/

theorem AccountState.Worse.refl (limits : RiskLimits) (a : AccountState) : a.Worse limits a where
  cash := Int.le_refl _
  positions := Int.le_refl _
  reserved := Int.le_refl _
  unresolvedFees := Int.le_refl _
  buffer := Int.le_refl _
  startOfDay := Int.le_refl _
  mark := .inl rfl
  sampled := Int.le_refl _
  loss := Int.le_refl _
  market := Int.le_refl _
  event := Int.le_refl _
  bucket := Int.le_refl _
  total := Int.le_refl _
  orders := Int.le_refl _
  notional := Int.le_refl _

/-- A context is no worse than it is. -/
theorem EvaluationContext.Worse.refl (c : EvaluationContext) : c.Worse c where
  mode := rfl
  limits := ⟨Int.le_refl _, Int.le_refl _, rfl⟩
  account := AccountState.Worse.refl c.limits c.account
  market :=
    { quote := Known.refl (Aged.refl _) _
      forecast := Known.refl (Aged.refl _) _
      depth := fun depth hdepth => ⟨depth, hdepth, Int.le_refl _⟩
      clock := fun clock hclock => ⟨clock, hclock, Nat.le_refl _⟩
      position := fun held hheld => ⟨held, hheld, Int.le_refl _⟩
      status := Known.refl Eq.refl _
      statusEpoch := Known.refl (Aged.refl _) _
      jurisdiction := Known.refl Eq.refl _
      product := Known.refl Eq.refl _ }
  fees := ⟨fun fee hfee => ⟨fee, hfee, Int.le_refl _⟩, fun fee hfee => ⟨fee, hfee, Int.le_refl _⟩⟩
  now := rfl
  usedIntents := Finset.Subset.refl _
  usedKeys := Finset.Subset.refl _
  verification := Known.refl (fun _ => ⟨Aged.refl _ _, rfl⟩) _
  acknowledged := Finset.Subset.refl _
  heartbeat := Known.refl (Aged.refl _) _

theorem sampleLimits_nonNegative : sampleLimits.NonNegative where
  floor := by decide
  microCap := by decide
  minOpenPrice := by decide
  maxOpenPrice := by decide
  maxParticipationPpm := by decide
  maxPosMarketPctPpm := by decide
  maxPosEventPctPpm := by decide
  maxPosBucketPctPpm := by decide
  maxPosTotalPctPpm := by decide
  dailyLossLimitPctPpm := by decide
  maxDrawdownPctPpm := by decide
  maxOrdersPerHour := by decide
  maxNotionalPerDay := by decide
  quoteTtlSeconds := by decide
  forecastTtlSeconds := by decide
  clockSkewMaxSeconds := by decide
  roundingBuffer := by decide
  verificationTtlSeconds := by decide
  requireHumanAckAboveMicros threshold h := by cases h
  exchangeStatusTtlSeconds := by decide
  pipelineHeartbeatTtlSeconds := by decide

/-- The hour is full. -/
def fullHour : EvaluationContext :=
  { sampleContext with account := { sampleAccount with ordersLastHour := 1000 } }

/-- The cash is gone too, and no one knows the quote. -/
def fullHourBroke : EvaluationContext :=
  { fullHour with
    account := { fullHour.account with exchangeVerifiedAvailableCash := ⟨0⟩ }
    market := { fullHour.market with quoteSnapshotEpochS := none } }

theorem fullHourBroke_worse : fullHour.Worse fullHourBroke :=
  { EvaluationContext.Worse.refl fullHour with
    account := { AccountState.Worse.refl fullHour.limits fullHour.account with cash := by decide }
    market := { (EvaluationContext.Worse.refl fullHour).market with quote := Known.unknown _ _ } }

theorem full_hour_vetoes :
    fullHour.limits.NonNegative ∧ fullHour.Worse fullHourBroke ∧
      (evaluateIntent sampleIntent fullHour defaultChecks).vetoed = true ∧
      (evaluateIntent sampleIntent fullHourBroke defaultChecks).vetoed = true :=
  ⟨sampleLimits_nonNegative, fullHourBroke_worse, by decide,
    veto_kept sampleIntent sampleLimits_nonNegative fullHourBroke_worse (by decide)⟩

/-- **Older is not always worse, nor is a higher mark**: a quote or a snapshot from the future
vetoes and an older one does not, and a limit above the whole of the mark outgrows the drawdown. -/
theorem older_quote_approves :
    (¬ ∀ (intent : OrderIntent) (c : EvaluationContext) (t t' : ℤ), c.limits.NonNegative → t' ≤ t →
      (evaluateIntent intent
        { c with market := { c.market with quoteSnapshotEpochS := some t } }
        defaultChecks).vetoed = true →
      (evaluateIntent intent
        { c with market := { c.market with quoteSnapshotEpochS := some t' } }
        defaultChecks).vetoed = true) ∧
    (¬ ∀ (intent : OrderIntent) (c : EvaluationContext) (s : VerificationSnapshot) (t t' : ℤ),
      c.limits.NonNegative → t' ≤ t →
      (evaluateIntent intent
        { c with verification := some { s with verifiedAtEpochS := t } }
        defaultChecks).vetoed = true →
      (evaluateIntent intent
        { c with verification := some { s with verifiedAtEpochS := t' } }
        defaultChecks).vetoed = true) ∧
    (¬ ∀ (intent : OrderIntent) (c : EvaluationContext) (mark mark' : MoneyMicros),
      c.limits.NonNegative → mark ≤ mark' →
      (evaluateIntent intent
        { c with account := { c.account with equityHighWaterMark := mark } }
        defaultChecks).vetoed = true →
      (evaluateIntent intent
        { c with account := { c.account with equityHighWaterMark := mark' } }
        defaultChecks).vetoed = true) := by
  refine ⟨fun h => ?_, fun h => ?_, fun h => ?_⟩
  · have hkept := h sampleIntent sampleContext 1700000001 1700000000 sampleLimits_nonNegative
      (by decide) (by decide)
    exact absurd hkept (by decide)
  · have hkept := h sampleIntent sampleContext ⟨.CLEAN, true, true, true, 0, ⟨0⟩, ⟨0⟩, true⟩
      1700000001 1700000000 sampleLimits_nonNegative (by decide) (by decide)
    exact absurd hkept (by decide)
  · let doubled : EvaluationContext :=
      { sampleContext with
        limits := { sampleLimits with maxDrawdownPctPpm := 2000000 }
        account := { sampleAccount with sampledEquity := ⟨0⟩ } }
    have hlimits : doubled.limits.NonNegative :=
      { sampleLimits_nonNegative with maxDrawdownPctPpm := by decide }
    have hkept := h sampleIntent doubled ⟨0⟩ ⟨1⟩ hlimits (by decide) (by decide)
    exact absurd hkept (by decide)

end Windbreak
