import Windbreak.RiskKernel.LedgerRuns
import Windbreak.RiskKernel.Passing
import Windbreak.Scheduler.LedgerReads

/-!
# An evaluation with evidence missing

A tick composes the context of an evaluation out of what it could observe.  What it could not is
handed over as `none`.  Some figures have no `none` of their own in the context: they become zeros,
and the zeros are safe only because the limit that reads them is made zero with them, or because the
figure beside them comes off the same fold.

* `buildLimits`, `accountFromVerification`, **`buildEvaluationContext`** — the composition.
* `MissingEvidence` — at least one observation is missing.
* **`missing_evidence_vetoes`** — then every opening intent is vetoed.
* `realizedLoss_nonneg` — the day's fold never hands over a negative loss.
-/

namespace Windbreak

/-! ## Configuration and evidence -/

/-- The capital section of the configuration. -/
structure CapitalSection where
  floorMicros : ℤ
  microCapMicros : ℤ
  deriving DecidableEq, Repr

/-- The fields of the risk section that the limits are mapped from. -/
structure RiskSection where
  minOpenPricePips : ℤ
  maxOpenPricePips : ℤ
  maxParticipationPpm : ℤ
  maxPosMarketPctPpm : ℤ
  maxPosEventPctPpm : ℤ
  maxPosBucketPctPpm : ℤ
  maxPosTotalPctPpm : ℤ
  dailyLossLimitPctPpm : ℤ
  maxDrawdownPctPpm : ℤ
  maxOrdersPerHour : ℤ
  maxNotionalPerDayMicros : ℤ
  quoteTtlSeconds : ℤ
  clockSkewMaxSeconds : ℤ
  requireHumanAckAboveMicros : Option ℤ
  deriving DecidableEq, Repr

/-- The configuration that a context is built from. -/
structure ContextConfig where
  capital : CapitalSection
  risk : RiskSection
  deriving DecidableEq, Repr

/-- What an evaluation reads of a market. -/
structure EvaluatedMarket where
  jurisdictionStatus : String
  marketType : String
  deriving DecidableEq, Repr

/-- The exposure figures of a tick. -/
structure ExposureProjection where
  marketExposure : MoneyMicros
  eventExposure : MoneyMicros
  bucketExposure : MoneyMicros
  totalExposure : MoneyMicros
  deriving DecidableEq, Repr

/-- What a tick hands over.  `none` is what it could not observe or establish. -/
structure TickEvidence where
  nowEpochS : ℤ
  verification : Option VerificationSnapshot
  instrumentWhitelist : Finset String
  market : Option EvaluatedMarket
  exchangeStatus : Option ExchangeTradingStatus
  exchangeStatusEpochS : Option ℤ
  pipelineHeartbeatEpochS : Option ℤ
  quoteSnapshotEpochS : Option ℤ
  exchangeClockEpochS : Option ℤ
  forecastEpochS : Option ℤ
  openPosition : Option ContractCentis
  equityStartOfDay : Option MoneyMicros
  realizedLossToday : Option MoneyMicros
  equityCurve : Option EquityCurve
  visibleDepth : Option ContractCentis
  exposure : Option ExposureProjection
  notionalToday : Option MoneyMicros
  ordersLastHour : Option ℤ

/-! ## The composition -/

/-- Seconds after which a forecast is stale. -/
def defaultForecastTtlSeconds : ℤ := 3600

/-- Seconds after which a verification is stale. -/
def defaultVerificationTtlSeconds : ℤ := 3600

/-- Seconds after which the exchange's status is stale. -/
def defaultExchangeStatusTtlSeconds : ℤ := 30

/-- Seconds after which the pipeline's heartbeat is stale. -/
def defaultPipelineHeartbeatTtlSeconds : ℤ := 60

/-- A configured cap, or zero while what it caps cannot be established. -/
def provableCap (provable : Bool) (cap : ℤ) : ℤ := if provable then cap else 0

/-- The limits of an evaluation. -/
def buildLimits (config : ContextConfig) (instrumentWhitelist : Finset String)
    (exposureProvable notionalProvable ordersProvable : Bool) : RiskLimits where
  floor := ⟨config.capital.floorMicros⟩
  instrumentWhitelist := instrumentWhitelist
  microCap := ⟨config.capital.microCapMicros⟩
  minOpenPrice := ⟨config.risk.minOpenPricePips⟩
  maxOpenPrice := ⟨config.risk.maxOpenPricePips⟩
  maxParticipationPpm := config.risk.maxParticipationPpm
  maxPosMarketPctPpm := provableCap exposureProvable config.risk.maxPosMarketPctPpm
  maxPosEventPctPpm := provableCap exposureProvable config.risk.maxPosEventPctPpm
  maxPosBucketPctPpm := provableCap exposureProvable config.risk.maxPosBucketPctPpm
  maxPosTotalPctPpm := provableCap exposureProvable config.risk.maxPosTotalPctPpm
  dailyLossLimitPctPpm := config.risk.dailyLossLimitPctPpm
  maxDrawdownPctPpm := config.risk.maxDrawdownPctPpm
  maxOrdersPerHour := provableCap ordersProvable config.risk.maxOrdersPerHour
  maxNotionalPerDay := ⟨provableCap notionalProvable config.risk.maxNotionalPerDayMicros⟩
  quoteTtlSeconds := config.risk.quoteTtlSeconds
  forecastTtlSeconds := defaultForecastTtlSeconds
  clockSkewMaxSeconds := config.risk.clockSkewMaxSeconds
  roundingBuffer := ⟨0⟩
  verificationTtlSeconds := defaultVerificationTtlSeconds
  requireHumanAckAboveMicros := config.risk.requireHumanAckAboveMicros.map fun raw => ⟨raw⟩
  exchangeStatusTtlSeconds := defaultExchangeStatusTtlSeconds
  pipelineHeartbeatTtlSeconds := defaultPipelineHeartbeatTtlSeconds

/-- The four concentration terms, or four zeros. -/
def exposureTerms (exposure : Option ExposureProjection) : ExposureProjection :=
  exposure.getD ⟨⟨0⟩, ⟨0⟩, ⟨0⟩, ⟨0⟩⟩

/-- The equity at the start of the day, its loss, the highest and the newest sample, each zero where
it is absent. -/
def equityTerms (equityStartOfDay realizedLossToday : Option MoneyMicros)
    (equityCurve : Option EquityCurve) : MoneyMicros × MoneyMicros × MoneyMicros × MoneyMicros :=
  let curve := equityCurve.getD ⟨0, 0⟩
  (equityStartOfDay.getD ⟨0⟩, realizedLossToday.getD ⟨0⟩, ⟨curve.highWaterMark⟩, ⟨curve.latest⟩)

/-- The orders of the hour and the notional of the day, each zero where it is absent. -/
def velocityTerms (ordersLastHour : Option ℤ) (notionalToday : Option MoneyMicros) :
    ℤ × MoneyMicros := (ordersLastHour.getD 0, notionalToday.getD ⟨0⟩)

/-- The account as an evaluation sees it. -/
def accountFromVerification (evidence : TickEvidence) : AccountState :=
  let (baseline, loss, mark, sampled) :=
    equityTerms evidence.equityStartOfDay evidence.realizedLossToday evidence.equityCurve
  let exposure := exposureTerms evidence.exposure
  let (routed, dayNotional) := velocityTerms evidence.ordersLastHour evidence.notionalToday
  { exchangeVerifiedAvailableCash :=
      (evidence.verification.map (·.exchangeVerifiedAvailableCash)).getD ⟨0⟩
    guaranteedTerminalValueOfPositions := ⟨0⟩
    pendingKernelReservations := ⟨0⟩
    unresolvedFeeUpperBounds := ⟨0⟩
    reconciliationUncertaintyBuffer := (evidence.verification.map (·.cashDrift)).getD ⟨0⟩
    equityStartOfDay := baseline
    equityHighWaterMark := mark
    sampledEquity := sampled
    realizedLossToday := loss
    marketExposure := exposure.marketExposure
    eventExposure := exposure.eventExposure
    bucketExposure := exposure.bucketExposure
    totalExposure := exposure.totalExposure
    ordersLastHour := routed
    notionalToday := dayNotional }

/-- The kernel's reading of a jurisdiction status. -/
def projectJurisdiction (status : Option String) : Option JurisdictionStatus :=
  if status = some "eligible" then some .ELIGIBLE
  else if status = some "ineligible" then some .INELIGIBLE
  else none

/-- The kernel's reading of a market type. -/
def projectProductType (marketType : Option String) : Option ProductType :=
  if marketType = some "fully_collateralized_binary" then some .FULLY_COLLATERALIZED_BINARY
  else none

/-- **The context of an evaluation.** -/
def buildEvaluationContext (config : ContextConfig) (evidence : TickEvidence) :
    EvaluationContext where
  mode := .PAPER
  limits := buildLimits config evidence.instrumentWhitelist evidence.exposure.isSome
    evidence.notionalToday.isSome evidence.ordersLastHour.isSome
  account := accountFromVerification evidence
  market :=
    { quoteSnapshotEpochS := evidence.quoteSnapshotEpochS
      forecastEpochS := evidence.forecastEpochS
      visibleDepth := evidence.visibleDepth
      exchangeClockEpochS := evidence.exchangeClockEpochS
      openPosition := evidence.openPosition
      exchangeStatus := evidence.exchangeStatus
      exchangeStatusEpochS := evidence.exchangeStatusEpochS
      jurisdictionStatus := projectJurisdiction (evidence.market.map (·.jurisdictionStatus))
      productType := projectProductType (evidence.market.map (·.marketType)) }
  fees := ⟨some ⟨0⟩, some ⟨0⟩⟩
  nowEpochS := evidence.nowEpochS
  usedIntentIds := ∅
  usedIdempotencyKeys := ∅
  verification := evidence.verification
  acknowledgedIntentIds := ∅
  pipelineHeartbeatEpochS := evidence.pipelineHeartbeatEpochS

/-! ## Missing evidence -/

/-- At least one of the observations is missing.  The start of the day counts as missing beside a
loss that is absent too or is not negative, as the one fold that both come from hands them over. -/
inductive MissingEvidence (evidence : TickEvidence) : Prop
  | verification (h : evidence.verification = none)
  | market (h : evidence.market = none)
  | exchangeStatus (h : evidence.exchangeStatus = none)
  | exchangeStatusEpoch (h : evidence.exchangeStatusEpochS = none)
  | heartbeat (h : evidence.pipelineHeartbeatEpochS = none)
  | quote (h : evidence.quoteSnapshotEpochS = none)
  | exchangeClock (h : evidence.exchangeClockEpochS = none)
  | forecast (h : evidence.forecastEpochS = none)
  | startOfDay (h : evidence.equityStartOfDay = none)
      (hloss : ∀ loss ∈ evidence.realizedLossToday, 0 ≤ loss.value)
  | equityCurve (h : evidence.equityCurve = none)
  | visibleDepth (h : evidence.visibleDepth = none)
  | exposure (h : evidence.exposure = none)
  | notional (h : evidence.notionalToday = none)
  | orders (h : evidence.ordersLastHour = none)

section

variable {config : ContextConfig} {evidence : TickEvidence} {intent : OrderIntent}

/-- An order costs its notional. -/
theorem orderCost_built {cost : MoneyMicros}
    (h : orderCost intent (buildEvaluationContext config evidence) = .ok cost) :
    cost.value = intent.price.value * intent.size.value := by
  obtain ⟨trading, settlement, htrading, hsettlement, rfl⟩ := orderCost_ok.mp h
  cases htrading
  cases hsettlement
  simp [worstCaseCost, buildEvaluationContext, buildLimits]

/-- A zeroed concentration cap admits no order. -/
theorem concentration_vetoes (hopening : intent.action ∈ openingActions)
    (hcost : 0 < intent.price.value * intent.size.value) (hmissing : evidence.exposure = none)
    (h : runCheck concentrationLimits intent (buildEvaluationContext config evidence) = none) :
    False := by
  obtain ⟨cost, hok, hwithin⟩ :=
    concentrationLimits_iff.mp h (isDeriskingClose_of_opening _ hopening)
  have hmarket := hwithin _ (List.mem_cons_self ..)
  have hvalue := orderCost_built hok
  simp [buildEvaluationContext, accountFromVerification, buildLimits, hmissing, exposureTerms,
    provableCap, ppmOf, quotient] at hmarket
  omega

/-- Zeros from one fold leave no loss to spare. -/
theorem dailyLoss_vetoes (hmissing : evidence.equityStartOfDay = none)
    (hloss : ∀ loss ∈ evidence.realizedLossToday, 0 ≤ loss.value)
    (h : runCheck dailyLossLimit intent (buildEvaluationContext config evidence) = none) :
    False := by
  have hbelow := dailyLossLimit_iff.mp h
  have hnonneg : 0 ≤ (evidence.realizedLossToday.getD ⟨0⟩).value := by
    cases hgiven : evidence.realizedLossToday with
    | none => exact Int.le_refl 0
    | some loss => exact hloss loss hgiven
  simp [buildEvaluationContext, accountFromVerification, buildLimits, hmissing, equityTerms, ppmOf,
    quotient] at hbelow
  omega

/-- **Missing evidence is never permissive.**  Whatever the configuration and the other evidence,
an opening order of positive price and size is vetoed. -/
theorem missing_evidence_vetoes (config : ContextConfig) (evidence : TickEvidence)
    (intent : OrderIntent) (hopening : intent.action ∈ openingActions)
    (hprice : 0 < intent.price.value) (hsize : 0 < intent.size.value)
    (hmissing : MissingEvidence evidence) :
    (evaluateIntent intent (buildEvaluationContext config evidence) defaultChecks).vetoed = true := by
  have hcost : 0 < intent.price.value * intent.size.value := Int.mul_pos hprice hsize
  by_contra hpassed
  have hchecks := evaluateIntent_vetoed_false.mp (Bool.not_eq_true _ ▸ hpassed)
  simp only [defaultChecks, List.forall_mem_cons] at hchecks
  obtain ⟨-, heligible, -, -, hbalance, -, -, -, -, hconcentration, hdailyLoss, hdrawdown, hvelocity,
    hquote, hforecast, -, hparticipation, -, -, -, hclock, hstatus, hheartbeat, -⟩ := hchecks
  cases hmissing with
  | verification h =>
      obtain ⟨snapshot, hsnapshot, -⟩ := reconciliationCheck_iff.mp hbalance
      cases h.symm.trans hsnapshot
  | market h =>
      have hknown := (jurisdictionProductEligibility_iff.mp heligible).1
      simp [buildEvaluationContext, h, projectJurisdiction] at hknown
  | exchangeStatus h => cases h.symm.trans (exchangeStatusOk_iff.mp hstatus).1
  | exchangeStatusEpoch h =>
      obtain ⟨-, epoch, hepoch, -⟩ := exchangeStatusOk_iff.mp hstatus
      cases h.symm.trans hepoch
  | heartbeat h =>
      obtain ⟨epoch, hepoch, -⟩ := pipelineHeartbeatOk_iff.mp hheartbeat
      cases h.symm.trans hepoch
  | quote h =>
      obtain ⟨epoch, hepoch, -⟩ := quoteFreshness_iff.mp hquote
      cases h.symm.trans hepoch
  | exchangeClock h =>
      obtain ⟨clock, hknown, -⟩ := clockSkewLimit_iff.mp hclock
      cases h.symm.trans hknown
  | forecast h =>
      obtain ⟨epoch, hepoch, -⟩ := forecastFreshness_iff.mp hforecast
      cases h.symm.trans hepoch
  | startOfDay h hloss => exact dailyLoss_vetoes h hloss hdailyLoss
  | equityCurve h =>
      have hbelow := trailingDrawdownLimit_iff.mp hdrawdown
      simp [buildEvaluationContext, accountFromVerification, buildLimits, h, equityTerms, ppmOf,
        quotient] at hbelow
  | visibleDepth h =>
      obtain ⟨depth, hdepth, -⟩ := participationCapCompliance_iff.mp hparticipation
      cases h.symm.trans hdepth
  | exposure h => exact concentration_vetoes hopening hcost h hconcentration
  | notional h =>
      obtain ⟨cost, hok, hday⟩ :=
        (velocityLimits_iff.mp hvelocity).2 (isDeriskingClose_of_opening _ hopening)
      have hvalue := orderCost_built hok
      simp [buildEvaluationContext, accountFromVerification, buildLimits, h, velocityTerms,
        provableCap] at hday
      omega
  | orders h =>
      have hhour := (velocityLimits_iff.mp hvelocity).1
      simp [buildEvaluationContext, accountFromVerification, buildLimits, h, velocityTerms,
        provableCap] at hhour

end

/-! ## What the day's fold hands over -/

/-- The loss of the day, down to its trough. -/
def readRealizedLossToday (store : ReadStore) (nowEpochS : ℤ) : Option MoneyMicros :=
  (readDayEquity store nowEpochS).map fun day => ⟨day.baseline - day.trough⟩

/-- A day's trough is not above its baseline, and no sample raises it. -/
theorem dayEquityStep_trough {today : ℤ} {state : Option (ℤ × DayEquity)} {sample : EquitySample}
    (h : ∀ day ∈ state, day.2.trough ≤ day.2.baseline) :
    ∀ day ∈ dayEquityStep today state sample, day.2.trough ≤ day.2.baseline := by
  unfold dayEquityStep
  split_ifs with hday
  · exact h
  · cases state with
    | none =>
        rintro day ⟨⟩
        exact le_rfl
    | some seen =>
        have hseen := h seen rfl
        dsimp only
        split_ifs
        · rintro day ⟨⟩
          exact min_le_right _ _
        · rintro day ⟨⟩
          exact (min_le_left _ _).trans hseen

theorem foldDayEquity_trough (samples : List EquitySample) (today : ℤ) :
    ∀ day ∈ foldDayEquity samples today, day.trough ≤ day.baseline := by
  have hfold : ∀ state : Option (ℤ × DayEquity), (∀ day ∈ state, day.2.trough ≤ day.2.baseline) →
      ∀ day ∈ samples.foldl (dayEquityStep today) state, day.2.trough ≤ day.2.baseline := by
    induction samples with
    | nil => exact fun state h => h
    | cons sample samples ih => exact fun state h => ih _ (dayEquityStep_trough h)
  intro day hday
  obtain ⟨folded, hfolded, rfl⟩ := Option.map_eq_some_iff.mp hday
  exact hfold none (fun day hnone => by cases hnone) folded hfolded

/-- **The day's fold never hands over a negative loss.** -/
theorem realizedLoss_nonneg (store : ReadStore) (nowEpochS : ℤ) :
    ∀ loss ∈ readRealizedLossToday store nowEpochS, 0 ≤ loss.value := by
  intro loss hloss
  obtain ⟨day, hday, rfl⟩ := Option.map_eq_some_iff.mp hloss
  have htrough : day.trough ≤ day.baseline := by
    unfold readDayEquity at hday
    split_ifs at hday
    · exact foldDayEquity_trough _ _ day hday
    · exact foldDayEquity_trough _ _ day hday
  exact Int.sub_nonneg.mpr htrough

/-! ## Samples -/

/-- A configuration that caps nothing. -/
def openConfig : ContextConfig where
  capital := ⟨0, 0⟩
  risk :=
    { minOpenPricePips := 0
      maxOpenPricePips := 10000
      maxParticipationPpm := 1000000
      maxPosMarketPctPpm := 1000000
      maxPosEventPctPpm := 1000000
      maxPosBucketPctPpm := 1000000
      maxPosTotalPctPpm := 1000000
      dailyLossLimitPctPpm := 1000000
      maxDrawdownPctPpm := 1000000
      maxOrdersPerHour := 10
      maxNotionalPerDayMicros := 1000000000
      quoteTtlSeconds := 10
      clockSkewMaxSeconds := 2
      requireHumanAckAboveMicros := none }

/-- A tick that observed everything but the start of the day, beside a negative loss. -/
def negativeLossTick : TickEvidence where
  nowEpochS := 0
  verification := some
    { outcome := .CLEAN
      balanceOk := true
      positionOk := true
      openOrderOk := true
      verifiedAtEpochS := 0
      exchangeVerifiedAvailableCash := ⟨1000000000⟩
      cashDrift := ⟨0⟩
      semanticsFullyKnown := true }
  instrumentWhitelist := {"PRES-2028-DEM"}
  market := some ⟨"eligible", "fully_collateralized_binary"⟩
  exchangeStatus := some .OPEN
  exchangeStatusEpochS := some 0
  pipelineHeartbeatEpochS := some 0
  quoteSnapshotEpochS := some 0
  exchangeClockEpochS := some 0
  forecastEpochS := some 0
  openPosition := none
  equityStartOfDay := none
  realizedLossToday := some ⟨-1⟩
  equityCurve := some ⟨1000000000, 1000000000⟩
  visibleDepth := some ⟨10000000⟩
  exposure := some ⟨⟨0⟩, ⟨0⟩, ⟨0⟩, ⟨0⟩⟩
  notionalToday := some ⟨0⟩
  ordersLastHour := some 0

/-- **Beside a negative loss, an unknown start of the day is permissive.** -/
theorem negative_loss_admitted :
    negativeLossTick.equityStartOfDay = none ∧ sampleIntent.action ∈ openingActions ∧
      0 < sampleIntent.price.value ∧ 0 < sampleIntent.size.value ∧
      (evaluateIntent sampleIntent (buildEvaluationContext openConfig negativeLossTick)
        defaultChecks).vetoed = false := by
  decide

theorem missing_evidence_vetoes_noExposure :
    (evaluateIntent sampleIntent (buildEvaluationContext openConfig
      { negativeLossTick with
        equityStartOfDay := some ⟨1000000000⟩
        exposure := none }) defaultChecks).vetoed = true :=
  missing_evidence_vetoes _ _ _ (by decide) (by decide) (by decide) (.exposure rfl)

end Windbreak
