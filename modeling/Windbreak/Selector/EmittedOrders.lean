import Windbreak.Selector.Select

/-!
# What an emitted order respects

Three results on the orders that a selection answers, over a book whose asks are best first.

* **`emitted_respects_caps`** — every cap holds of the notional at the limit price and of what the
  size costs on the book, and the size is within its share of the depth.  On a book listed otherwise
  they need not hold (`unsorted_order_exceeds_caps`).
* **`emitted_keeps_conditions`** — which conditions of entry still hold at the size and the limit of
  the order.  The hurdle and parts of the interval and the band are asked of the probe alone:
  `deep_order_leaves_conditions` is a crossing order, and a resting one, that no longer meet them.
* **`emitted_within_probe_stake`** — the size is a stake on the probe's edge, which a deep fill may
  exceed (`deep_order_exceeds_kelly`).
-/

namespace Windbreak

/-! ## Prices on a ladder -/

/-- No level is dearer than the last. -/
theorem BestFirst.le_getLast {asks : List OrderBookLevel} (hbest : BestFirst asks)
    {deepest level : OrderBookLevel} (hlast : asks.getLast? = some deepest) (hmem : level ∈ asks) :
    level.price.value ≤ deepest.price.value := by
  obtain ⟨before, rfl⟩ := List.getLast?_eq_some_iff.mp hlast
  rcases List.mem_append.mp hmem with hbefore | hdeepest
  · exact (List.pairwise_append.mp hbest.rising).2.2 level hbefore deepest
      (List.mem_singleton_self deepest)
  · rw [List.mem_singleton.mp hdeepest]

/-- The depth through the level at which a fill completes covers the fill, and it rests at the
marginal price or better. -/
theorem Walks.depth_bounds {asks : List OrderBookLevel} {size cost : ℤ} {price : PricePips}
    (h : Walks asks size cost price) (hbest : BestFirst asks) (cumulative : ℤ) :
    cumulative + size ≤ depthThroughFill asks (cumulative + size) cumulative ∧
      depthThroughFill asks (cumulative + size) cumulative ≤
        cumulative + askDepth (asks.filter fun level => level.price ≤ price) := by
  induction h generalizing cumulative with
  | marginal level rest size hsize hfit =>
    have hrest : 0 ≤ askDepth (rest.filter fun other => other.price ≤ level.price) :=
      askDepth_nonneg fun other hother => hbest.tail.quantity_nonneg other
        (List.mem_of_mem_filter hother)
    rw [depthThroughFill_cons, if_pos (by omega),
      List.filter_cons_of_pos (by simp [IntUnit.le_iff]), askDepth, List.map_cons, List.sum_cons]
    rw [askDepth] at hrest
    constructor <;> omega
  | deeper level rest size cost price hsize hshort hrest ih =>
    have hdeeper := ih hbest.tail (cumulative + level.quantity.value)
    rw [show cumulative + level.quantity.value + (size - level.quantity.value) = cumulative + size by
      omega] at hdeeper
    rw [depthThroughFill_cons, if_neg (by omega),
      List.filter_cons_of_pos (by simpa [IntUnit.le_iff] using hrest.head_le hbest), askDepth,
      List.map_cons, List.sum_cons]
    rw [askDepth] at hdeeper
    constructor <;> omega

/-! ## The fills of an emission -/

/-- An intent is sized as it was clipped, and priced by its style. -/
theorem buildIntent_ok {inputs : SelectorInputs} {figures : EdgeFigures} {size : ContractCentis}
    {style : ExecutionStyleDecision} {intent : SelectorOrderIntent}
    (h : buildIntent inputs figures size style = .ok intent) :
    intent.size = size ∧ intent.executionStyle = style.style ∧
      (style = .cross ∧ intent.price = figures.marginalPricePips ∨
        ∃ ttl ticks, style = .rest intent.price ttl ticks) := by
  obtain ⟨⟨price, maxNotional⟩, hprice, h⟩ := Effects.except_bind_ok.mp h
  cases h
  refine ⟨rfl, rfl, ?_⟩
  cases style with
  | cross =>
    obtain ⟨fee, -, hprice⟩ := Effects.except_bind_ok.mp hprice
    cases hprice
    exact Or.inl ⟨rfl, rfl⟩
  | rest restPrice ttl ticks =>
    obtain ⟨fee, -, hprice⟩ := Effects.except_bind_ok.mp hprice
    cases hprice
    exact Or.inr ⟨ttl, ticks, rfl⟩

/-- A positive average price is that of a positive cost. -/
theorem cost_pos_of_averagePpm {cost size : ℤ} (hsize : 0 < size) (h : 0 < averagePpm cost size) :
    0 < cost := by
  by_contra hcost
  have hnone : averagePpm cost size ≤ 0 := by
    rw [averagePpm, quotient_overstate_le_iff hsize, ppmPerPip]
    omega
  omega

namespace Emission

variable {inputs : SelectorInputs} {intent : SelectorOrderIntent}

theorem size_eq (e : Emission inputs intent) : intent.size = e.clip.size :=
  (buildIntent_ok e.built).1

/-- The fill of the emitted size. -/
theorem final_walks (e : Emission inputs intent) :
    Walks inputs.orderBook.yesAsks intent.size.value e.final.executableCostMicros.value
      e.final.marginalPricePips := by
  obtain ⟨cost, marginal, fee, hwalks, -, -, hfigures⟩ := computeExecutableEdge_figures.mp e.priced
  rw [e.size_eq, hfigures]
  exact hwalks

/-- The caps are measured at the deepest price. -/
theorem deepest (e : Emission inputs intent) :
    ∃ deepest, inputs.orderBook.yesAsks.getLast? = some deepest ∧
      e.reference = deepest.price.value * ppmPerPip := by
  have h := e.referred
  unfold capReferencePricePpm at h
  cases hlast : inputs.orderBook.yesAsks.getLast? with
  | none =>
    rw [hlast] at h
    cases h
  | some deepest =>
    rw [hlast] at h
    exact ⟨deepest, rfl, (Except.ok.inj h).symm⟩

/-- The probe priced, so the deepest price is positive. -/
theorem deepest_pos (e : Emission inputs intent) (hbest : BestFirst inputs.orderBook.yesAsks)
    {deepest : OrderBookLevel} (hlast : inputs.orderBook.yesAsks.getLast? = some deepest) :
    0 < deepest.price.value := by
  obtain ⟨cost, marginal, fee, hwalks, ⟨hprice, -⟩, -, -⟩ :=
    computeExecutableEdge_figures.mp e.probed
  have hcost := cost_pos_of_averagePpm hwalks.size_pos hprice
  have hle := hwalks.cost_le hbest
  obtain ⟨level, hlevel, hmarginal⟩ := hwalks.price_mem
  have hdeep := hbest.le_getLast hlast hlevel
  rw [hmarginal] at hdeep
  have hsize : probeSizeCentis.value = 100 := rfl
  rw [hsize] at hle
  omega

/-- The limit price is no dearer than the deepest ask. -/
theorem price_le_deepest (e : Emission inputs intent) (hbest : BestFirst inputs.orderBook.yesAsks)
    {deepest : OrderBookLevel} (hlast : inputs.orderBook.yesAsks.getLast? = some deepest) :
    intent.price.value ≤ deepest.price.value := by
  obtain ⟨-, -, ⟨-, hprice⟩ | ⟨ttl, ticks, hrest⟩⟩ := buildIntent_ok e.built
  · obtain ⟨level, hlevel, hmarginal⟩ := e.final_walks.price_mem
    rw [hprice, ← hmarginal]
    exact hbest.le_getLast hlast hlevel
  · have hstyled := e.styled
    rw [hrest] at hstyled
    obtain ⟨bestBid, bids, bestAsk, asks, -, hasks, hprice, hspread⟩ :=
      (decideExecutionStyle_rests hstyled).inside
    have hbestAsk : bestAsk.price.value ≤ deepest.price.value :=
      hbest.le_getLast hlast (by rw [hasks]; exact List.mem_cons_self ..)
    unfold restImprovementPips at hprice
    unfold wideSpreadMinPips at hspread
    omega

/-- What the size costs on the book is no more than it costs at the deepest price. -/
theorem cost_le_deepest (e : Emission inputs intent) (hbest : BestFirst inputs.orderBook.yesAsks)
    {deepest : OrderBookLevel} (hlast : inputs.orderBook.yesAsks.getLast? = some deepest) :
    e.final.executableCostMicros.value ≤ deepest.price.value * intent.size.value := by
  obtain ⟨level, hlevel, hmarginal⟩ := e.final_walks.price_mem
  have hdeep := hbest.le_getLast hlast hlevel
  rw [hmarginal] at hdeep
  exact (e.final_walks.cost_le hbest).trans
    (mul_le_mul_of_nonneg_right hdeep e.final_walks.size_pos.le)

/-- The emitted size is the clipped one. -/
theorem clipped_spec (e : Emission inputs intent) :
    Clipped intent.size.value e.raw.value e.reference inputs.orderBook.yesAsks inputs.riskConfig
      (bucketedPositions inputs) (bucketCapName inputs) := by
  rw [e.size_eq]
  exact clipToCaps_spec e.clipped e.survives

end Emission

/-! ## An order that walks deep -/

def weatherTag : CorrelationTag := ⟨"weather", .human, by decide⟩

theorem certain_ppm : (0 : ℤ) ≤ 1000000 ∧ (1000000 : ℤ) ≤ 1000000 := by decide

theorem even_ppm : (0 : ℤ) ≤ 500000 ∧ (500000 : ℤ) ≤ 1000000 := by decide

theorem free_named : "free" ≠ "" := by decide

theorem live_unflagged : true = true → false = false := fun _ => rfl

/-- One contract at five cents, and depth behind it at ninety-six. -/
def deepInputs : SelectorInputs where
  forecast :=
    { forecastId := "forecast-1"
      marketTicker := "RAIN"
      probabilityPpm := 1000000
      ciLowPpm := 500000
      ciHighPpm := 1000000
      voteDispersionPpm := 0
      citations := ["report"]
      createdAt := 0
      forecastHorizonHours := 8760
      coherenceFlag := false
      eligibleForLive := true
      probability_ppm := certain_ppm
      ci_low_ppm := even_ppm
      ci_high_ppm := certain_ppm
      live_coherent := live_unflagged }
  calibrationMapVersion := "identity"
  orderBook := ⟨"RAIN", [], [⟨⟨500⟩, ⟨100⟩⟩, ⟨⟨9600⟩, ⟨1000000⟩⟩], 0⟩
  feeModel := ⟨{ freeFees with scheduleId := "free", named := free_named }, 0⟩
  perContractBufferPpm := 0
  positions := ⟨⟨10000000000⟩, ⟨100000000⟩, ⟨5000000000⟩, ⟨0⟩, ⟨0⟩, ⟨0⟩, ⟨0⟩, ⟨0⟩⟩
  riskConfig := {}
  correlationTags := [weatherTag]
  bucketPeers := [⟨"SNOW", ⟨1000000⟩, [weatherTag]⟩]

/-- The order it answers: two hundred contracts at ninety-six cents. -/
def deepIntent : SelectorOrderIntent where
  intentId := "forecast-1" ++ ":yes:buy:sized"
  marketTicker := "RAIN"
  price := ⟨9600⟩
  size := ⟨20000⟩
  maxNotional := ⟨191090000⟩
  impliedProbability := ⟨1000000⟩
  executionStyle := .cross

theorem deepInputs_bestFirst : BestFirst deepInputs.orderBook.yesAsks where
  rising := by decide
  quantity_nonneg := by decide

theorem deepInputs_answers :
    ∃ answer, select deepInputs = .ok answer ∧ deepIntent ∈ answer.intents :=
  ⟨_, rfl, by decide +kernel⟩

/-! ## Every cap holds -/

/-- A notional leaves every ceiling respected, those of all the market's buckets among them. -/
structure WithinCaps (inputs : SelectorInputs) (notional : ℤ) : Prop where
  market : notional + inputs.positions.marketExposure.value ≤
    pctCeilingMicros inputs.positions.equityMicros.value inputs.riskConfig.maxPosMarketPctPpm
  event : notional + inputs.positions.eventExposure.value ≤
    pctCeilingMicros inputs.positions.equityMicros.value inputs.riskConfig.maxPosEventPctPpm
  buckets : ∀ bucketId ∈ effectiveBuckets inputs.correlationTags,
    notional + bucketTotal inputs.bucketPeers bucketId ≤
      pctCeilingMicros inputs.positions.equityMicros.value inputs.riskConfig.maxPosBucketPctPpm
  total : notional + inputs.positions.totalExposure.value ≤
    inputs.positions.totalDeployCapMicros.value
  daily : notional + inputs.positions.notionalToday.value ≤
    inputs.riskConfig.maxNotionalPerDayMicros

/-- What fits the headroom at the deepest price leaves every ceiling respected. -/
theorem withinCaps_of_headroom {inputs : SelectorInputs} {largest notional : ℤ}
    (hpositive : 0 < largest) (hnotional : notional ≤ largest)
    (hroom : ∀ cap ∈ notionalCeilings (bucketedPositions inputs) inputs.riskConfig
      (bucketCapName inputs), largest ≤ max 0 (cap.2.1 - cap.2.2)) : WithinCaps inputs notional := by
  have hceiling : ∀ cap ∈ notionalCeilings (bucketedPositions inputs) inputs.riskConfig
      (bucketCapName inputs), notional + cap.2.2 ≤ cap.2.1 := by
    intro cap hcap
    have hfits := hroom cap hcap
    omega
  simp only [notionalCeilings, bucketedPositions, List.forall_mem_cons, List.not_mem_nil,
    false_implies, implies_true, and_true] at hceiling
  obtain ⟨hmarket, hevent, hbucket, htotal, hdaily⟩ := hceiling
  exact
    { market := hmarket
      event := hevent
      buckets := fun bucketId hmember => by
        have hlargest := @bucketTotal_le_aggregate inputs.bucketPeers _ _ hmember
        omega
      total := htotal
      daily := hdaily }

/-- **An emitted order respects every cap**: the notional at its limit price and what its size costs
on the book fit under every ceiling, its size is a positive number of lots, and it takes no more
than its share of the depth at its marginal price or better. -/
theorem emitted_respects_caps {inputs : SelectorInputs} {answer : SelectorDecision}
    {intent : SelectorOrderIntent} (hbest : BestFirst inputs.orderBook.yesAsks)
    (hrun : select inputs = .ok answer) (hintent : intent ∈ answer.intents) :
    WithinCaps inputs (intent.price.value * intent.size.value) ∧
      (0 < intent.size.value ∧ exchangeMinOrderCentis ∣ intent.size.value) ∧
      ∃ cost marginal,
        walkBookCost inputs.orderBook.yesAsks intent.size.value = some (cost, marginal) ∧
        WithinCaps inputs cost ∧
        intent.size.value ≤ participationShare inputs.riskConfig.maxParticipationPpm
          (askDepth (inputs.orderBook.yesAsks.filter fun level => level.price ≤ marginal)) := by
  obtain ⟨e⟩ := select_emits hrun hintent
  obtain ⟨deepest, hlast, hreference⟩ := e.deepest
  have hclipped := e.clipped_spec
  have hsize := hclipped.size_pos
  have hdeepest := e.deepest_pos hbest hlast
  have hreferred : 0 < e.reference := by
    rw [hreference]
    exact mul_pos hdeepest (by decide)
  have hlargest : 0 < deepest.price.value * intent.size.value := mul_pos hdeepest hsize
  have hroom : ∀ cap ∈ notionalCeilings (bucketedPositions inputs) inputs.riskConfig
      (bucketCapName inputs),
      deepest.price.value * intent.size.value ≤ max 0 (cap.2.1 - cap.2.2) := by
    intro cap hcap
    have hfits := hclipped.headroom hreferred cap hcap
    rw [hreference, ppmPerPip, centisPerContract, ← mul_assoc,
      mul_comm intent.size.value] at hfits
    exact le_of_mul_le_mul_right hfits (by decide)
  refine ⟨withinCaps_of_headroom hlargest (mul_le_mul_of_nonneg_right
      (e.price_le_deepest hbest hlast) hsize.le) hroom, ⟨hsize, hclipped.lots⟩,
    _, _, e.final_walks.walkBookCost_eq,
    withinCaps_of_headroom hlargest (e.cost_le_deepest hbest hlast) hroom, ?_⟩
  -- the share of the depth through the marginal level is one of the depth at its price or better
  have hdepth := e.final_walks.depth_bounds hbest 0
  rw [zero_add, zero_add] at hdepth
  have hshare := hclipped.share
  have hppm : 0 ≤ inputs.riskConfig.maxParticipationPpm := by
    by_contra hneg
    have htaken := (le_quotient_understate_iff ppmOne_pos).mp hshare
    have hnone : inputs.riskConfig.maxParticipationPpm *
        depthThroughFill inputs.orderBook.yesAsks intent.size.value 0 ≤ 0 :=
      mul_nonpos_of_nonpos_of_nonneg (not_le.mp hneg).le (hsize.le.trans hdepth.1)
    have htaking : 0 < intent.size.value * ppmOne := mul_pos hsize ppmOne_pos
    omega
  exact hshare.trans (participationShare_mono hppm hdepth.2)

theorem deep_order_respects_caps :
    (∃ answer, select deepInputs = .ok answer ∧ deepIntent ∈ answer.intents) ∧
      WithinCaps deepInputs (9600 * 20000) ∧
      ∃ cost marginal, walkBookCost deepInputs.orderBook.yesAsks 20000 = some (cost, marginal) ∧
        WithinCaps deepInputs cost := by
  obtain ⟨answer, hrun, hintent⟩ := deepInputs_answers
  obtain ⟨hlimit, -, cost, marginal, hwalk, hcost, -⟩ :=
    emitted_respects_caps deepInputs_bestFirst hrun hintent
  exact ⟨⟨answer, hrun, hintent⟩, hlimit, cost, marginal, hwalk, hcost⟩

/-- The dearest ask is listed first, a cheap one behind it. -/
def unsortedInputs : SelectorInputs :=
  { deepInputs with
    orderBook := ⟨"RAIN", [], [⟨⟨4000⟩, ⟨2000000⟩⟩, ⟨⟨100⟩, ⟨100⟩⟩], 0⟩
    positions := { deepInputs.positions with aboveFloorCapitalMicros := ⟨10000000000⟩ } }

def unsortedIntent : SelectorOrderIntent :=
  { deepIntent with price := ⟨4000⟩, size := ⟨250000⟩, maxNotional := ⟨1000000000⟩ }

/-- A level of negative size stands behind the best one. -/
def negativeInputs : SelectorInputs :=
  { deepInputs with
    orderBook :=
      ⟨"RAIN", [], [⟨⟨4000⟩, ⟨1000⟩⟩, ⟨⟨4000⟩, ⟨-900⟩⟩, ⟨⟨5000⟩, ⟨100000⟩⟩], 0⟩
    positions := { deepInputs.positions with aboveFloorCapitalMicros := ⟨32000000⟩ } }

def negativelyPriced : SelectorOrderIntent :=
  { deepIntent with price := ⟨4000⟩, size := ⟨200⟩, maxNotional := ⟨800000⟩ }

/-- The caps are measured at the price that is listed last, so on the unsorted book the order exceeds
the market's cap; behind a negative level it takes more than its share of the depth. -/
theorem unsorted_order_exceeds_caps :
    ((∃ answer, select unsortedInputs = .ok answer ∧ unsortedIntent ∈ answer.intents) ∧
      ¬ WithinCaps unsortedInputs (unsortedIntent.price.value * unsortedIntent.size.value)) ∧
    (∃ answer, select negativeInputs = .ok answer ∧ negativelyPriced ∈ answer.intents) ∧
      participationShare negativeInputs.riskConfig.maxParticipationPpm
        (askDepth (negativeInputs.orderBook.yesAsks.filter fun level => level.price ≤ ⟨4000⟩)) <
          negativelyPriced.size.value := by
  refine ⟨⟨⟨_, rfl, by decide +kernel⟩, fun hcaps => ?_⟩, ⟨_, rfl, by decide +kernel⟩,
    by decide +kernel⟩
  exact absurd hcaps.market (by decide +kernel)

/-! ## The stake of an emitted order -/

/-- **An emitted size is a stake on the probe's edge**: it is at most the Kelly size at the probe's
figures, and at the probe's price it costs at most the capital times the edge over the odds.  With a
fraction of at most one and no negative buffer that is at most the capital.  At its own size the
order still clears the floor of the net edge. -/
theorem emitted_within_probe_stake {inputs : SelectorInputs} {answer : SelectorDecision}
    {intent : SelectorOrderIntent} (hrun : select inputs = .ok answer)
    (hintent : intent ∈ answer.intents) :
    ∃ probe raw final, edgeAt inputs probeSizeCentis = .ok (.figures probe) ∧
      kellySizeAt inputs probe = .ok raw ∧ intent.size.value ≤ raw.value ∧
      (0 ≤ inputs.riskConfig.kellyFractionPpm → inputs.riskConfig.kellyFractionPpm ≤ ppmOne →
        intent.size.value * probe.executablePricePpm * (ppmOne - probe.executablePricePpm) ≤
            inputs.positions.aboveFloorCapitalMicros.value * probe.netEdgePpm *
              centisPerContract ∧
          (0 ≤ inputs.perContractBufferPpm →
            intent.size.value * probe.executablePricePpm ≤
              inputs.positions.aboveFloorCapitalMicros.value * centisPerContract)) ∧
      edgeAt inputs intent.size = .ok (.figures final) ∧
      inputs.riskConfig.minNetEdgePpm ≤ final.netEdgePpm := by
  obtain ⟨e⟩ := select_emits hrun hintent
  have hclipped := e.clipped_spec
  have hpriced := e.priced
  rw [← e.size_eq] at hpriced
  refine ⟨e.probe, e.raw, e.final, e.probed, e.sized, hclipped.le_raw, ?_, hpriced, e.clears⟩
  intro hfraction hone
  obtain ⟨scale, hscale, hkelly⟩ := Effects.except_bind_ok.mp e.sized
  have hscaled := dispersionScale_bounds hscale
  have hraw : 0 < e.raw.value := hclipped.size_pos.trans_le hclipped.le_raw
  obtain ⟨⟨hnet, -⟩, ⟨hprice, hodds⟩, hstake⟩ := kellySize_stake hkelly hraw
  have hleft : 0 < ppmOne - e.probe.executablePricePpm := sub_pos.mpr hodds
  have hfractions : inputs.riskConfig.kellyFractionPpm * scale ≤ kellyDenominatorScale :=
    mul_le_mul hone hscaled.2 hscaled.1 (by decide)
  have hpositive : 0 ≤ inputs.riskConfig.kellyFractionPpm * scale := mul_nonneg hfraction hscaled.1
  set capital := inputs.positions.aboveFloorCapitalMicros.value
  set price := e.probe.executablePricePpm
  set net := e.probe.netEdgePpm
  have hbet : e.raw.value * price * (ppmOne - price) * kellyDenominatorScale ≤
      capital * net * centisPerContract * (inputs.riskConfig.kellyFractionPpm * scale) := by
    calc _ = e.raw.value * price * ((ppmOne - price) * kellyDenominatorScale) := by ring
      _ ≤ _ := hstake
      _ = _ := by ring
  have hcost : 0 < e.raw.value * price * (ppmOne - price) * kellyDenominatorScale :=
    mul_pos (mul_pos (mul_pos hraw hprice) hleft) (by decide)
  -- the fractions are not negative, so a positive stake is on a positive capital
  have hcapital : 0 < capital * net * centisPerContract :=
    pos_of_mul_pos_left (hcost.trans_le hbet) hpositive
  have hwhole : e.raw.value * price * (ppmOne - price) ≤ capital * net * centisPerContract := by
    refine le_of_mul_le_mul_right (hbet.trans ?_) (show 0 < kellyDenominatorScale by decide)
    exact mul_le_mul_of_nonneg_left hfractions hcapital.le
  have hemitted : intent.size.value * price * (ppmOne - price) ≤
      capital * net * centisPerContract := by
    refine le_trans ?_ hwhole
    exact mul_le_mul_of_nonneg_right (mul_le_mul_of_nonneg_right hclipped.le_raw hprice.le) hleft.le
  refine ⟨hemitted, fun hbuffer => le_of_mul_le_mul_right (hemitted.trans ?_) hleft⟩
  have hnetOdds : net ≤ ppmOne - price := by
    obtain ⟨cost, marginal, fee, hwalks, -, hfee, hfigures⟩ :=
      computeExecutableEdge_figures.mp e.probed
    have hle := @netEdgeOf_le inputs.forecast _ (averagePpm cost probeSizeCentis.value) _ _
      hwalks.size_pos (feeMicros_nonneg hfee) hbuffer
    change e.probe.netEdgePpm ≤ ppmScale - e.probe.executablePricePpm
    rw [hfigures]
    exact hle
  have hpositiveCapital : 0 ≤ capital * centisPerContract := by
    have hordered : 0 < capital * centisPerContract * net := by
      rw [mul_right_comm]
      exact hcapital
    exact (pos_of_mul_pos_left hordered hnet.le).le
  calc capital * net * centisPerContract = capital * centisPerContract * net := by ring
    _ ≤ capital * centisPerContract * (ppmOne - price) :=
        mul_le_mul_of_nonneg_left hnetOdds hpositiveCapital

theorem deep_order_within_probe_stake :
    (∃ answer, select deepInputs = .ok answer ∧ deepIntent ∈ answer.intents) ∧
      ∃ probe raw, edgeAt deepInputs probeSizeCentis = .ok (.figures probe) ∧
        kellySizeAt deepInputs probe = .ok raw ∧ 20000 ≤ raw.value := by
  obtain ⟨answer, hrun, hintent⟩ := deepInputs_answers
  obtain ⟨probe, raw, final, hprobe, hraw, hle, -⟩ := emitted_within_probe_stake hrun hintent
  exact ⟨⟨answer, hrun, hintent⟩, probe, raw, hprobe, hraw, hle⟩

/-- The deep order costs more than the capital, and is larger than the Kelly size at its own
figures. -/
theorem deep_order_exceeds_kelly :
    deepInputs.riskConfig.kellyFractionPpm ≤ ppmOne ∧
      (∃ answer, select deepInputs = .ok answer ∧ deepIntent ∈ answer.intents) ∧
      ∃ figures kelly, edgeAt deepInputs deepIntent.size = .ok (.figures figures) ∧
        deepInputs.positions.aboveFloorCapitalMicros.value < figures.executableCostMicros.value ∧
        kellySizeAt deepInputs figures = .ok kelly ∧ kelly.value < deepIntent.size.value :=
  ⟨by decide, deepInputs_answers, _, _, rfl, by decide +kernel, rfl, by decide +kernel⟩

/-! ## The conditions at an emitted order -/

/-- What a limit order takes at worst: the asks at its limit or better, and its limit for the rest
of its size. -/
def limitLadder (yesAsks : List OrderBookLevel) (intent : SelectorOrderIntent) :
    List OrderBookLevel :=
  yesAsks.filter (fun level => level.price ≤ intent.price) ++ [⟨intent.price, intent.size⟩]

/-- Price a fill of an intent's size on a ladder. -/
def edgeOn (inputs : SelectorInputs) (ladder : List OrderBookLevel) (size : ContractCentis) :
    Except String EdgeOutcome :=
  edgeAt { inputs with orderBook := { inputs.orderBook with yesAsks := ladder } } size

/-- Price an intent at its size and its limit. -/
def edgeOfIntent (inputs : SelectorInputs) (intent : SelectorOrderIntent) :
    Except String EdgeOutcome :=
  edgeOn inputs (limitLadder inputs.orderBook.yesAsks intent) intent.size

/-- What an emitted order keeps of the conditions that held at the probe. -/
structure KeepsConditions (inputs : SelectorInputs) (intent : SelectorOrderIntent)
    (probe figures : EdgeFigures) : Prop where
  unpriced : ∀ condition, EntryCondition.readsFigures condition = false →
    Holds inputs figures condition
  net_edge : Holds inputs figures .netEdgeMin
  band_low : inputs.riskConfig.minOpenPricePips ≤ figures.executablePricePips.value
  above_interval : intent.executionStyle = .cross →
    inputs.forecast.ciHighPpm < probe.executablePricePpm →
      Holds inputs figures .ciStraddlesExecutablePrice
  below_interval : intent.executionStyle ≠ .cross →
    probe.executablePricePpm < inputs.forecast.ciLowPpm →
      Holds inputs figures .ciStraddlesExecutablePrice
  resting_band : intent.executionStyle ≠ .cross → Holds inputs figures .priceWithinBands

namespace Emission

variable {inputs : SelectorInputs} {intent : SelectorOrderIntent}

/-- A crossing order pays what its size was last priced at, which is no less than the probe's
price. -/
theorem cross_keeps (e : Emission inputs intent) (hbest : BestFirst inputs.orderBook.yesAsks)
    (hcross : e.style = .cross) (hprice : intent.price = e.final.marginalPricePips) :
    edgeOfIntent inputs intent = .ok (.figures e.final) ∧
      KeepsConditions inputs intent e.probe e.final := by
  obtain ⟨cost, marginal, fee, hwalks, hannual, hfee, hfigures⟩ :=
    computeExecutableEdge_figures.mp e.priced
  obtain ⟨probeCost, probeMarginal, probeFee, hprobe, -, -, hprobeFigures⟩ :=
    computeExecutableEdge_figures.mp e.probed
  have hstyle : intent.executionStyle = .cross := by
    rw [(buildIntent_ok e.built).2.1, hcross]
    rfl
  have hmarginal : intent.price = marginal := by rw [hprice, hfigures]; rfl
  have hlots : probeSizeCentis.value ≤ e.clip.size.value := by
    obtain ⟨hpositive, lots, hlots⟩ := And.intro e.clipped_spec.size_pos e.clipped_spec.lots
    rw [e.size_eq] at hpositive hlots
    unfold exchangeMinOrderCentis at hlots
    change 100 ≤ e.clip.size.value
    omega
  have haverage := hprobe.average_le hwalks hbest hlots
  have hpips : e.probe.executablePricePips.value ≤ e.final.executablePricePips.value := by
    rw [hfigures, hprobeFigures]
    exact quotient_average_mono hprobe.size_pos hwalks.size_pos haverage
  have hppm : e.probe.executablePricePpm ≤ e.final.executablePricePpm := by
    rw [hfigures, hprobeFigures]
    refine quotient_average_mono hprobe.size_pos hwalks.size_pos ?_
    rw [mul_right_comm probeCost, mul_right_comm cost]
    exact mul_le_mul_of_nonneg_right haverage (by decide)
  have hcapped : Walks (limitLadder inputs.orderBook.yesAsks intent) e.clip.size.value cost
      marginal := by
    have hbehind := hwalks.capped hbest [⟨intent.price, intent.size⟩]
    rw [← hmarginal] at hbehind ⊢
    exact hbehind
  refine ⟨?_, ?_⟩
  · rw [edgeOfIntent, e.size_eq]
    exact computeExecutableEdge_figures.mpr ⟨cost, marginal, fee, hcapped, hannual, hfee, hfigures⟩
  · exact
      { unpriced := fun condition hreads => holds_of_not_readsFigures hreads (e.admitted condition)
        net_edge := holds_netEdgeMin_iff.mpr e.clears
        band_low := (holds_priceWithinBands_iff.mp (e.admitted _)).1.trans hpips
        above_interval := fun _ habove =>
          holds_ciStraddles_iff.mpr (Or.inr (habove.trans_le hppm))
        below_interval := fun hrests => absurd hstyle hrests
        resting_band := fun hrests => absurd hstyle hrests }

/-- A resting order pays its limit, which was checked against the band and the edge. -/
theorem rest_keeps (e : Emission inputs intent) (hbest : BestFirst inputs.orderBook.yesAsks)
    (hbids : ∀ bid ∈ inputs.orderBook.yesBids, 0 ≤ bid.price.value) {ttl ticks : ℤ}
    (hrest : e.style = .rest intent.price ttl ticks) :
    ∃ figures, edgeOfIntent inputs intent = .ok (.figures figures) ∧
      KeepsConditions inputs intent e.probe figures := by
  have hstyled := e.styled
  rw [hrest, ← e.size_eq] at hstyled
  have hrests := decideExecutionStyle_rests hstyled
  obtain ⟨bestBid, bids, bestAsk, asks, hbidside, hasks, hprice, hspread⟩ := hrests.inside
  obtain ⟨net, hnet, hclears⟩ := hrests.net_edge
  obtain ⟨fee, hfee, hnet⟩ := Effects.except_bind_ok.mp hnet
  obtain ⟨feePpm, hfeePpm, hnet⟩ := Effects.except_bind_ok.mp hnet
  have hsize := e.clipped_spec.size_pos
  rw [perContractPpm, divide_of_ne_zero hsize.ne'] at hfeePpm
  cases hfeePpm
  cases hnet
  obtain ⟨hpips, hppm⟩ := average_of_one_price hsize intent.price.value
  have hbid : 0 ≤ bestBid.price.value := hbids bestBid (by
    rw [hbidside]
    exact List.mem_cons_self ..)
  unfold restImprovementPips at hprice
  unfold wideSpreadMinPips at hspread
  have hdearer : ∀ level ∈ inputs.orderBook.yesAsks, bestAsk.price.value ≤ level.price.value := by
    intro level hlevel
    rw [hasks] at hlevel hbest
    rcases List.mem_cons.mp hlevel with rfl | hdeeper
    · exact le_refl _
    · exact hbest.head_le hdeeper
  -- no ask is as cheap as the resting price
  have hnone : inputs.orderBook.yesAsks.filter (fun level => level.price ≤ intent.price) = [] := by
    refine List.filter_eq_nil_iff.mpr fun level hlevel => ?_
    have hbestAsk := hdearer level hlevel
    rw [decide_eq_true_iff, IntUnit.le_iff]
    omega
  have hwalks : Walks (limitLadder inputs.orderBook.yesAsks intent) intent.size.value
      (intent.price.value * intent.size.value) intent.price := by
    rw [limitLadder, hnone, List.nil_append]
    exact .marginal _ [] _ hsize (le_refl _)
  have hannual : 0 < averagePpm (intent.price.value * intent.size.value) intent.size.value ∧
      0 < inputs.forecast.forecastHorizonHours := by
    obtain ⟨-, -, -, -, ⟨-, hhorizon⟩, -, -⟩ := computeExecutableEdge_figures.mp e.probed
    rw [hppm, ppmPerPip]
    exact ⟨by omega, hhorizon⟩
  refine ⟨_, computeExecutableEdge_figures.mpr
    ⟨_, _, fee, hwalks, hannual, by rw [hpips]; exact hfee, rfl⟩, ?_⟩
  have hbelow : intent.price.value * ppmPerPip ≤ e.probe.executablePricePpm := by
    obtain ⟨probeCost, probeMarginal, probeFee, hprobe, -, -, hprobeFigures⟩ :=
      computeExecutableEdge_figures.mp e.probed
    have hcost := hprobe.le_cost hbest.quantity_nonneg hdearer
    have hcheaper : intent.price.value * probeSizeCentis.value ≤ probeCost :=
      (mul_le_mul_of_nonneg_right (by omega) hprobe.size_pos.le).trans hcost
    rw [hprobeFigures, ← (average_of_one_price hprobe.size_pos intent.price.value).2]
    refine quotient_average_mono hprobe.size_pos hprobe.size_pos ?_
    exact mul_le_mul_of_nonneg_right (mul_le_mul_of_nonneg_right hcheaper (by decide))
      hprobe.size_pos.le
  have hband : Holds inputs (figuresOf inputs.forecast inputs.perContractBufferPpm
      intent.size.value (intent.price.value * intent.size.value) intent.price fee)
      .priceWithinBands := by
    rw [holds_priceWithinBands_iff, figuresOf, hpips]
    exact hrests.in_band
  have hstyle : intent.executionStyle ≠ .cross := by
    rw [(buildIntent_ok e.built).2.1, hrest]
    exact ExecutionStyle.noConfusion
  exact
    { unpriced := fun condition hreads => holds_of_not_readsFigures hreads (e.admitted condition)
      net_edge := by
        rw [holds_netEdgeMin_iff, figuresOf, hppm]
        exact hclears
      band_low := (holds_priceWithinBands_iff.mp hband).1
      above_interval := fun hcross => absurd hcross hstyle
      below_interval := fun _ hlow => by
        rw [holds_ciStraddles_iff, figuresOf, hppm]
        exact Or.inl (hbelow.trans_lt hlow)
      resting_band := fun _ => hband }

end Emission

/-- **An emitted order keeps the conditions that read no price**, the floor of the net edge and the
lower end of the band, at its own size and limit; a crossing order never falls back into an interval
that the probe was above, and a resting one stays below an interval that the probe was below and lies
within the whole band.  The other conditions on the price held at the probe. -/
theorem emitted_keeps_conditions {inputs : SelectorInputs} {answer : SelectorDecision}
    {intent : SelectorOrderIntent} (hbest : BestFirst inputs.orderBook.yesAsks)
    (hbids : ∀ bid ∈ inputs.orderBook.yesBids, 0 ≤ bid.price.value)
    (hrun : select inputs = .ok answer) (hintent : intent ∈ answer.intents) :
    ∃ probe figures, edgeAt inputs probeSizeCentis = .ok (.figures probe) ∧
      (∀ condition, Holds inputs probe condition) ∧
      edgeOfIntent inputs intent = .ok (.figures figures) ∧
      KeepsConditions inputs intent probe figures := by
  obtain ⟨e⟩ := select_emits hrun hintent
  obtain ⟨-, -, ⟨hcross, hprice⟩ | ⟨ttl, ticks, hrest⟩⟩ := buildIntent_ok e.built
  · obtain ⟨hedge, hkeeps⟩ := e.cross_keeps hbest hcross hprice
    exact ⟨e.probe, e.final, e.probed, e.admitted, hedge, hkeeps⟩
  · obtain ⟨figures, hedge, hkeeps⟩ := e.rest_keeps hbest hbids hrest
    exact ⟨e.probe, figures, e.probed, e.admitted, hedge, hkeeps⟩

theorem deep_order_keeps_conditions :
    (∃ answer, select deepInputs = .ok answer ∧ deepIntent ∈ answer.intents) ∧
      ∃ probe figures, edgeAt deepInputs probeSizeCentis = .ok (.figures probe) ∧
        KeepsConditions deepInputs deepIntent probe figures := by
  obtain ⟨answer, hrun, hintent⟩ := deepInputs_answers
  obtain ⟨probe, figures, hprobe, -, -, hkeeps⟩ :=
    emitted_keeps_conditions deepInputs_bestFirst (by decide) hrun hintent
  exact ⟨⟨answer, hrun, hintent⟩, probe, figures, hprobe, hkeeps⟩

theorem steep_ppm : (0 : ℤ) ≤ 842100 := by decide

theorem low_ppm : (0 : ℤ) ≤ 0 ∧ (0 : ℤ) ≤ 1000000 := by decide

theorem high_ppm : (0 : ℤ) ≤ 930000 ∧ (930000 : ℤ) ≤ 1000000 := by decide

/-- A wide spread under a steep fee: the cent that the fee is rounded up to costs more than the better
price saves. -/
def restingInputs : SelectorInputs :=
  { deepInputs with
    forecast :=
      { deepInputs.forecast with
        ciLowPpm := 0
        ciHighPpm := 930000
        forecastHorizonHours := 350
        ci_low_ppm := low_ppm
        ci_high_ppm := high_ppm }
    orderBook := ⟨"RAIN", [⟨⟨9125⟩, ⟨1000⟩⟩], [⟨⟨9500⟩, ⟨400⟩⟩], 0⟩
    feeModel := ⟨{ freeFees with takerFeePpm := 842100, taker_nonneg := steep_ppm }, 0⟩
    riskConfig := { minNetEdgePpm := 5000 } }

/-- The order it answers: one contract, resting inside the spread. -/
def restingIntent : SelectorOrderIntent :=
  { deepIntent with
    price := ⟨9225⟩
    size := ⟨100⟩
    maxNotional := ⟨992500⟩
    executionStyle := .restInsideSpread 900 2 }

/-- The deep order's price lies in the interval and above the band, and its return misses the
hurdle, whether it pays what the asks rest at or its limit throughout.  A resting order can fall into
an interval that the probe was above, and miss the hurdle. -/
theorem deep_order_leaves_conditions :
    ((∃ answer, select deepInputs = .ok answer ∧ deepIntent ∈ answer.intents) ∧
      ∃ figures worst, edgeOfIntent deepInputs deepIntent = .ok (.figures figures) ∧
        edgeOn deepInputs [⟨deepIntent.price, deepIntent.size⟩] deepIntent.size =
          .ok (.figures worst) ∧
        [EntryCondition.annualizedHurdle, .ciStraddlesExecutablePrice, .priceWithinBands].all
          (fun condition => !decide (Holds deepInputs figures condition) &&
            !decide (Holds deepInputs worst condition)) = true) ∧
    (∃ answer, select restingInputs = .ok answer ∧ restingIntent ∈ answer.intents) ∧
      ∃ figures, edgeOfIntent restingInputs restingIntent = .ok (.figures figures) ∧
        [EntryCondition.annualizedHurdle, .ciStraddlesExecutablePrice].all
          (fun condition => !decide (Holds restingInputs figures condition)) = true :=
  ⟨⟨deepInputs_answers, _, _, rfl, rfl, by decide +kernel⟩, ⟨_, rfl, by decide +kernel⟩, _, rfl,
    by decide +kernel⟩

end Windbreak
