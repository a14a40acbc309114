import Mathlib.Algebra.BigOperators.Ring.List
import Windbreak.Connector.PaperHeadroom
import Windbreak.Core.PooledRounding
import Windbreak.Selector.EmittedOrders

/-!
# What a priced fill costs at the paper exchange

The selector prices a fill with one trading fee, at the average price of the fill; the paper
exchange executes the same fill level by level and charges a fee for each, rounded up to a cent by
itself.  The notionals agree, so that the edge covers the cash exactly when the separate roundings
lose less than one cent more than the spread of the prices gives back.

* **`placeOrder_executes_priced`** — an order at the marginal price that the share of the depth
  admits executes the slices that were priced.
* **`priced_fill_covers_iff`** — when what was priced covers what is debited.
-/

namespace Windbreak

open Effects PaperExchange PooledRounding

/-! ## The slices of a priced fill -/

/-- What the pricing walk takes of each level, the levels that it takes nothing of left out. -/
def pricedSlices : List OrderBookLevel → ℤ → List OrderBookLevel
  | [], _ => []
  | level :: rest, remaining =>
    if remaining ≤ 0 then []
    else
      let taken := min remaining level.quantity.value
      if taken = 0 then pricedSlices rest remaining
      else ⟨level.price, ⟨taken⟩⟩ :: pricedSlices rest (remaining - taken)

/-- The slices that some fills executed. -/
def fillSlices (fills : List Fill) : List OrderBookLevel :=
  fills.map fun fill => ⟨fill.price, fill.quantity⟩

theorem pricedSlices_done (yesAsks : List OrderBookLevel) : pricedSlices yesAsks 0 = [] := by
  cases yesAsks with
  | nil => rfl
  | cons level rest => exact if_pos (le_refl 0)

namespace Walks

variable {yesAsks : List OrderBookLevel} {size cost : ℤ} {price : PricePips}

theorem pricedSlices_marginal {level : OrderBookLevel} (rest : List OrderBookLevel)
    (hsize : 0 < size) (hfit : size ≤ level.quantity.value) :
    pricedSlices (level :: rest) size = [⟨level.price, ⟨size⟩⟩] := by
  rw [pricedSlices, if_neg (not_le.mpr hsize)]
  dsimp only
  rw [min_eq_left hfit, if_neg hsize.ne', sub_self, pricedSlices_done]

/-- The slices of a priced fill come to its size and its cost. -/
theorem pricedSlices_totals (h : Walks yesAsks size cost price) :
    depthOf (pricedSlices yesAsks size) = size ∧ sliceNotional (pricedSlices yesAsks size) = cost := by
  induction h with
  | marginal level rest size hsize hfit =>
    rw [pricedSlices_marginal rest hsize hfit]
    simp [depthOf, sliceNotional]
  | deeper level rest size cost price hsize hshort _ ih =>
    rw [pricedSlices, if_neg (not_le.mpr hsize)]
    dsimp only
    rw [min_eq_right hshort.le]
    by_cases hnothing : level.quantity.value = 0
    · rw [if_pos hnothing]
      rw [hnothing, sub_zero] at ih
      rw [hnothing, mul_zero, zero_add]
      exact ih
    · rw [if_neg hnothing]
      unfold depthOf sliceNotional at ih ⊢
      simp only [List.map_cons, List.sum_cons]
      rw [ih.1, ih.2]
      exact ⟨by omega, rfl⟩

/-- **The taker walk takes the slices that were priced**, from the levels up to the marginal one. -/
theorem consumeLevels_priced (h : Walks yesAsks size cost price) (hbest : BestFirst yesAsks)
    {feeModel : FeeModel} {consumed : List OrderBookLevel} {bookCost fees : ℤ}
    (hwalk : consumeLevels feeModel (eligibleLevels yesAsks price) size =
      .ok (consumed, bookCost, fees)) : consumed = pricedSlices yesAsks size := by
  induction h generalizing consumed bookCost fees with
  | marginal level rest size hsize hfit =>
    have heligible : eligibleLevels (level :: rest) level.price =
        level :: eligibleLevels rest level.price :=
      List.filter_cons_of_pos (by simp [IntUnit.le_iff])
    rw [heligible, consumeLevels, if_neg (not_le.mpr hsize),
      if_neg (not_le.mpr (lt_of_lt_of_le hsize hfit))] at hwalk
    obtain ⟨fee, -, hwalk⟩ := except_bind_ok.mp hwalk
    obtain ⟨⟨more, moreCost, moreFees⟩, hmore, hwalk⟩ := except_bind_ok.mp hwalk
    -- the marginal level meets what is left, and the walk ends on it
    rw [min_eq_left hfit, sub_self, consumeLevels_done _ _ (le_refl 0)] at hmore
    cases hmore
    cases hwalk
    rw [min_eq_left hfit]
    exact (pricedSlices_marginal rest hsize hfit).symm
  | deeper level rest size cost price hsize hshort hrest ih =>
    have hhead : level.price.value ≤ price.value := hrest.head_le hbest
    have heligible : eligibleLevels (level :: rest) price = level :: eligibleLevels rest price :=
      List.filter_cons_of_pos (by simpa [IntUnit.le_iff] using hhead)
    rw [heligible, consumeLevels, if_neg (not_le.mpr hsize)] at hwalk
    rw [pricedSlices, if_neg (not_le.mpr hsize)]
    dsimp only
    rw [min_eq_right hshort.le]
    by_cases hnothing : level.quantity.value = 0
    · rw [if_pos hnothing.le] at hwalk
      rw [if_pos hnothing]
      rw [hnothing, sub_zero] at ih
      exact ih hbest.tail hwalk
    · have hshown : ¬ level.quantity.value ≤ 0 := fun hle =>
        hnothing (le_antisymm hle hbest.head_nonneg)
      rw [if_neg hshown] at hwalk
      rw [if_neg hnothing]
      obtain ⟨fee, -, hwalk⟩ := except_bind_ok.mp hwalk
      obtain ⟨⟨more, moreCost, moreFees⟩, hmore, hwalk⟩ := except_bind_ok.mp hwalk
      cases hwalk
      rw [min_eq_right hshort.le] at hmore ⊢
      rw [ih hbest.tail hmore]

end Walks

/-! ## Executing them -/

theorem fillSlices_emitTakerFills (intent : PaperOrderIntent) (fetchedAt : ℤ) (x : PaperExchange)
    (slices : List OrderBookLevel) :
    fillSlices (emitTakerFills intent fetchedAt x slices).1 = slices := by
  have hfills := (emitTakerFills_emits intent fetchedAt x slices).2
  have hslices := congrArg (List.map fun entry =>
    (⟨entry.2.2.1, entry.2.2.2.1⟩ : OrderBookLevel)) hfills
  rw [List.map_map, List.map_map] at hslices
  exact hslices.trans (List.map_id slices)

/-- **An order at the marginal price executes the slices that were priced**, on a ladder listed best
first within the payout, where its size is within the share of the depth that one order may take. -/
theorem placeOrder_executes_priced {cfg : PaperFixture} {x : PaperExchange} {ticker : String}
    {step : SessionStep} {model : FeeModel} {size cost : ℤ} {marginal : PricePips}
    (hstep : x.currentStep cfg ticker = .ok step) (hmodel : getFeeModel cfg ticker = .ok model)
    (hwalks : Walks step.book.yesAsks size cost marginal) (hbest : BestFirst step.book.yesAsks)
    (hpriced : ∀ level ∈ step.book.yesAsks,
      0 ≤ level.price.value ∧ level.price.value ≤ pipsPerDollar)
    (hshare : size ≤ (participationCap ⟨depthOf (eligibleLevels step.book.yesAsks marginal)⟩
      cfg.maxParticipationPpm).value) :
    ∃ placement y, x.placeOrder cfg ⟨ticker, .yes, marginal, ⟨size⟩⟩ = .ok (placement, y) ∧
      fillSlices placement.fills = pricedSlices step.book.yesAsks size := by
  have htarget : takerTarget step.book.yesAsks marginal ⟨size⟩ cfg.maxParticipationPpm = size :=
    min_eq_left hshare
  have hreturns : ∃ walked, consumeLevels model (eligibleLevels step.book.yesAsks marginal) size =
      .ok walked :=
    consumeLevels_returns (fun level hlevel => hpriced level (List.mem_filter.mp hlevel).1) size
  obtain ⟨⟨consumed, bookCost, fees⟩, hwalk⟩ := hreturns
  obtain ⟨result, hfill, hconsumed⟩ : ∃ result, walkTakerFill step.book.yesAsks marginal ⟨size⟩
      model cfg.haircutPpm cfg.maxParticipationPpm = .ok result ∧ result.consumed = consumed := by
    unfold walkTakerFill
    rw [htarget]
    have hhaircut := divide_of_ne_zero (by decide : ppmDenominator ≠ 0) (fees * cfg.haircutPpm)
      .overstateCost
    exact ⟨_, except_bind_ok.mpr ⟨_, hwalk, except_bind_ok.mpr ⟨_, hhaircut, rfl⟩⟩, rfl⟩
  refine ⟨_, _, except_bind_ok.mpr ⟨step, hstep, except_bind_ok.mpr ⟨model, hmodel,
    except_bind_ok.mpr ⟨result, congrArg (Except.mapError PaperError.valueError) hfill, rfl⟩⟩⟩, ?_⟩
  rw [fillSlices_emitTakerFills, hconsumed]
  exact hwalks.consumeLevels_priced hbest hwalk

/-! ## The cash of the fill -/

/-- A trading fee before it is rounded up, in units of which `tradingCentDenominator` make a cent. -/
def unroundedFee (feeModel : FeeModel) (pricePips countCentis : ℤ) : ℤ :=
  feeModel.ratePpm * countCentis * pricePips * (pipsPerDollar - pricePips)

/-- What the fees of some slices lose to their separate roundings. -/
def roundingLoss (feeModel : FeeModel) (slices : List OrderBookLevel) : ℤ :=
  (slices.map fun slice => lackOf tradingCentDenominator
    (unroundedFee feeModel slice.price.value slice.quantity.value)).sum

/-- What one fee at an average price takes more than the slices' own fees, before any rounding: the
rate on the spread of their prices, and on what the average is off the exact one. -/
def averagingGain (feeModel : FeeModel) (averagePips : ℤ) (slices : List OrderBookLevel) : ℤ :=
  feeModel.ratePpm *
    (spread (fun slice : OrderBookLevel => slice.quantity.value) (·.price.value) averagePips slices +
      (pipsPerDollar - 2 * averagePips) * (depthOf slices * averagePips - sliceNotional slices))

/-- The separate roundings lose less than one cent more than averaging the prices gains. -/
def CoversRounding (feeModel : FeeModel) (slices : List OrderBookLevel) : Prop :=
  roundingLoss feeModel slices < tradingCentDenominator +
    averagingGain feeModel (averagePips (sliceNotional slices) (depthOf slices)) slices

theorem FeeModel.tradingFee_eq (feeModel : FeeModel) (pricePips countCentis : ℤ) :
    feeModel.tradingFee pricePips countCentis =
      unitsFor tradingCentDenominator (unroundedFee feeModel pricePips countCentis) *
        microsPerCent := by
  rw [tradingFee, quotient_overstate tradingCentDenominator_pos]
  rfl

/-- **One fee covers the fees of the slices** exactly when the roundings lose no more than that. -/
theorem sliceFees_le_iff (feeModel : FeeModel) (averagePips : ℤ) (slices : List OrderBookLevel) :
    sliceFees feeModel slices ≤ feeModel.tradingFee averagePips (depthOf slices) ↔
      roundingLoss feeModel slices <
        tradingCentDenominator + averagingGain feeModel averagePips slices := by
  let parts := slices.map fun slice =>
    unroundedFee feeModel slice.price.value slice.quantity.value
  have hfees : sliceFees feeModel slices =
      (parts.map (unitsFor tradingCentDenominator)).sum * microsPerCent := by
    rw [← List.sum_map_mul_right, List.map_map, sliceFees]
    refine congrArg List.sum (List.map_congr_left fun slice _ => ?_)
    exact feeModel.tradingFee_eq _ _
  have hloss : roundingLoss feeModel slices = (parts.map (lackOf tradingCentDenominator)).sum := by
    rw [List.map_map]
    rfl
  have hgain : averagingGain feeModel averagePips slices =
      unroundedFee feeModel averagePips (depthOf slices) - parts.sum := by
    have hparts : parts.sum = feeModel.ratePpm * (slices.map fun slice => slice.quantity.value *
        (slice.price.value * (pipsPerDollar - slice.price.value))).sum := by
      rw [← List.sum_map_mul_left]
      refine congrArg List.sum (List.map_congr_left fun slice _ => ?_)
      rw [unroundedFee]
      ring
    have hsurplus := pooled_surplus (fun slice : OrderBookLevel => slice.quantity.value)
      (·.price.value) pipsPerDollar averagePips slices
    rw [hparts, averagingGain, unroundedFee, depthOf, sliceNotional, ← hsurplus]
    ring
  rw [hfees, feeModel.tradingFee_eq, hloss, hgain,
    ← sum_unitsFor_le_iff tradingCentDenominator_pos]
  exact mul_le_mul_iff_left₀ microsPerCent_pos

/-- **What some fills are debited**: the notional of their slices and a fee for each. -/
theorem sum_fillCash {cfg : PaperFixture} {ticker : String} {model : FeeModel}
    (hmodel : getFeeModel cfg ticker = .ok model) {fills : List Fill}
    (hfills : ∀ fill ∈ fills, fill.ticker = ticker ∧ 0 < fill.quantity.value ∧
      0 ≤ fill.price.value ∧ fill.price.value ≤ pipsPerDollar) :
    sumEach (fillCashMicros cfg) fills =
      .ok (sliceNotional (fillSlices fills) + sliceFees model (fillSlices fills)) := by
  induction fills with
  | nil => rfl
  | cons fill rest ih =>
    obtain ⟨hticker, hpositive, hpriced⟩ := hfills fill (List.mem_cons_self ..)
    have hhead : fillCashMicros cfg fill = .ok (fill.price.value * fill.quantity.value +
        model.tradingFee fill.price.value fill.quantity.value) :=
      orderCashMicros_ok_iff.mpr ⟨model, hticker ▸ hmodel, ⟨hpriced, hpositive⟩, rfl⟩
    have hrest := ih fun other hother => hfills other (List.mem_cons_of_mem _ hother)
    rw [sumEach, hhead, hrest]
    refine congrArg Except.ok ?_
    simp only [sliceNotional, sliceFees, fillSlices, List.map_cons, List.sum_cons]
    ring

/-- The total balance is the opening one less what is spent. -/
theorem getBalances_total {cfg : PaperFixture} {x : PaperExchange} {now : ℤ} {b : BalanceSnapshot}
    (h : x.getBalances cfg now = .ok b) :
    b.total.value = cfg.balances.total.value - spentOf cfg x.fills := by
  obtain ⟨spent, hspent, h⟩ := except_bind_ok.mp h
  obtain ⟨pledged, -, h⟩ := except_bind_ok.mp h
  cases h
  have hs : spent = spentOf cfg x.fills :=
    sumEach_map (fun fill v hv => orderCashMicros_charge hv) hspent
  rw [hs]

/-- **When what was priced covers what is debited.**  A fill that was priced and is executed slice by
slice as it was priced is debited what its fills cost; the cost and the trading fee that were priced
cover it, and so does the cap of a crossing intent, exactly when the separate roundings of the fees
lose less than one cent more than averaging the prices gains. -/
theorem priced_fill_covers_iff {cfg : PaperFixture} {x y : PaperExchange}
    {intent : PaperOrderIntent} {placement : PaperPlacement} {inputs : SelectorInputs}
    {size : ContractCentis} {figures : EdgeFigures} {price : PricePips} {maxNotional : MoneyMicros}
    (hpriced : edgeAt inputs size = .ok (.figures figures))
    (hcapped : priceAndNotional inputs figures size .cross = .ok (price, maxNotional))
    (hmodel : getFeeModel cfg intent.ticker = .ok inputs.feeModel.model)
    (hplaced : x.placeOrder cfg intent = .ok (placement, y))
    (hexecuted : fillSlices placement.fills = pricedSlices inputs.orderBook.yesAsks size.value) :
    ∃ trading debited,
      inputs.feeModel.model.maxTradingFeeMicros figures.executablePricePips.value size.value =
        .ok trading ∧
      sumEach (fillCashMicros cfg) placement.fills = .ok debited ∧
      (∀ now later before after, x.getBalances cfg now = .ok before →
        y.getBalances cfg later = .ok after →
          before.total.value - after.total.value = debited) ∧
      ((debited ≤ figures.executableCostMicros.value + trading ∧ debited ≤ maxNotional.value) ↔
        CoversRounding inputs.feeModel.model
          (pricedSlices inputs.orderBook.yesAsks size.value)) := by
  obtain ⟨cost, marginal, fee, hwalks, -, -, rfl⟩ := computeExecutableEdge_figures.mp hpriced
  obtain ⟨total, htotal, hcapped⟩ := except_bind_ok.mp hcapped
  cases hcapped
  obtain ⟨trading, htrading, htotal⟩ := except_bind_ok.mp htotal
  obtain ⟨settlement, hsettlement, htotal⟩ := except_bind_ok.mp htotal
  cases htotal
  obtain ⟨-, -, rfl⟩ := FeeModel.maxTradingFeeMicros_ok_iff.mp htrading
  obtain ⟨step, -, hplacement⟩ := placeOrder_ok hplaced
  have hdebited := sum_fillCash hmodel fun fill hfill =>
    ⟨(hplacement.fills fill hfill).ticker, (hplacement.fills fill hfill).positive,
      (hplacement.fills fill hfill).priced⟩
  obtain ⟨hdepth, hnotional⟩ := hwalks.pricedSlices_totals
  refine ⟨_, _, htrading, hdebited, fun now later before after hbefore hafter => ?_, ?_⟩
  · have hspent : spentOf cfg placement.fills = _ :=
      (sumEach_map (fun fill v hv => orderCashMicros_charge hv) hdebited).symm
    rw [getBalances_total hbefore, getBalances_total hafter, hplacement.adds.fills, ← hspent]
    simp only [spentOf, List.map_append, List.sum_append]
    omega
  · have hsettled := FeeModel.maxSettlementFeeMicros_nonneg hsettlement
    have hiff := sliceFees_le_iff inputs.feeModel.model (averagePips cost size.value)
      (pricedSlices inputs.orderBook.yesAsks size.value)
    rw [hdepth] at hiff
    rw [hexecuted, hnotional, CoversRounding, hnotional, hdepth, ← hiff]
    change (cost + _ ≤ cost + inputs.feeModel.model.tradingFee (averagePips cost size.value)
      size.value ∧ cost + _ ≤ cost + (inputs.feeModel.model.tradingFee (averagePips cost size.value)
        size.value + settlement)) ↔ _
    -- the cap also allows for the settlement, and is no less than the cost and the trading fee
    constructor
    · rintro ⟨hcovered, -⟩
      exact le_of_add_le_add_left hcovered
    · intro hcovered
      exact ⟨add_le_add_right hcovered cost, by omega⟩

/-! ## Two levels, two cents -/

/-- A contract at ninety-five cents and nine behind it a tenth of a cent dearer. -/
def twoLevelBook : OrderBookSnapshot := ⟨"RAIN", [], [⟨⟨9500⟩, ⟨100⟩⟩, ⟨⟨9510⟩, ⟨900⟩⟩], 0⟩

/-- A selection over that book, with a fee of seven parts in a hundred for takers. -/
def twoLevelInputs : SelectorInputs :=
  { deepInputs with orderBook := twoLevelBook, feeModel := ⟨takerFees, 0⟩ }

/-- That book recorded, with a quarter of its depth for one order. -/
def twoLevelFixture : PaperFixture where
  sessions := ⟨[("RAIN", [⟨twoLevelBook, []⟩])], List.nodup_singleton _⟩
  feeModels := ⟨[("default", takerFees)], default_nodup⟩
  balances := ⟨⟨10000000⟩, ⟨10000000⟩, 0⟩
  haircutPpm := 0
  maxParticipationPpm := 250000

/-- An order for two contracts at the second level's price. -/
def atSecondLevel : PaperOrderIntent := ⟨"RAIN", .yes, ⟨9510⟩, ⟨200⟩⟩

theorem placeOrder_executes_twoLevel : ∃ placement y,
    PaperExchange.fresh.placeOrder twoLevelFixture atSecondLevel = .ok (placement, y) ∧
      fillSlices placement.fills = pricedSlices twoLevelBook.yesAsks 200 := by
  have hwalks : Walks twoLevelBook.yesAsks 200 1901000 ⟨9510⟩ :=
    .deeper _ _ _ _ _ (by decide) (by decide) (.marginal _ _ _ (by decide) (by decide))
  have hstep : PaperExchange.fresh.currentStep twoLevelFixture "RAIN" = .ok ⟨twoLevelBook, []⟩ :=
    rfl
  have hmodel : getFeeModel twoLevelFixture "RAIN" = .ok takerFees := rfl
  exact placeOrder_executes_priced hstep hmodel hwalks ⟨by decide, by decide⟩ (by decide)
    (by decide)

/-- Two contracts of that book, priced, capped and executed. -/
theorem twoLevel_run : ∃ figures price maxNotional placement y,
    edgeAt twoLevelInputs ⟨200⟩ = .ok (.figures figures) ∧
      priceAndNotional twoLevelInputs figures ⟨200⟩ .cross = .ok (price, maxNotional) ∧
      PaperExchange.fresh.placeOrder twoLevelFixture atSecondLevel = .ok (placement, y) ∧
      fillSlices placement.fills = pricedSlices twoLevelInputs.orderBook.yesAsks 200 ∧
      (figures.executableCostMicros.value = 1901000 ∧ maxNotional.value = 1911000) ∧
      figures.executablePricePips.value = 9505 ∧
      sumEach (fillCashMicros twoLevelFixture) placement.fills = .ok 1921000 :=
  ⟨_, _, _, _, _, rfl, rfl, rfl, rfl, ⟨rfl, rfl⟩, rfl, rfl⟩

theorem priced_fill_covers_twoLevel : ∃ figures price maxNotional placement y trading debited,
    edgeAt twoLevelInputs ⟨200⟩ = .ok (.figures figures) ∧
      priceAndNotional twoLevelInputs figures ⟨200⟩ .cross = .ok (price, maxNotional) ∧
      PaperExchange.fresh.placeOrder twoLevelFixture atSecondLevel = .ok (placement, y) ∧
      takerFees.maxTradingFeeMicros figures.executablePricePips.value 200 = .ok trading ∧
      sumEach (fillCashMicros twoLevelFixture) placement.fills = .ok debited ∧
      ((debited ≤ figures.executableCostMicros.value + trading ∧ debited ≤ maxNotional.value) ↔
        CoversRounding takerFees (pricedSlices twoLevelBook.yesAsks 200)) := by
  obtain ⟨figures, price, maxNotional, placement, y, hpriced, hcapped, hplaced, hexecuted, -, -, -⟩ :=
    twoLevel_run
  have hschedule : getFeeModel twoLevelFixture atSecondLevel.ticker =
      .ok twoLevelInputs.feeModel.model := rfl
  obtain ⟨trading, debited, htrading, hdebited, -, hiff⟩ :=
    priced_fill_covers_iff hpriced hcapped hschedule hplaced hexecuted
  exact ⟨figures, price, maxNotional, placement, y, trading, debited, hpriced, hcapped, hplaced,
    htrading, hdebited, hiff⟩

/-- **Two levels, two cents**: two contracts are priced at one cent of fee and debited two, one at
each level, more than the edge attributes to the fill and more than the cap of its intent. -/
theorem two_levels_debited_two_cents : ∃ figures price maxNotional placement y,
    edgeAt twoLevelInputs ⟨200⟩ = .ok (.figures figures) ∧
      priceAndNotional twoLevelInputs figures ⟨200⟩ .cross = .ok (price, maxNotional) ∧
      PaperExchange.fresh.placeOrder twoLevelFixture atSecondLevel = .ok (placement, y) ∧
      fillSlices placement.fills = pricedSlices twoLevelInputs.orderBook.yesAsks 200 ∧
      takerFees.maxTradingFeeMicros figures.executablePricePips.value 200 = .ok 10000 ∧
      sumEach (fillCashMicros twoLevelFixture) placement.fills = .ok 1921000 ∧
      figures.executableCostMicros.value + 10000 < 1921000 ∧ maxNotional.value < 1921000 := by
  obtain ⟨figures, price, maxNotional, placement, y, hpriced, hcapped, hplaced, hexecuted,
    ⟨hcost, hcap⟩, haverage, hdebited⟩ := twoLevel_run
  refine ⟨figures, price, maxNotional, placement, y, hpriced, hcapped, hplaced, hexecuted, ?_,
    hdebited, ?_, ?_⟩
  · rw [haverage]
    rfl
  · rw [hcost]
    decide
  · rw [hcap]
    decide

end Windbreak
