import Mathlib.Data.List.Sort
import Windbreak.Core.Effects
import Windbreak.Connector.Fees
import Windbreak.Connector.Models

/-!
# Paper fills

How recorded market data fills a simulated order.  A taker walks the book best first, up to its
share of the eligible depth; a resting order fills only against prints strictly through its limit,
and several resting orders share one shrinking pool of prints.

* **`walkTakerFill`** — the taker walk; `consumeLevels_consumed` says what it takes.
* **`allocateRestingFills`** — the allocation; `allocateRestingFills_allocated` says that no order
  gets more than what is left of it, and nothing without a print through its limit.
-/

namespace Windbreak

open Effects

def ppmDenominator : ℤ := 1000000

/-- A recorded trade. -/
structure TradePrint where
  price : PricePips
  quantity : ContractCentis
  ts : ℤ
  deriving DecidableEq, Repr

/-- What walking the book took and cost. -/
structure TakerFillResult where
  consumed : List OrderBookLevel
  filled : ContractCentis
  bookCost : MoneyMicros
  fee : MoneyMicros
  haircut : MoneyMicros
  totalCost : MoneyMicros
  deriving DecidableEq, Repr

/-! ## The taker walk -/

/-- The most of a depth that one order may take, rounded down. -/
def participationCap (depth : ContractCentis) (maxParticipationPpm : ℤ) : ContractCentis :=
  ⟨quotient (depth.value * maxParticipationPpm) ppmDenominator .understateEquity⟩

/-- The levels at the limit or better. -/
def eligibleLevels (levels : List OrderBookLevel) (limit : PricePips) : List OrderBookLevel :=
  levels.filter fun level => level.price ≤ limit

/-- Walk levels best first until a target is reached: the slices taken, their book cost and their
fee.  Levels without a positive quantity are walked past. -/
def consumeLevels (feeModel : FeeModel) :
    List OrderBookLevel → ℤ → Except String (List OrderBookLevel × ℤ × ℤ)
  | [], _ => .ok ([], 0, 0)
  | level :: rest, remaining =>
    if remaining ≤ 0 then .ok ([], 0, 0)
    else if level.quantity.value ≤ 0 then consumeLevels feeModel rest remaining
    else do
      let take := min remaining level.quantity.value
      let cost := moneyFromPriceAndCount level.price ⟨take⟩ .overstateCost
      let fee ← feeModel.maxTradingFeeMicros level.price.value take
      let (consumed, bookCost, fees) ← consumeLevels feeModel rest (remaining - take)
      return (⟨level.price, ⟨take⟩⟩ :: consumed, cost.value + bookCost, fee + fees)

/-- The recorded depth of some levels. -/
def depthOf (levels : List OrderBookLevel) : ℤ := (levels.map (·.quantity.value)).sum

/-- What a taker may take of the levels at its limit or better. -/
def takerTarget (levels : List OrderBookLevel) (limit : PricePips) (requested : ContractCentis)
    (maxParticipationPpm : ℤ) : ℤ :=
  min requested.value
    (participationCap ⟨depthOf (eligibleLevels levels limit)⟩ maxParticipationPpm).value

/-- Walk the recorded book for a taker order. -/
def walkTakerFill (levels : List OrderBookLevel) (limit : PricePips) (requested : ContractCentis)
    (feeModel : FeeModel) (haircutPpm maxParticipationPpm : ℤ) : Except String TakerFillResult := do
  let filled := takerTarget levels limit requested maxParticipationPpm
  let (consumed, bookCost, fee) ← consumeLevels feeModel (eligibleLevels levels limit) filled
  let haircut ← divide (fee * haircutPpm) ppmDenominator .overstateCost
  return ⟨consumed, ⟨filled⟩, ⟨bookCost⟩, ⟨fee⟩, ⟨haircut⟩, ⟨bookCost + fee + haircut⟩⟩

/-! ## Resting fills -/

/-- The volume that traded strictly through a limit; a print at the limit is a touch. -/
def throughVolume (limit : PricePips) (prints : List TradePrint) : ℤ :=
  ((prints.filter fun p => p.price < limit).map (·.quantity.value)).sum

/-- How much of a resting buy fills against a stream of prints. -/
def restingFillQuantity (limit : PricePips) (remaining : ContractCentis)
    (prints : List TradePrint) (depthAtOrBetter : ContractCentis) (maxParticipationPpm : ℤ) :
    ContractCentis :=
  ⟨min (min remaining.value (participationCap depthAtOrBetter maxParticipationPpm).value)
    (throughVolume limit prints)⟩

/-- A resting buy in an allocation, in the frame of its side. -/
structure RestingFillRequest where
  limit : PricePips
  remaining : ContractCentis
  depthAtOrBetter : ContractCentis
  deriving DecidableEq, Repr

/-- Positions of a list, the greatest key first and equal keys in their order. -/
def greatestFirst {α : Type} (key : α → ℤ) (xs : List α) : List ℕ :=
  (List.range xs.length).insertionSort fun i j =>
    ((xs[j]?).map key).getD 0 ≤ ((xs[i]?).map key).getD 0

/-- Draw an amount from the prints at some positions that trade through a limit. -/
def drawPrints (limit : PricePips) : List ℕ → List TradePrint → ℤ → List TradePrint
  | [], pool, _ => pool
  | i :: rest, pool, remaining =>
    if remaining ≤ 0 then pool
    else
      match pool[i]? with
      | none => drawPrints limit rest pool remaining
      | some p =>
        if limit ≤ p.price ∨ p.quantity.value ≤ 0 then drawPrints limit rest pool remaining
        else
          let take := min remaining p.quantity.value
          drawPrints limit rest (pool.set i { p with quantity := ⟨p.quantity.value - take⟩ })
            (remaining - take)

/-- Prints with an amount of trade-through volume removed, the highest price first. -/
def consumeThroughPrints (prints : List TradePrint) (limit : PricePips) (amount : ℤ) :
    List TradePrint :=
  drawPrints limit (greatestFirst (·.price.value) prints) prints amount

/-- Serve the requests at some positions from one shrinking pool. -/
def allocateEach (requests : List RestingFillRequest) (maxParticipationPpm : ℤ) :
    List ℕ → List TradePrint → List ContractCentis → List ContractCentis
  | [], _, fills => fills
  | i :: rest, pool, fills =>
    match requests[i]? with
    | none => allocateEach requests maxParticipationPpm rest pool fills
    | some request =>
      let fill := restingFillQuantity request.limit request.remaining pool
        request.depthAtOrBetter maxParticipationPpm
      allocateEach requests maxParticipationPpm rest
        (consumeThroughPrints pool request.limit fill.value) (fills.set i fill)

/-- Allocate the trade-through volume of a step across resting buys, the most aggressive limit
first. -/
def allocateRestingFills (requests : List RestingFillRequest) (prints : List TradePrint)
    (maxParticipationPpm : ℤ) : List ContractCentis :=
  allocateEach requests maxParticipationPpm (greatestFirst (·.limit.value) requests) prints
    (List.replicate requests.length ⟨0⟩)

/-- When the last print through a limit printed. -/
def tradeThroughFillTs (limit : PricePips) (prints : List TradePrint) : Except String ℤ :=
  match ((prints.filter fun p => p.price < limit).map (·.ts)).max? with
  | some ts => .ok ts
  | none => .error "no trade-through print: a resting fill did not occur"

/-! ## What a walk takes -/

/-- The depth that a walk can take. -/
def takeableDepth (levels : List OrderBookLevel) : ℤ :=
  (levels.map fun level => max level.quantity.value 0).sum

theorem takeableDepth_nonneg (levels : List OrderBookLevel) : 0 ≤ takeableDepth levels := by
  induction levels with
  | nil => exact le_refl 0
  | cons level rest ih =>
      simp only [takeableDepth, List.map_cons, List.sum_cons] at ih ⊢
      omega

/-- What a walk takes: slices of positive size of levels it walks, each priced. -/
structure SliceOf (feeModel : FeeModel) (levels : List OrderBookLevel) (slice : OrderBookLevel) :
    Prop where
  level : ∃ level ∈ levels, slice.price = level.price
  positive : 0 < slice.quantity.value
  priced : 0 ≤ slice.price.value ∧ slice.price.value ≤ pipsPerDollar

theorem SliceOf.cons {feeModel : FeeModel} {levels : List OrderBookLevel} {slice : OrderBookLevel}
    (h : SliceOf feeModel levels slice) (head : OrderBookLevel) :
    SliceOf feeModel (head :: levels) slice where
  level := by
    obtain ⟨level, hlevel, hprice⟩ := h.level
    exact ⟨level, .tail _ hlevel, hprice⟩
  positive := h.positive
  priced := h.priced

/-- The notional of some slices. -/
def sliceNotional (slices : List OrderBookLevel) : ℤ :=
  (slices.map fun slice => slice.price.value * slice.quantity.value).sum

/-- The fee of some slices, each priced by itself. -/
def sliceFees (feeModel : FeeModel) (slices : List OrderBookLevel) : ℤ :=
  (slices.map fun slice => feeModel.tradingFee slice.price.value slice.quantity.value).sum

/-- **What a walk takes**: slices of the levels it walks, up to its target or to what there is. -/
theorem consumeLevels_ok {feeModel : FeeModel} {levels : List OrderBookLevel} {remaining : ℤ}
    {consumed : List OrderBookLevel} {bookCost fees : ℤ}
    (h : consumeLevels feeModel levels remaining = .ok (consumed, bookCost, fees)) :
    (∀ slice ∈ consumed, SliceOf feeModel levels slice) ∧
      depthOf consumed = min (max remaining 0) (takeableDepth levels) ∧
        bookCost = sliceNotional consumed ∧ fees = sliceFees feeModel consumed := by
  induction levels generalizing remaining consumed bookCost fees with
  | nil =>
      cases h
      refine ⟨fun slice hslice => absurd hslice List.not_mem_nil, ?_, rfl, rfl⟩
      simp [depthOf, takeableDepth]
  | cons level rest ih =>
      have hrest := takeableDepth_nonneg rest
      have htakeable : takeableDepth (level :: rest) =
          max level.quantity.value 0 + takeableDepth rest := by
        simp [takeableDepth]
      rw [consumeLevels] at h
      by_cases hdone : remaining ≤ 0
      · rw [if_pos hdone] at h
        cases h
        refine ⟨fun slice hslice => absurd hslice List.not_mem_nil, ?_, rfl, rfl⟩
        have hnone : depthOf [] = 0 := rfl
        omega
      · rw [if_neg hdone] at h
        by_cases hstale : level.quantity.value ≤ 0
        · rw [if_pos hstale] at h
          obtain ⟨hslices, hdepth, hcost, hfees⟩ := ih h
          exact ⟨fun slice hslice => (hslices slice hslice).cons level, by omega, hcost, hfees⟩
        · rw [if_neg hstale] at h
          obtain ⟨fee, hfee, h⟩ := except_bind_ok.mp h
          obtain ⟨⟨more, moreCost, moreFees⟩, hmore, h⟩ := except_bind_ok.mp h
          cases h
          obtain ⟨hprice, hpositive, hpriced⟩ := FeeModel.maxTradingFeeMicros_ok_iff.mp hfee
          obtain ⟨hslices, hdepth, hcost, hfees⟩ := ih hmore
          refine ⟨fun slice hslice => ?_, ?_, ?_, ?_⟩
          · rcases List.mem_cons.mp hslice with rfl | hslice
            · exact ⟨⟨level, .head _, rfl⟩, hpositive, hprice⟩
            · exact (hslices slice hslice).cons level
          · simp only [depthOf, List.map_cons, List.sum_cons] at hdepth ⊢
            omega
          · rw [hcost]
            simp [sliceNotional]
          · rw [hfees, hpriced]
            simp [sliceFees]

/-- **A taker walk** takes slices at its limit or better, as much of its target as there is. -/
theorem walkTakerFill_ok {levels : List OrderBookLevel} {limit : PricePips}
    {requested : ContractCentis} {feeModel : FeeModel} {haircutPpm maxParticipationPpm : ℤ}
    {result : TakerFillResult}
    (h : walkTakerFill levels limit requested feeModel haircutPpm maxParticipationPpm = .ok result) :
    (∀ slice ∈ result.consumed, slice.price ≤ limit ∧ 0 < slice.quantity.value ∧
        0 ≤ slice.price.value ∧ slice.price.value ≤ pipsPerDollar) ∧
      result.filled.value = takerTarget levels limit requested maxParticipationPpm ∧
        depthOf result.consumed =
          min (max result.filled.value 0) (takeableDepth (eligibleLevels levels limit)) := by
  obtain ⟨⟨consumed, bookCost, fees⟩, hwalk, h⟩ := except_bind_ok.mp h
  obtain ⟨haircut, -, h⟩ := except_bind_ok.mp h
  cases h
  obtain ⟨hslices, hdepth, -, -⟩ := consumeLevels_ok hwalk
  refine ⟨fun slice hslice => ?_, rfl, hdepth⟩
  have hslice := hslices slice hslice
  obtain ⟨level, hlevel, hprice⟩ := hslice.level
  have hlimit : level.price ≤ limit := of_decide_eq_true (List.mem_filter.mp hlevel).2
  exact ⟨hprice ▸ hlimit, hslice.positive, hslice.priced⟩

/-! ## What an allocation hands out -/

/-- What a request is handed: nothing, or no more than is left of it, with a print through its
limit to show for it. -/
def Allocated (prints : List TradePrint) (request : RestingFillRequest) (fill : ContractCentis) :
    Prop :=
  fill.value ≤ 0 ∨
    (fill.value ≤ request.remaining.value ∧ ∃ p ∈ prints, p.price < request.limit)

/-- Every print of a pool was recorded at its price. -/
def PricesFrom (prints pool : List TradePrint) : Prop :=
  ∀ p ∈ pool, ∃ recorded ∈ prints, recorded.price = p.price

theorem drawPrints_pricesFrom {prints : List TradePrint} (limit : PricePips) (order : List ℕ)
    {pool : List TradePrint} (h : PricesFrom prints pool) (remaining : ℤ) :
    PricesFrom prints (drawPrints limit order pool remaining) := by
  induction order generalizing pool remaining with
  | nil => exact h
  | cons i rest ih =>
      rw [drawPrints]
      split
      · exact h
      · split
        · exact ih h remaining
        · rename_i p hp
          split
          · exact ih h remaining
          · refine ih (fun q hq => ?_) _
            rcases List.mem_or_eq_of_mem_set hq with hq | rfl
            · exact h q hq
            · exact h p (List.mem_of_getElem? hp)

theorem exists_through {limit : PricePips} {prints : List TradePrint}
    (h : 0 < throughVolume limit prints) : ∃ p ∈ prints, p.price < limit := by
  by_contra hnone
  have hempty : prints.filter (fun p => p.price < limit) = [] := by
    refine List.filter_eq_nil_iff.mpr fun p hp hthrough => hnone ⟨p, hp, ?_⟩
    exact of_decide_eq_true hthrough
  rw [throughVolume, hempty] at h
  exact absurd h (by decide)

theorem restingFillQuantity_allocated {prints pool : List TradePrint}
    (hpool : PricesFrom prints pool) (request : RestingFillRequest) (maxParticipationPpm : ℤ) :
    Allocated prints request (restingFillQuantity request.limit request.remaining pool
      request.depthAtOrBetter maxParticipationPpm) := by
  by_cases hnone : (restingFillQuantity request.limit request.remaining pool
      request.depthAtOrBetter maxParticipationPpm).value ≤ 0
  · exact .inl hnone
  · have hvolume : 0 < throughVolume request.limit pool := by
      refine lt_of_lt_of_le (not_le.mp hnone) ?_
      exact min_le_right _ _
    obtain ⟨p, hp, hthrough⟩ := exists_through hvolume
    obtain ⟨recorded, hrecorded, hprice⟩ := hpool p hp
    refine .inr ⟨?_, recorded, hrecorded, hprice ▸ hthrough⟩
    exact (min_le_left _ _).trans (min_le_left _ _)

theorem allocateEach_length (requests : List RestingFillRequest) (maxParticipationPpm : ℤ)
    (order : List ℕ) (pool : List TradePrint) (fills : List ContractCentis) :
    (allocateEach requests maxParticipationPpm order pool fills).length = fills.length := by
  induction order generalizing pool fills with
  | nil => rfl
  | cons i rest ih =>
      rw [allocateEach]
      split
      · exact ih pool fills
      · exact (ih _ _).trans List.length_set

theorem allocateEach_allocated {prints : List TradePrint} {requests : List RestingFillRequest}
    (maxParticipationPpm : ℤ) (order : List ℕ) {pool : List TradePrint}
    (hpool : PricesFrom prints pool) {fills : List ContractCentis}
    (hfills : ∀ (i : ℕ) request fill, requests[i]? = some request → fills[i]? = some fill →
      Allocated prints request fill) :
    ∀ (i : ℕ) request fill, requests[i]? = some request →
      (allocateEach requests maxParticipationPpm order pool fills)[i]? = some fill →
        Allocated prints request fill := by
  induction order generalizing pool fills with
  | nil => exact hfills
  | cons i rest ih =>
      rw [allocateEach]
      split
      · exact ih hpool hfills
      · rename_i request hrequest
        refine ih (drawPrints_pricesFrom _ _ hpool _) fun j other fill hother hfill => ?_
        rw [List.getElem?_set] at hfill
        split at hfill
        · rename_i hsame
          subst hsame
          rw [hrequest] at hother
          cases hother
          split at hfill
          · cases hfill
            exact restingFillQuantity_allocated hpool request maxParticipationPpm
          · cases hfill
        · exact hfills j other fill hother hfill

theorem allocateRestingFills_length (requests : List RestingFillRequest)
    (prints : List TradePrint) (maxParticipationPpm : ℤ) :
    (allocateRestingFills requests prints maxParticipationPpm).length = requests.length := by
  rw [allocateRestingFills, allocateEach_length, List.length_replicate]

/-- **An allocation** hands every request nothing, or no more than is left of it. -/
theorem allocateRestingFills_allocated {requests : List RestingFillRequest}
    {prints : List TradePrint} {maxParticipationPpm : ℤ} {i : ℕ} {request : RestingFillRequest}
    {fill : ContractCentis} (hrequest : requests[i]? = some request)
    (hfill : (allocateRestingFills requests prints maxParticipationPpm)[i]? = some fill) :
    Allocated prints request fill := by
  refine allocateEach_allocated maxParticipationPpm _ (fun p hp => ⟨p, hp, rfl⟩) ?_ i request fill
    hrequest hfill
  intro j other zero _ hzero
  rw [List.getElem?_replicate] at hzero
  split at hzero
  · cases hzero
    exact .inl (le_refl _)
  · cases hzero

theorem tradeThroughFillTs_ok {limit : PricePips} {prints : List TradePrint}
    (h : ∃ p ∈ prints, p.price < limit) : ∃ ts, tradeThroughFillTs limit prints = .ok ts := by
  unfold tradeThroughFillTs
  cases hmax : ((prints.filter fun p => p.price < limit).map (·.ts)).max? with
  | some ts => exact ⟨ts, rfl⟩
  | none =>
      obtain ⟨p, hp, hthrough⟩ := h
      have hempty := List.map_eq_nil_iff.mp (List.max?_eq_none_iff.mp hmax)
      have hmem : p ∈ prints.filter fun p => p.price < limit :=
        List.mem_filter.mpr ⟨hp, decide_eq_true hthrough⟩
      rw [hempty] at hmem
      exact absurd hmem List.not_mem_nil

end Windbreak
