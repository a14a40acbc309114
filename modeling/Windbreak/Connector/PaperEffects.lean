import Windbreak.Core.Sums
import Windbreak.Connector.Paper

/-!
# What the operations of the paper exchange do

* **`placeOrder_ok`** — a placement takes slices at its limit or better, logs one fill for each, and
  rests what is left of its target.
* **`advance_ok`** — a step of the recording never raises; what it takes from the resting orders it
  logs as fills of theirs, at their limits.
-/

namespace Windbreak

open Effects Sums

/-! ## Amounts -/

/-- A fill of a resting order. -/
abbrev FillOf (orderId : String) (fill : Fill) : Prop := fill.orderId = some orderId

/-- A resting order by its id. -/
abbrev HasId (orderId : String) (order : RestingOrder) : Prop := order.id = orderId

/-- What some fills gave a resting order. -/
def filledUnder (orderId : String) (fills : List Fill) : ℤ :=
  sumWhere (FillOf orderId) (fun fill => fill.quantity.value) fills

/-- What rests under an order id. -/
def restsUnder (orderId : String) (orders : List RestingOrder) : ℤ :=
  sumWhere (HasId orderId) (fun order => order.quantity.value) orders

namespace PaperExchange

/-! ## Numbers -/

/-- Fills and orders are numbered as they come, and what rests once came to rest. -/
structure Numbering (x : PaperExchange) : Prop where
  fills : x.fills.map (·.id) = Numbered.upTo "paper-fill-" x.fillSeq
  rested : x.rested.map (·.id) = Numbered.upTo "paper-order-" x.orderSeq
  resting : (x.resting.map (·.id)).Sublist (x.rested.map (·.id))

theorem fresh_numbering : fresh.Numbering where
  fills := rfl
  rested := rfl
  resting := List.Sublist.slnil

namespace Numbering

variable {x : PaperExchange}

theorem fill_ids_nodup (h : x.Numbering) : (x.fills.map (·.id)).Nodup := by
  rw [h.fills]
  exact Numbered.upTo_nodup _ _

theorem rested_ids_nodup (h : x.Numbering) : (x.rested.map (·.id)).Nodup := by
  rw [h.rested]
  exact Numbered.upTo_nodup _ _

theorem resting_ids_nodup (h : x.Numbering) : (x.resting.map (·.id)).Nodup :=
  h.resting.nodup h.rested_ids_nodup

end Numbering

/-! ## Fills -/

/-- New fills are logged and numbered; no order comes to rest. -/
structure Logs (x y : PaperExchange) (new : List Fill) : Prop where
  fills : y.fills = x.fills ++ new
  rested : y.rested = x.rested
  orderSeq : y.orderSeq = x.orderSeq
  numbered : x.fills.map (·.id) = Numbered.upTo "paper-fill-" x.fillSeq →
    y.fills.map (·.id) = Numbered.upTo "paper-fill-" y.fillSeq

theorem Logs.refl (x : PaperExchange) : Logs x x [] := ⟨by simp, rfl, rfl, id⟩

theorem Logs.trans {x y z : PaperExchange} {new more : List Fill} (h : Logs x y new)
    (h' : Logs y z more) : Logs x z (new ++ more) where
  fills := by rw [h'.fills, h.fills, List.append_assoc]
  rested := h'.rested.trans h.rested
  orderSeq := h'.orderSeq.trans h.orderSeq
  numbered := fun hx => h'.numbered (h.numbered hx)

/-- New fills are logged and numbered, and nothing else moves. -/
structure Emits (x y : PaperExchange) (new : List Fill) : Prop extends Logs x y new where
  resting : y.resting = x.resting
  cursor : y.cursor = x.cursor

theorem Emits.refl (x : PaperExchange) : Emits x x [] := ⟨.refl x, rfl, rfl⟩

theorem Emits.trans {x y z : PaperExchange} {new more : List Fill} (h : Emits x y new)
    (h' : Emits y z more) : Emits x z (new ++ more) :=
  ⟨h.toLogs.trans h'.toLogs, h'.resting.trans h.resting, h'.cursor.trans h.cursor⟩

theorem emitFill_emits (x : PaperExchange) (ticker : String) (side : Side) (price : PricePips)
    (quantity : ContractCentis) (ts : ℤ) (orderId : Option String) :
    Emits x (x.emitFill ticker side price quantity ts orderId).2
      [(x.emitFill ticker side price quantity ts orderId).1] where
  fills := rfl
  rested := rfl
  orderSeq := rfl
  numbered hx := by
    unfold emitFill
    rw [List.map_append, hx, Numbered.upTo_succ]
    rfl
  resting := rfl
  cursor := rfl

/-- **The fills of a taker walk** are its slices. -/
theorem emitTakerFills_emits (intent : PaperOrderIntent) (fetchedAt : ℤ) (x : PaperExchange)
    (slices : List OrderBookLevel) :
    Emits x (emitTakerFills intent fetchedAt x slices).2
        (emitTakerFills intent fetchedAt x slices).1 ∧
      (emitTakerFills intent fetchedAt x slices).1.map (fun fill =>
          (fill.ticker, fill.side, fill.price, fill.quantity, fill.ts, fill.orderId)) =
        slices.map fun slice =>
          (intent.ticker, intent.side.name, slice.price, slice.quantity, fetchedAt, none) := by
  induction slices generalizing x with
  | nil => exact ⟨.refl x, rfl⟩
  | cons slice rest ih =>
      have hfirst := emitFill_emits x intent.ticker intent.side slice.price slice.quantity fetchedAt
        none
      obtain ⟨hmore, hslices⟩ := ih
        (x.emitFill intent.ticker intent.side slice.price slice.quantity fetchedAt none).2
      refine ⟨hfirst.trans hmore, ?_⟩
      rw [emitTakerFills, List.map_cons, List.map_cons, hslices]
      rfl

/-! ## A placement -/

/-- What is left of an order rests under the next number, or nothing is left. -/
inductive Rests (intent : PaperOrderIntent) (remainder : ℤ) (x y : PaperExchange) :
    Option RestingOrder → Prop where
  | nothing (hnone : remainder ≤ 0) (hsame : y = x) : Rests intent remainder x y none
  | remainder (order : RestingOrder) (hsome : 0 < remainder)
      (hid : order.id = Numbered.name "paper-order-" (x.orderSeq + 1))
      (hticker : order.ticker = intent.ticker) (hside : order.side = intent.side)
      (hprice : order.price = intent.price) (hquantity : order.quantity.value = remainder)
      (hafter : y = { x with orderSeq := x.orderSeq + 1, resting := x.resting ++ [order],
                             rested := x.rested ++ [order] }) :
      Rests intent remainder x y (some order)

theorem restRemainder_rests (x : PaperExchange) (intent : PaperOrderIntent) (remainder : ℤ) :
    Rests intent remainder x (x.restRemainder intent remainder).2
      (x.restRemainder intent remainder).1 := by
  unfold restRemainder
  by_cases hnone : remainder ≤ 0
  · rw [if_pos hnone]
    exact .nothing hnone rfl
  · rw [if_neg hnone]
    exact .remainder _ (not_le.mp hnone) rfl rfl rfl rfl rfl rfl

/-- A fill of a taker walk: at the limit or better, of a positive size, at a price within the
payout. -/
structure TakerFill (intent : PaperOrderIntent) (fetchedAt : ℤ) (fill : Fill) : Prop where
  ticker : fill.ticker = intent.ticker
  side : fill.side = intent.side.name
  limit : fill.price ≤ intent.price
  positive : 0 < fill.quantity.value
  priced : 0 ≤ fill.price.value ∧ fill.price.value ≤ pipsPerDollar
  ts : fill.ts = fetchedAt
  orderId : fill.orderId = none

/-- What an order may take of a book, and what there is for it to take. -/
def targetOf (cfg : PaperFixture) (intent : PaperOrderIntent) (step : SessionStep) : ℤ :=
  takerTarget (takerLevels intent step.book) intent.price intent.quantity cfg.maxParticipationPpm

def takeableOf (intent : PaperOrderIntent) (step : SessionStep) : ℤ :=
  takeableDepth (eligibleLevels (takerLevels intent step.book) intent.price)

/-- What a placement did. -/
structure Placement (cfg : PaperFixture) (intent : PaperOrderIntent) (step : SessionStep)
    (x y : PaperExchange) (placement : PaperPlacement) : Prop where
  fills : ∀ fill ∈ placement.fills, TakerFill intent step.book.fetchedAt fill
  taken : (placement.fills.map (·.quantity.value)).sum =
    min (max (targetOf cfg intent step) 0) (takeableOf intent step)
  priced : ∃ model, getFeeModel cfg intent.ticker = .ok model
  effect : ∃ z, Emits x z placement.fills ∧
    Rests intent (intent.quantity.value - targetOf cfg intent step) z y placement.restingOrder

/-- **What a placement adds**: the fills of its receipt to the log, and the order of its receipt, if
there is one, to what rests, under a new id. -/
structure Adds (intent : PaperOrderIntent) (remainder : ℤ) (x y : PaperExchange)
    (placement : PaperPlacement) : Prop where
  fills : y.fills = x.fills ++ placement.fills
  resting : y.resting = x.resting ++ placement.restingOrder.toList
  rested : y.rested = x.rested ++ placement.restingOrder.toList
  numbering : x.Numbering → y.Numbering
  fresh : x.Numbering → ∀ order ∈ placement.restingOrder, order.id ∉ x.rested.map (·.id)
  order : ∀ order ∈ placement.restingOrder, order.ticker = intent.ticker ∧
    order.side = intent.side ∧ order.price = intent.price ∧ order.quantity.value = remainder ∧
      0 < remainder
  nothing : placement.restingOrder = none → remainder ≤ 0

theorem Placement.adds {cfg : PaperFixture} {intent : PaperOrderIntent} {step : SessionStep}
    {x y : PaperExchange} {placement : PaperPlacement} (h : Placement cfg intent step x y placement) :
    Adds intent (intent.quantity.value - targetOf cfg intent step) x y placement := by
  obtain ⟨z, hemits, hrests⟩ := h.effect
  obtain ⟨fills, restingOrder⟩ := placement
  cases hrests with
  | nothing hnone hsame =>
      subst hsame
      refine ⟨hemits.fills, by simp [hemits.resting], by simp [hemits.rested], fun hx => ?_,
        fun _ order horder => absurd horder (by simp), fun order horder => absurd horder (by simp),
        fun _ => hnone⟩
      exact ⟨hemits.numbered hx.fills, by rw [hemits.rested, hemits.orderSeq]; exact hx.rested,
        by rw [hemits.resting, hemits.rested]; exact hx.resting⟩
  | remainder order hsome hid hticker hside hprice hquantity hafter =>
      subst hafter
      have hname : order.id = Numbered.name "paper-order-" (x.orderSeq + 1) := by
        rw [hid, hemits.orderSeq]
      refine ⟨hemits.fills, by simp [hemits.resting], by simp [hemits.rested], fun hx => ?_,
        fun hx o ho => ?_, fun o ho => ?_, fun hnone => absurd hnone (by simp)⟩
      · refine ⟨hemits.numbered hx.fills, ?_, ?_⟩
        · dsimp only
          rw [List.map_append, hemits.rested, hx.rested, hemits.orderSeq, Numbered.upTo_succ,
            List.map_singleton, hname]
        · dsimp only
          rw [List.map_append, List.map_append, hemits.resting, hemits.rested]
          exact hx.resting.append (List.Sublist.refl _)
      · cases ho
        rw [hx.rested, hname]
        exact Numbered.name_not_mem_upTo _ _
      · cases ho
        exact ⟨hticker, hside, hprice, hquantity, hsome⟩

theorem mapError_ok {α : Type} {x : Except String α} {a : α}
    (h : x.mapError PaperError.valueError = .ok a) : x = .ok a := by
  cases x with
  | error e => cases h
  | ok b =>
      cases h
      rfl

/-- **What a quantity is charged at a price**: its notional and its fee, when there is a schedule, the
price is within the payout and the quantity positive. -/
theorem orderCashMicros_ok_iff {cfg : PaperFixture} {ticker : String} {price : PricePips}
    {quantity : ContractCentis} {cash : ℤ} :
    orderCashMicros cfg ticker price quantity = .ok cash ↔
      ∃ model, getFeeModel cfg ticker = .ok model ∧
        ((0 ≤ price.value ∧ price.value ≤ pipsPerDollar) ∧ 0 < quantity.value) ∧
          cash = price.value * quantity.value + model.tradingFee price.value quantity.value := by
  constructor
  · intro h
    obtain ⟨model, hmodel, h⟩ := except_bind_ok.mp h
    obtain ⟨fee, hfee, h⟩ := except_bind_ok.mp h
    obtain ⟨hprice, hpositive, rfl⟩ := FeeModel.maxTradingFeeMicros_ok_iff.mp (mapError_ok hfee)
    cases h
    exact ⟨model, hmodel, ⟨hprice, hpositive⟩, by rw [moneyFromPriceAndCount_value]⟩
  · rintro ⟨model, hmodel, ⟨hprice, hpositive⟩, rfl⟩
    have hfee : model.maxTradingFeeMicros price.value quantity.value =
        .ok (model.tradingFee price.value quantity.value) :=
      FeeModel.maxTradingFeeMicros_ok_iff.mpr ⟨hprice, hpositive, rfl⟩
    refine except_bind_ok.mpr ⟨model, hmodel, except_bind_ok.mpr ⟨_, by rw [hfee]; rfl, ?_⟩⟩
    rw [moneyFromPriceAndCount_value]
    rfl

/-- **What a placement does**: it takes slices at its limit or better, logs one fill for each, and
rests what is left of its target. -/
theorem placeOrder_ok {cfg : PaperFixture} {x y : PaperExchange} {intent : PaperOrderIntent}
    {placement : PaperPlacement} (h : x.placeOrder cfg intent = .ok (placement, y)) :
    ∃ step, x.currentStep cfg intent.ticker = .ok step ∧
      Placement cfg intent step x y placement := by
  obtain ⟨step, hstep, h⟩ := except_bind_ok.mp h
  obtain ⟨model, hmodel, h⟩ := except_bind_ok.mp h
  obtain ⟨result, hwalk, h⟩ := except_bind_ok.mp h
  cases h
  obtain ⟨hslices, htarget, htaken⟩ := walkTakerFill_ok (mapError_ok hwalk)
  obtain ⟨hemits, hfills⟩ :=
    emitTakerFills_emits intent step.book.fetchedAt x result.consumed
  have hrests := restRemainder_rests
    (emitTakerFills intent step.book.fetchedAt x result.consumed).2 intent
      (intent.quantity.value - result.filled.value)
  refine ⟨step, hstep, fun fill hfill => ?_, ?_, ⟨model, hmodel⟩, _, hemits, ?_⟩
  · have hmem := List.mem_map_of_mem (f := fun fill : Fill =>
      (fill.ticker, fill.side, fill.price, fill.quantity, fill.ts, fill.orderId)) hfill
    rw [hfills] at hmem
    obtain ⟨slice, hslice, heq⟩ := List.mem_map.mp hmem
    obtain ⟨hlimit, hpositive, hpriced⟩ := hslices slice hslice
    obtain ⟨hticker, hside, hprice, hquantity, hts, horder⟩ : intent.ticker = fill.ticker ∧
        intent.side.name = fill.side ∧ slice.price = fill.price ∧ slice.quantity = fill.quantity ∧
          step.book.fetchedAt = fill.ts ∧ none = fill.orderId := by simpa using heq
    exact ⟨hticker.symm, hside.symm, hprice ▸ hlimit, hquantity ▸ hpositive, hprice ▸ hpriced,
      hts.symm, horder.symm⟩
  · have hquantities := congrArg (List.map fun entry => entry.2.2.2.1.value) hfills
    rw [List.map_map, List.map_map] at hquantities
    have hdepth : ((emitTakerFills intent step.book.fetchedAt x result.consumed).1.map
        (·.quantity.value)).sum = depthOf result.consumed := congrArg List.sum hquantities
    rw [hdepth, htaken, htarget]
    rfl
  · rw [targetOf, ← htarget]
    exact hrests

/-! ## A step of the recording -/

/-- A fill of a resting order: at its limit, of a positive size. -/
structure RestingFill (order : RestingOrder) (fill : Fill) : Prop where
  orderId : fill.orderId = some order.id
  ticker : fill.ticker = order.ticker
  side : fill.side = order.side.name
  price : fill.price = order.price
  positive : 0 < fill.quantity.value

/-- What is left of an order: the order, with some of its quantity. -/
structure Remains (order survivor : RestingOrder) : Prop where
  id : survivor.id = order.id
  ticker : survivor.ticker = order.ticker
  side : survivor.side = order.side
  price : survivor.price = order.price
  positive : 0 < order.quantity.value → 0 < survivor.quantity.value

theorem Remains.refl (order : RestingOrder) : Remains order order :=
  ⟨rfl, rfl, rfl, rfl, fun h => h⟩

theorem Remains.trans {a b c : RestingOrder} (h : Remains a b) (h' : Remains b c) : Remains a c :=
  ⟨h'.id.trans h.id, h'.ticker.trans h.ticker, h'.side.trans h.side, h'.price.trans h.price,
    fun ha => h'.positive (h.positive ha)⟩

/-- **What is served**: what some orders lose is what their fills gave them. -/
structure Served (orders survivors : List RestingOrder) (new : List Fill) : Prop where
  balance : ∀ orderId,
    filledUnder orderId new + restsUnder orderId survivors = restsUnder orderId orders
  source : ∀ fill ∈ new, ∃ order ∈ orders, RestingFill order fill
  kept : ∀ survivor ∈ survivors, ∃ order ∈ orders, Remains order survivor
  ids : (survivors.map (·.id)).Sublist (orders.map (·.id))

theorem filledUnder_append (orderId : String) (fills more : List Fill) :
    filledUnder orderId (fills ++ more) = filledUnder orderId fills + filledUnder orderId more :=
  sumWhere_append more

theorem restsUnder_append (orderId : String) (orders more : List RestingOrder) :
    restsUnder orderId (orders ++ more) = restsUnder orderId orders + restsUnder orderId more :=
  sumWhere_append more

namespace Served

theorem refl (orders : List RestingOrder) : Served orders orders [] where
  balance _ := Int.zero_add _
  source _ hfill := absurd hfill List.not_mem_nil
  kept survivor h := ⟨survivor, h, .refl survivor⟩
  ids := List.Sublist.refl _

theorem trans {a b c : List RestingOrder} {new more : List Fill} (h : Served a b new)
    (h' : Served b c more) : Served a c (new ++ more) where
  balance orderId := by
    have hfirst := h.balance orderId
    have hsecond := h'.balance orderId
    rw [filledUnder_append]
    omega
  source fill hfill := by
    rcases List.mem_append.mp hfill with hfill | hfill
    · exact h.source fill hfill
    · obtain ⟨mid, hmid, hfilled⟩ := h'.source fill hfill
      obtain ⟨order, horder, hkept⟩ := h.kept mid hmid
      exact ⟨order, horder, hfilled.orderId.trans (congrArg some hkept.id),
        hfilled.ticker.trans hkept.ticker, hfilled.side.trans (congrArg Side.name hkept.side),
        hfilled.price.trans hkept.price, hfilled.positive⟩
  kept survivor hsurvivor := by
    obtain ⟨mid, hmid, hlast⟩ := h'.kept survivor hsurvivor
    obtain ⟨order, horder, hkept⟩ := h.kept mid hmid
    exact ⟨order, horder, hkept.trans hlast⟩
  ids := h'.ids.trans h.ids

theorem append {a b a' b' : List RestingOrder} {new more : List Fill} (h : Served a b new)
    (h' : Served a' b' more) : Served (a ++ a') (b ++ b') (new ++ more) where
  balance orderId := by
    have hfirst := h.balance orderId
    have hsecond := h'.balance orderId
    rw [filledUnder_append, restsUnder_append, restsUnder_append]
    omega
  source fill hfill := by
    rcases List.mem_append.mp hfill with hfill | hfill
    · obtain ⟨order, horder, hfilled⟩ := h.source fill hfill
      exact ⟨order, List.mem_append_left _ horder, hfilled⟩
    · obtain ⟨order, horder, hfilled⟩ := h'.source fill hfill
      exact ⟨order, List.mem_append_right _ horder, hfilled⟩
  kept survivor hsurvivor := by
    rcases List.mem_append.mp hsurvivor with hsurvivor | hsurvivor
    · obtain ⟨order, horder, hkept⟩ := h.kept survivor hsurvivor
      exact ⟨order, List.mem_append_left _ horder, hkept⟩
    · obtain ⟨order, horder, hkept⟩ := h'.kept survivor hsurvivor
      exact ⟨order, List.mem_append_right _ horder, hkept⟩
  ids := by
    rw [List.map_append, List.map_append]
    exact h.ids.append h'.ids

end Served

/-- An order is handed something of a step, and no more than is left of it. -/
def Handed (step : SessionStep) (filled : List (String × ContractCentis)) (order : RestingOrder) :
    Prop :=
  ∃ quantity, filled.lookup order.id = some quantity ∧
    Allocated (sidePrints order.side step) (restingRequest step order) quantity

/-- **Filling one order** with what it is handed. -/
theorem applyRestingFill_ok (x : PaperExchange) {order : RestingOrder} {step : SessionStep}
    {quantity : ContractCentis}
    (h : Allocated (sidePrints order.side step) (restingRequest step order) quantity) :
    ∃ survivor y new, x.applyRestingFill order step quantity = .ok (survivor, y) ∧
      Emits x y new ∧ Served [order] survivor.toList new := by
  unfold applyRestingFill
  by_cases hnone : quantity.value ≤ 0
  · rw [if_pos hnone]
    exact ⟨some order, x, [], rfl, .refl x, .refl [order]⟩
  · rw [if_neg hnone]
    obtain ⟨hle, hthrough⟩ := h.resolve_left hnone
    obtain ⟨ts, hts⟩ := tradeThroughFillTs_ok hthrough
    have hemits := x.emitFill_emits order.ticker order.side order.price quantity ts (some order.id)
    have hlimit : (restingRequest step order).limit = order.price := rfl
    have hquantity : quantity.value ≤ order.quantity.value := hle
    rw [hlimit] at hts
    rw [hts]
    refine ⟨_, _, _, rfl, hemits, fun orderId => ?_, fun fill hfill => ?_, fun survivor hs => ?_, ?_⟩
    · have hfilled : filledUnder orderId [(x.emitFill order.ticker order.side order.price quantity ts
          (some order.id)).1] = if order.id = orderId then quantity.value else 0 := by
        simp [filledUnder, FillOf, emitFill]
      have horder : restsUnder orderId [order] =
          if order.id = orderId then order.quantity.value else 0 := by
        simp [restsUnder]
      rw [hfilled, horder]
      by_cases hdone : order.quantity.value - quantity.value ≤ 0
      · rw [if_pos hdone]
        have hempty : restsUnder orderId (none : Option RestingOrder).toList = 0 := rfl
        rw [hempty]
        split <;> omega
      · rw [if_neg hdone]
        have hleft : restsUnder orderId
            (some { order with quantity := ⟨order.quantity.value - quantity.value⟩ }).toList =
              if order.id = orderId then order.quantity.value - quantity.value else 0 := by
          simp [restsUnder]
        rw [hleft]
        split <;> omega
    · rw [List.mem_singleton.mp hfill]
      exact ⟨order, List.mem_singleton.mpr rfl, rfl, rfl, rfl, rfl, not_le.mp hnone⟩
    · by_cases hdone : order.quantity.value - quantity.value ≤ 0
      · rw [if_pos hdone] at hs
        cases hs
      · rw [if_neg hdone] at hs
        rw [List.mem_singleton.mp hs]
        exact ⟨order, List.mem_singleton.mpr rfl, rfl, rfl, rfl, rfl, fun _ => not_le.mp hdone⟩
    · by_cases hdone : order.quantity.value - quantity.value ≤ 0
      · rw [if_pos hdone]
        exact List.nil_sublist _
      · rw [if_neg hdone]
        exact List.Sublist.refl _

/-- **Filling the orders of a ticker**, each with what it is handed. -/
theorem applyEach_ok {ticker : String} {step : SessionStep}
    {filled : List (String × ContractCentis)} (x : PaperExchange) {orders : List RestingOrder}
    (h : ∀ order ∈ orders, order.ticker = ticker → Handed step filled order) :
    ∃ survivors y new, applyEach ticker step filled x orders = .ok (survivors, y) ∧
      Emits x y new ∧ Served orders survivors new := by
  induction orders generalizing x with
  | nil => exact ⟨[], x, [], rfl, .refl x, .refl []⟩
  | cons order rest ih =>
      have hrest := fun o ho => h o (.tail _ ho)
      rw [applyEach]
      by_cases hother : order.ticker ≠ ticker
      · obtain ⟨survivors, y, new, hrun, hemits, hserved⟩ := ih x hrest
        rw [if_pos hother, hrun]
        exact ⟨order :: survivors, y, new, rfl, hemits,
          (Served.refl [order]).append hserved⟩
      · obtain ⟨quantity, hlookup, hallocated⟩ := h order (.head _) (not_not.mp hother)
        obtain ⟨survivor, y, new, hrun, hemits, hserved⟩ := x.applyRestingFill_ok hallocated
        obtain ⟨survivors, z, more, hmore, hemits', hserved'⟩ := ih y hrest
        rw [if_neg hother, hlookup]
        dsimp only
        rw [hrun]
        refine ⟨survivor.toList ++ survivors, z, new ++ more, ?_, hemits.trans hemits',
          hserved.append hserved'⟩
        exact except_bind_ok.mpr ⟨_, rfl, except_bind_ok.mpr ⟨_, hmore, rfl⟩⟩

/-! ## What a step hands out -/

theorem allocateSide_keys (cfg : PaperFixture) (x : PaperExchange) (ticker : String)
    (step : SessionStep) (side : Side) :
    (x.allocateSide cfg ticker step side).map Prod.fst =
      (x.resting.filter fun order => order.ticker = ticker ∧ order.side = side).map (·.id) := by
  refine List.map_fst_zip ?_
  rw [allocateRestingFills_length, List.length_map, List.length_map]

/-- The allocation of a side hands something to every order on it. -/
theorem allocateSide_allocated (cfg : PaperFixture) {x : PaperExchange} {ticker : String}
    (step : SessionStep) {side : Side} {order : RestingOrder} (horder : order ∈ x.resting)
    (hticker : order.ticker = ticker) (hside : order.side = side) :
    ∃ quantity, (order.id, quantity) ∈ x.allocateSide cfg ticker step side ∧
      Allocated (sidePrints side step) (restingRequest step order) quantity := by
  set orders := x.resting.filter fun order => order.ticker = ticker ∧ order.side = side with horders
  have hmem : order ∈ orders :=
    List.mem_filter.mpr ⟨horder, decide_eq_true ⟨hticker, hside⟩⟩
  obtain ⟨i, hi⟩ := List.mem_iff_getElem?.mp hmem
  have hlength : (allocateRestingFills (orders.map (restingRequest step)) (sidePrints side step)
      cfg.maxParticipationPpm).length = orders.length := by
    rw [allocateRestingFills_length, List.length_map]
  have hbound : i < orders.length := by
    by_contra hout
    rw [List.getElem?_eq_none (not_lt.mp hout)] at hi
    cases hi
  obtain ⟨quantity, hquantity⟩ : ∃ quantity, (allocateRestingFills
      (orders.map (restingRequest step)) (sidePrints side step)
        cfg.maxParticipationPpm)[i]? = some quantity :=
    ⟨_, List.getElem?_eq_getElem (hlength ▸ hbound)⟩
  have hrequest : (orders.map (restingRequest step))[i]? = some (restingRequest step order) := by
    rw [List.getElem?_map, hi]
    rfl
  refine ⟨quantity, List.mem_iff_getElem?.mpr ⟨i, ?_⟩,
    allocateRestingFills_allocated hrequest hquantity⟩
  rw [allocateSide, List.getElem?_zip_eq_some]
  refine ⟨?_, hquantity⟩
  rw [List.getElem?_map, ← horders, hi]
  rfl

theorem allocateResting_keys_nodup {x : PaperExchange} (hids : (x.resting.map (·.id)).Nodup)
    (cfg : PaperFixture) (ticker : String) (step : SessionStep) :
    ((x.allocateResting cfg ticker step).map Prod.fst).Nodup := by
  have hside : ∀ side, ((x.resting.filter fun order =>
      order.ticker = ticker ∧ order.side = side).map (·.id)).Nodup := fun side =>
    (List.filter_sublist.map _).nodup hids
  rw [allocateResting, List.map_append, allocateSide_keys, allocateSide_keys]
  refine List.nodup_append'.mpr ⟨hside .yes, hside .no, fun id hyes hno => ?_⟩
  obtain ⟨a, ha, rfl⟩ := List.mem_map.mp hyes
  obtain ⟨b, hb, hsame⟩ := List.mem_map.mp hno
  obtain ⟨hares, hayes⟩ := List.mem_filter.mp ha
  obtain ⟨hbres, hbno⟩ := List.mem_filter.mp hb
  have heq : b = a := List.inj_on_of_nodup_map hids hbres hares hsame
  have hyes' := (of_decide_eq_true hayes).2
  have hno' := (of_decide_eq_true hbno).2
  rw [heq, hyes'] at hno'
  cases hno'

/-- **Every order of a ticker is handed something of a step.** -/
theorem allocateResting_handed {x : PaperExchange} (hids : (x.resting.map (·.id)).Nodup)
    (cfg : PaperFixture) {ticker : String} (step : SessionStep) {order : RestingOrder}
    (horder : order ∈ x.resting) (hticker : order.ticker = ticker) :
    Handed step (x.allocateResting cfg ticker step) order := by
  obtain ⟨quantity, hmem, hallocated⟩ := allocateSide_allocated cfg step horder hticker
    rfl
  refine ⟨quantity, ?_, hallocated⟩
  let handed : OrderedDict String ContractCentis :=
    ⟨x.allocateResting cfg ticker step, allocateResting_keys_nodup hids cfg ticker step⟩
  have hitem : (order.id, quantity) ∈ handed.items := by
    cases hside : order.side with
    | yes =>
        rw [hside] at hmem
        exact List.mem_append_left _ hmem
    | no =>
        rw [hside] at hmem
        exact List.mem_append_right _ hmem
  exact OrderedDict.mem_items_iff.mp hitem

/-! ## Advancing -/

/-- What replaying steps does: it serves the resting orders, and logs the fills. -/
def Serves (x y : PaperExchange) : Prop := ∃ new, Logs x y new ∧ Served x.resting y.resting new

theorem Serves.refl (x : PaperExchange) : Serves x x := ⟨[], .refl x, .refl _⟩

theorem Serves.stepped (x : PaperExchange) (ticker : String) : Serves x (x.stepped ticker) :=
  ⟨[], ⟨by simp [PaperExchange.stepped], rfl, rfl, id⟩, .refl _⟩

theorem Serves.trans {x y z : PaperExchange} (h : Serves x y) (h' : Serves y z) : Serves x z := by
  obtain ⟨new, hlogs, hserved⟩ := h
  obtain ⟨more, hlogs', hserved'⟩ := h'
  exact ⟨new ++ more, hlogs.trans hlogs', hserved.trans hserved'⟩

theorem Serves.ids_nodup {x y : PaperExchange} (h : Serves x y)
    (hids : (x.resting.map (·.id)).Nodup) : (y.resting.map (·.id)).Nodup := by
  obtain ⟨new, -, hserved⟩ := h
  exact hserved.ids.nodup hids

theorem Serves.numbering {x y : PaperExchange} (h : Serves x y) (hx : x.Numbering) :
    y.Numbering := by
  obtain ⟨new, hlogs, hserved⟩ := h
  refine ⟨hlogs.numbered hx.fills, ?_, ?_⟩
  · rw [hlogs.rested, hlogs.orderSeq]
    exact hx.rested
  · rw [hlogs.rested]
    exact hserved.ids.trans hx.resting

theorem processRestingFills_ok {x : PaperExchange} (hids : (x.resting.map (·.id)).Nodup)
    (cfg : PaperFixture) (ticker : String) (step : SessionStep) :
    ∃ y, x.processRestingFills cfg ticker step = .ok y ∧ Serves x y := by
  obtain ⟨survivors, y, new, hrun, hemits, hserved⟩ := applyEach_ok x fun order horder hticker =>
    allocateResting_handed hids cfg step horder hticker
  refine ⟨{ y with resting := survivors }, except_bind_ok.mpr ⟨_, hrun, rfl⟩, new, ?_, hserved⟩
  exact ⟨hemits.fills, hemits.rested, hemits.orderSeq, hemits.numbered⟩

/-- **A step of the recording never raises**, and serves the resting orders. -/
theorem advanceEach_ok (cfg : PaperFixture) (sessions : List (String × List SessionStep))
    {x : PaperExchange} (hids : (x.resting.map (·.id)).Nodup) :
    ∃ anyNext y, advanceEach cfg x sessions = .ok (anyNext, y) ∧ Serves x y := by
  induction sessions generalizing x with
  | nil => exact ⟨false, x, rfl, .refl x⟩
  | cons session rest ih =>
      obtain ⟨ticker, steps⟩ := session
      rw [advanceEach]
      cases hstep : steps[x.cursor ticker]? with
      | none => exact ih hids
      | some step =>
          obtain ⟨y, hrun, hserves⟩ := processRestingFills_ok hids cfg ticker step
          have hstepped : Serves x (y.stepped ticker) := hserves.trans (.stepped y ticker)
          obtain ⟨anyNext, z, hmore, hserves'⟩ := ih (hstepped.ids_nodup hids)
          refine ⟨_, z, except_bind_ok.mpr ⟨y, hrun, except_bind_ok.mpr ⟨_, hmore, rfl⟩⟩, ?_⟩
          exact hstepped.trans hserves'

theorem advance_ok {x : PaperExchange} (hids : (x.resting.map (·.id)).Nodup) (cfg : PaperFixture) :
    ∃ anyNext y, x.advance cfg = .ok (anyNext, y) ∧ Serves x y :=
  advanceEach_ok cfg cfg.sessions.items hids

end PaperExchange

end Windbreak
