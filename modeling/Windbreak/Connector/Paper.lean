import Windbreak.Core.LabelledTrees
import Windbreak.Core.OrderedDict
import Windbreak.Connector.Fills

/-!
# The paper exchange

A venue that replays recorded books and prints.  An order that crosses fills at once against the
current book, what is left of it rests, and what rests fills when the recorded market trades through
its limit.  Positions and balances are folded from the log of fills.

* **`placeOrder`** — the taker walk, the fills of it, and the remainder.
* **`advance`** — every session's current step against what rests, and the cursors forward.
* **`getBalances`, `getPositions`** — what the log of fills and the resting orders come to.
-/

namespace Windbreak

/-! ## Data -/

/-- The side of a binary market that an order buys. -/
inductive Side where
  | yes
  | no
  deriving DecidableEq, Repr

/-- A side in the words of the feeds. -/
def Side.name : Side → String
  | .yes => "yes"
  | .no => "no"

/-- Pips in a full payout; a NO price is the complement of a YES price. -/
def complementPips : ℤ := 10000

def complement (price : PricePips) : PricePips := ⟨complementPips - price.value⟩

/-- An order as the exchange takes it. -/
structure PaperOrderIntent where
  ticker : String
  side : Side
  price : PricePips
  quantity : ContractCentis
  deriving DecidableEq, Repr

/-- An order that rests, with what is left of it. -/
structure RestingOrder where
  id : String
  ticker : String
  side : Side
  price : PricePips
  quantity : ContractCentis
  deriving DecidableEq, Repr

/-- A recorded book, and the prints that followed it. -/
structure SessionStep where
  book : OrderBookSnapshot
  trades : List TradePrint
  deriving DecidableEq, Repr

/-- What an account owns and may commit. -/
structure BalanceSnapshot where
  total : MoneyMicros
  available : MoneyMicros
  fetchedAt : ℤ
  deriving DecidableEq, Repr

/-- The receipt of a placement. -/
structure PaperPlacement where
  fills : List Fill
  restingOrder : Option RestingOrder
  deriving DecidableEq, Repr

inductive PaperError where
  | unknownMarket (ticker : String)
  | noDefaultFeeModel
  | noRecordedStep
  | valueError (text : String)
  | notAllocated (orderId : String)
  | twoSidedPosition (ticker : String)
  deriving DecidableEq, Repr

/-- A recording and the account it is traded from. -/
structure PaperFixture where
  sessions : OrderedDict String (List SessionStep)
  feeModels : OrderedDict String FeeModel
  balances : BalanceSnapshot
  haircutPpm : ℤ
  maxParticipationPpm : ℤ

/-- What changes as orders are placed and the recording is replayed.  `rested` logs every order that
ever came to rest. -/
structure PaperExchange where
  cursor : String → ℕ
  resting : List RestingOrder
  rested : List RestingOrder
  fills : List Fill
  orderSeq : ℕ
  fillSeq : ℕ

namespace PaperExchange

/-- The exchange at the start of its recording. -/
def fresh : PaperExchange := ⟨fun _ => 0, [], [], [], 0, 0⟩

/-! ## Reads -/

/-- The step a ticker's cursor stands on, the last one once they are consumed. -/
def currentStep (cfg : PaperFixture) (x : PaperExchange) (ticker : String) :
    Except PaperError SessionStep :=
  match cfg.sessions.get? ticker with
  | none => .error (.unknownMarket ticker)
  | some steps =>
    match steps[min (x.cursor ticker) (steps.length - 1)]? with
    | some step => .ok step
    | none => .error .noRecordedStep

/-- The fee schedule of a ticker; the default one is looked up in any case. -/
def getFeeModel (cfg : PaperFixture) (ticker : String) : Except PaperError FeeModel :=
  match cfg.feeModels.get? "default" with
  | none => .error .noDefaultFeeModel
  | some model => .ok ((cfg.feeModels.get? ticker).getD model)

/-- The cash a quantity moves at a price: its notional and its fee. -/
def orderCashMicros (cfg : PaperFixture) (ticker : String) (price : PricePips)
    (quantity : ContractCentis) : Except PaperError ℤ := do
  let bookCost := moneyFromPriceAndCount price quantity .overstateCost
  let model ← getFeeModel cfg ticker
  let fee ← (model.maxTradingFeeMicros price.value quantity.value).mapError .valueError
  return bookCost.value + fee

/-- The cash a fill moved. -/
def fillCashMicros (cfg : PaperFixture) (fill : Fill) : Except PaperError ℤ :=
  orderCashMicros cfg fill.ticker fill.price fill.quantity

/-- The cash a resting order withholds. -/
def restingCollateralMicros (cfg : PaperFixture) (order : RestingOrder) : Except PaperError ℤ :=
  orderCashMicros cfg order.ticker order.price order.quantity

/-- A sum whose terms may raise. -/
def sumEach {α : Type} (f : α → Except PaperError ℤ) : List α → Except PaperError ℤ
  | [] => .ok 0
  | a :: rest => do
    let head ← f a
    let tail ← sumEach f rest
    return head + tail

def cashSpentMicros (cfg : PaperFixture) (x : PaperExchange) : Except PaperError ℤ :=
  sumEach (fillCashMicros cfg) x.fills

def reservedMicros (cfg : PaperFixture) (x : PaperExchange) : Except PaperError ℤ :=
  sumEach (restingCollateralMicros cfg) x.resting

/-- The opening balance less what is spent, and less what is pledged. -/
def getBalances (cfg : PaperFixture) (x : PaperExchange) (now : ℤ) :
    Except PaperError BalanceSnapshot := do
  let spent ← x.cashSpentMicros cfg
  let reserved ← x.reservedMicros cfg
  return ⟨⟨cfg.balances.total.value - spent⟩, ⟨cfg.balances.available.value - spent - reserved⟩, now⟩

/-- The fills executed strictly after an instant. -/
def getFills (x : PaperExchange) (since : ℤ) : List Fill := x.fills.filter fun fill => since < fill.ts

/-! ## Placing an order -/

/-- The levels an order crosses, best first: the asks, or the complement of the bids. -/
def takerLevels (intent : PaperOrderIntent) (book : OrderBookSnapshot) : List OrderBookLevel :=
  match intent.side with
  | .yes => book.yesAsks
  | .no => book.yesBids.map fun level => ⟨complement level.price, level.quantity⟩

/-- Record one fill. -/
def emitFill (x : PaperExchange) (ticker : String) (side : Side) (price : PricePips)
    (quantity : ContractCentis) (ts : ℤ) (orderId : Option String) : Fill × PaperExchange :=
  let fill : Fill :=
    ⟨Numbered.name "paper-fill-" (x.fillSeq + 1), ticker, side.name, price, quantity, ts, orderId⟩
  (fill, { x with fillSeq := x.fillSeq + 1, fills := x.fills ++ [fill] })

/-- One fill for each slice of a taker walk. -/
def emitTakerFills (intent : PaperOrderIntent) (fetchedAt : ℤ) :
    PaperExchange → List OrderBookLevel → List Fill × PaperExchange
  | x, [] => ([], x)
  | x, slice :: rest =>
    let first := x.emitFill intent.ticker intent.side slice.price slice.quantity fetchedAt none
    let more := emitTakerFills intent fetchedAt first.2 rest
    (first.1 :: more.1, more.2)

/-- Rest what is left of an order, if anything is. -/
def restRemainder (x : PaperExchange) (intent : PaperOrderIntent) (remainder : ℤ) :
    Option RestingOrder × PaperExchange :=
  if remainder ≤ 0 then (none, x)
  else
    let order : RestingOrder := ⟨Numbered.name "paper-order-" (x.orderSeq + 1), intent.ticker,
      intent.side, intent.price, ⟨remainder⟩⟩
    (some order, { x with
      orderSeq := x.orderSeq + 1, resting := x.resting ++ [order], rested := x.rested ++ [order] })

/-- Place an order: what crosses fills at once, what is left rests. -/
def placeOrder (cfg : PaperFixture) (x : PaperExchange) (intent : PaperOrderIntent) :
    Except PaperError (PaperPlacement × PaperExchange) := do
  let step ← x.currentStep cfg intent.ticker
  let model ← getFeeModel cfg intent.ticker
  let result ← (walkTakerFill (takerLevels intent step.book) intent.price intent.quantity model
    cfg.haircutPpm cfg.maxParticipationPpm).mapError .valueError
  let taken := emitTakerFills intent step.book.fetchedAt x result.consumed
  let rested := taken.2.restRemainder intent (intent.quantity.value - result.filled.value)
  return (⟨taken.1, rested.1⟩, rested.2)

/-! ## Replaying a step -/

/-- The prints of a step in the frame of a side. -/
def sidePrints (side : Side) (step : SessionStep) : List TradePrint :=
  match side with
  | .yes => step.trades
  | .no => step.trades.map fun trade => { trade with price := complement trade.price }

/-- The recorded depth on a side at a limit or better. -/
def sideDepth (side : Side) (limit : PricePips) (step : SessionStep) : ContractCentis :=
  match side with
  | .yes => ⟨depthOf (step.book.yesBids.filter fun level => limit ≤ level.price)⟩
  | .no => ⟨depthOf (step.book.yesAsks.filter fun level => limit ≤ complement level.price)⟩

def restingRequest (step : SessionStep) (order : RestingOrder) : RestingFillRequest :=
  ⟨order.price, order.quantity, sideDepth order.side order.price step⟩

/-- What a step hands to the orders resting on one side of a ticker, by order id. -/
def allocateSide (cfg : PaperFixture) (x : PaperExchange) (ticker : String) (step : SessionStep)
    (side : Side) : List (String × ContractCentis) :=
  let orders := x.resting.filter fun order => order.ticker = ticker ∧ order.side = side
  (orders.map (·.id)).zip (allocateRestingFills (orders.map (restingRequest step))
    (sidePrints side step) cfg.maxParticipationPpm)

/-- What a step hands to the orders resting on a ticker, by order id. -/
def allocateResting (cfg : PaperFixture) (x : PaperExchange) (ticker : String)
    (step : SessionStep) : List (String × ContractCentis) :=
  x.allocateSide cfg ticker step .yes ++ x.allocateSide cfg ticker step .no

/-- Fill an order with what it was handed: the order with less left, or nothing when nothing is. -/
def applyRestingFill (x : PaperExchange) (order : RestingOrder) (step : SessionStep)
    (filled : ContractCentis) : Except PaperError (Option RestingOrder × PaperExchange) :=
  if filled.value ≤ 0 then .ok (some order, x)
  else do
    let ts ← (tradeThroughFillTs order.price (sidePrints order.side step)).mapError .valueError
    let emitted := x.emitFill order.ticker order.side order.price filled ts (some order.id)
    let remaining := order.quantity.value - filled.value
    return (if remaining ≤ 0 then none else some { order with quantity := ⟨remaining⟩ }, emitted.2)

/-- Fill the orders of a ticker, leaving the others as they are. -/
def applyEach (ticker : String) (step : SessionStep) (filled : List (String × ContractCentis)) :
    PaperExchange → List RestingOrder → Except PaperError (List RestingOrder × PaperExchange)
  | x, [] => .ok ([], x)
  | x, order :: rest =>
    if order.ticker ≠ ticker then do
      let (survivors, y) ← applyEach ticker step filled x rest
      return (order :: survivors, y)
    else
      match filled.lookup order.id with
      | none => .error (.notAllocated order.id)
      | some quantity => do
        let (survivor, y) ← x.applyRestingFill order step quantity
        let (survivors, z) ← applyEach ticker step filled y rest
        return (survivor.toList ++ survivors, z)

/-- Fill a ticker's resting orders against a step. -/
def processRestingFills (cfg : PaperFixture) (x : PaperExchange) (ticker : String)
    (step : SessionStep) : Except PaperError PaperExchange := do
  let (survivors, y) ← applyEach ticker step (x.allocateResting cfg ticker step) x x.resting
  return { y with resting := survivors }

/-- Step a cursor forward. -/
def stepped (x : PaperExchange) (ticker : String) : PaperExchange :=
  { x with cursor := Function.update x.cursor ticker (x.cursor ticker + 1) }

/-- Consume the current step of each of some sessions; whether any has another. -/
def advanceEach (cfg : PaperFixture) :
    PaperExchange → List (String × List SessionStep) → Except PaperError (Bool × PaperExchange)
  | x, [] => .ok (false, x)
  | x, (ticker, steps) :: rest =>
    match steps[x.cursor ticker]? with
    | none => advanceEach cfg x rest
    | some step => do
      let y ← x.processRestingFills cfg ticker step
      let (anyNext, z) ← advanceEach cfg (y.stepped ticker) rest
      return (decide (x.cursor ticker + 1 < steps.length) || anyNext, z)

/-- Consume every session's current step; whether any has another. -/
def advance (cfg : PaperFixture) (x : PaperExchange) : Except PaperError (Bool × PaperExchange) :=
  advanceEach cfg x cfg.sessions.items

/-- Take a resting order away; nothing happens when it is absent. -/
def cancelOrder (x : PaperExchange) (orderId : String) : PaperExchange :=
  { x with resting := x.resting.filter fun order => order.id ≠ orderId }

end PaperExchange

end Windbreak
