import Windbreak.Core.Runs
import Windbreak.Connector.PaperEffects

/-!
# Runs of the paper exchange

Orders are placed, the recording is advanced, orders are cancelled.  Next to the exchange a run keeps
the receipts of its placements and the orders it cancelled.

* **`Conserves`** — every order's quantity is accounted for, ids are distinct, no order fills beyond
  its limit, and the balances are the opening balance less fills and collateral.
* **`Misplaces`** — a placement after which it is not: the walk's target is negative or more than the
  book has, or what is left rests at a price outside the payout.
* **`conserves_iff`** — a run conserves exactly when the account opens with all of its balance
  available and no step misplaces.
-/

namespace Windbreak

open Machine Effects Sums PaperExchange

/-! ## Runs -/

/-- An order as it was placed, and its receipt. -/
structure PlacedOrder where
  intent : PaperOrderIntent
  fills : List Fill
  restingId : Option String
  deriving DecidableEq, Repr

/-- The exchange, the orders placed on it, and what was cancelled of them. -/
structure PaperRun where
  exchange : PaperExchange
  placed : List PlacedOrder
  cancelled : List RestingOrder

inductive PaperOp where
  | place (intent : PaperOrderIntent)
  | advance
  | cancel (orderId : String)
  deriving DecidableEq, Repr

/-- One operation; one that raises changes nothing. -/
def paperStep (cfg : PaperFixture) (s : PaperRun) : PaperOp → Option PaperError × PaperRun
  | .place intent =>
    match s.exchange.placeOrder cfg intent with
    | .error e => (some e, s)
    | .ok (placement, y) =>
      (none, ⟨y, s.placed ++ [⟨intent, placement.fills, placement.restingOrder.map (·.id)⟩],
        s.cancelled⟩)
  | .advance =>
    match s.exchange.advance cfg with
    | .error e => (some e, s)
    | .ok (_, y) => (none, { s with exchange := y })
  | .cancel orderId =>
    (none, { s with
      exchange := s.exchange.cancelOrder orderId
      cancelled := s.cancelled ++ s.exchange.resting.filter fun order => order.id = orderId })

abbrev PaperTransition := Transition PaperRun PaperOp (Option PaperError)

namespace PaperRun

/-- Nothing placed yet. -/
def fresh : PaperRun := ⟨.fresh, [], []⟩

/-! ## Conservation -/

/-- What an order filled as a taker. -/
def takerFilled (p : PlacedOrder) : ℤ := (p.fills.map (·.quantity.value)).sum

/-- What came of what an order rested: its resting fills, what still rests and what was
cancelled. -/
def restedShare (s : PaperRun) (p : PlacedOrder) : ℤ :=
  match p.restingId with
  | none => 0
  | some orderId => filledUnder orderId s.exchange.fills + restsUnder orderId s.exchange.resting +
      restsUnder orderId s.cancelled

/-- A fill of an order: on its receipt, or in the log under its resting id. -/
def Executes (s : PaperRun) (p : PlacedOrder) (fill : Fill) : Prop :=
  fill ∈ s.exchange.fills ∧
    (fill ∈ p.fills ∨ ∃ orderId, p.restingId = some orderId ∧ fill.orderId = some orderId)

/-- The balances are the opening balance less every fill, and less what rests. -/
def Balanced (cfg : PaperFixture) (x : PaperExchange) : Prop :=
  ∀ now, ∃ spent pledged, sumEach (fillCashMicros cfg) x.fills = .ok spent ∧
    sumEach (restingCollateralMicros cfg) x.resting = .ok pledged ∧
      ∃ b, x.getBalances cfg now = .ok b ∧ b.total.value = cfg.balances.total.value - spent ∧
        b.available.value = b.total.value - pledged

/-- **Quantity and money are conserved.** -/
structure Conserves (cfg : PaperFixture) (s : PaperRun) : Prop where
  quantity : ∀ p ∈ s.placed, p.intent.quantity.value = takerFilled p + s.restedShare p
  orderIds : (s.exchange.rested.map (·.id)).Nodup
  fillIds : (s.exchange.fills.map (·.id)).Nodup
  limits : ∀ p ∈ s.placed, ∀ fill, s.Executes p fill → fill.price ≤ p.intent.price
  balances : Balanced cfg s.exchange

end PaperRun

open PaperRun

/-! ## Balances -/

theorem sumEach_ok_iff {α : Type} {f : α → Except PaperError ℤ} {xs : List α} :
    (∃ v, sumEach f xs = .ok v) ↔ ∀ a ∈ xs, ∃ v, f a = .ok v := by
  induction xs with
  | nil => exact iff_of_true ⟨0, rfl⟩ fun a ha => absurd ha List.not_mem_nil
  | cons a rest ih =>
      rw [List.forall_mem_cons, ← ih]
      constructor
      · rintro ⟨v, h⟩
        obtain ⟨head, hhead, h⟩ := except_bind_ok.mp h
        obtain ⟨tail, htail, h⟩ := except_bind_ok.mp h
        exact ⟨⟨head, hhead⟩, tail, htail⟩
      · rintro ⟨⟨head, hhead⟩, tail, htail⟩
        exact ⟨head + tail, except_bind_ok.mpr ⟨head, hhead, except_bind_ok.mpr ⟨tail, htail, rfl⟩⟩⟩

/-- A quantity can be charged at a price exactly when there is a schedule, the price is within the
payout and the quantity positive. -/
theorem chargeable_iff {cfg : PaperFixture} {ticker : String} {price : PricePips}
    {quantity : ContractCentis} :
    (∃ cash, orderCashMicros cfg ticker price quantity = .ok cash) ↔
      (∃ model, getFeeModel cfg ticker = .ok model) ∧
        (0 ≤ price.value ∧ price.value ≤ pipsPerDollar) ∧ 0 < quantity.value := by
  constructor
  · rintro ⟨cash, h⟩
    obtain ⟨model, hmodel, hvalid, -⟩ := orderCashMicros_ok_iff.mp h
    exact ⟨⟨model, hmodel⟩, hvalid⟩
  · rintro ⟨⟨model, hmodel⟩, hvalid⟩
    exact ⟨_, orderCashMicros_ok_iff.mpr ⟨model, hmodel, hvalid, rfl⟩⟩

/-- **The balances** are as they should be exactly when everything can be charged and the account
opened with all of its balance available. -/
theorem balanced_iff {cfg : PaperFixture} {x : PaperExchange} :
    Balanced cfg x ↔ cfg.balances.available.value = cfg.balances.total.value ∧
      (∀ fill ∈ x.fills, ∃ v, fillCashMicros cfg fill = .ok v) ∧
        ∀ order ∈ x.resting, ∃ v, restingCollateralMicros cfg order = .ok v := by
  rw [← sumEach_ok_iff, ← sumEach_ok_iff]
  constructor
  · intro h
    obtain ⟨spent, pledged, hspent, hpledged, b, hb, htotal, havailable⟩ := h 0
    refine ⟨?_, ⟨spent, hspent⟩, pledged, hpledged⟩
    obtain ⟨spent', hspent', hb⟩ := except_bind_ok.mp hb
    obtain ⟨pledged', hpledged', hb⟩ := except_bind_ok.mp hb
    have hs : spent' = spent := Except.ok.inj (hspent'.symm.trans hspent)
    have hp : pledged' = pledged := Except.ok.inj (hpledged'.symm.trans hpledged)
    cases hb
    dsimp only at htotal havailable
    omega
  · rintro ⟨hopening, ⟨spent, hspent⟩, pledged, hpledged⟩ now
    refine ⟨spent, pledged, hspent, hpledged, _,
      except_bind_ok.mpr ⟨spent, hspent, except_bind_ok.mpr ⟨pledged, hpledged, rfl⟩⟩, rfl, ?_⟩
    dsimp only
    omega

/-! ## What every run keeps -/

/-- Ids name what came to rest, and what carries the id of an order is at its limit. -/
structure Regular (s : PaperRun) : Prop where
  numbering : s.exchange.Numbering
  placedIds : ∀ p ∈ s.placed, ∀ orderId, p.restingId = some orderId →
    orderId ∈ s.exchange.rested.map (·.id)
  cancelledIds : ∀ order ∈ s.cancelled, order.id ∈ s.exchange.rested.map (·.id)
  fillIds : ∀ fill ∈ s.exchange.fills, ∀ orderId, fill.orderId = some orderId →
    orderId ∈ s.exchange.rested.map (·.id)
  restingPrices : ∀ p ∈ s.placed, ∀ order ∈ s.exchange.resting, p.restingId = some order.id →
    order.price = p.intent.price
  fillPrices : ∀ p ∈ s.placed, ∀ fill ∈ s.exchange.fills, ∀ orderId, p.restingId = some orderId →
    fill.orderId = some orderId → fill.price = p.intent.price
  takerFills : ∀ p ∈ s.placed, ∀ fill ∈ p.fills, fill.price ≤ p.intent.price
  positive : ∀ order ∈ s.exchange.resting, 0 < order.quantity.value

theorem fresh_regular : Regular .fresh where
  numbering := fresh_numbering
  placedIds _ h := absurd h List.not_mem_nil
  cancelledIds _ h := absurd h List.not_mem_nil
  fillIds _ h := absurd h List.not_mem_nil
  restingPrices _ h := absurd h List.not_mem_nil
  fillPrices _ h := absurd h List.not_mem_nil
  takerFills _ h := absurd h List.not_mem_nil
  positive _ h := absurd h List.not_mem_nil

/-- No order fills beyond its limit, and ids are distinct, whatever is placed. -/
theorem Regular.limits {s : PaperRun} (h : Regular s) :
    ∀ p ∈ s.placed, ∀ fill, s.Executes p fill → fill.price ≤ p.intent.price := by
  rintro p hp fill ⟨hlogged, hmine | ⟨orderId, hrests, hfills⟩⟩
  · exact h.takerFills p hp fill hmine
  · exact Int.le_of_eq (congrArg IntUnit.value
      (h.fillPrices p hp fill hlogged orderId hrests hfills))

/-- The run after a placement. -/
def PaperRun.afterPlacing (s : PaperRun) (intent : PaperOrderIntent) (placement : PaperPlacement)
    (y : PaperExchange) : PaperRun :=
  ⟨y, s.placed ++ [⟨intent, placement.fills, placement.restingOrder.map (·.id)⟩], s.cancelled⟩

/-- The run after a cancellation. -/
def PaperRun.afterCancelling (s : PaperRun) (orderId : String) : PaperRun :=
  { s with
    exchange := s.exchange.cancelOrder orderId
    cancelled := s.cancelled ++ s.exchange.resting.filter fun order => order.id = orderId }

/-- **What an operation does**: a placement goes through or changes nothing, a step of the recording
serves the resting orders, a cancellation takes them away. -/
theorem paperStep_cases (cfg : PaperFixture) {s : PaperRun} (h : Regular s) (op : PaperOp) :
    (∃ intent placement y, op = .place intent ∧
      s.exchange.placeOrder cfg intent = .ok (placement, y) ∧
        (paperStep cfg s op).2 = s.afterPlacing intent placement y) ∨
    (∃ intent e, op = .place intent ∧ s.exchange.placeOrder cfg intent = .error e ∧
      (paperStep cfg s op).2 = s) ∨
    (∃ y, op = .advance ∧ Serves s.exchange y ∧
      (paperStep cfg s op).2 = { s with exchange := y }) ∨
    (∃ orderId, op = .cancel orderId ∧ (paperStep cfg s op).2 = s.afterCancelling orderId) := by
  cases op with
  | place intent =>
      cases hplace : s.exchange.placeOrder cfg intent with
      | ok placed =>
          refine .inl ⟨intent, placed.1, placed.2, rfl, hplace, ?_⟩
          rw [paperStep, hplace]
          rfl
      | error e =>
          refine .inr (.inl ⟨intent, e, rfl, hplace, ?_⟩)
          rw [paperStep, hplace]
  | advance =>
      obtain ⟨anyNext, y, hrun, hserves⟩ := advance_ok h.numbering.resting_ids_nodup cfg
      refine .inr (.inr (.inl ⟨y, rfl, hserves, ?_⟩))
      rw [paperStep, hrun]
  | cancel orderId => exact .inr (.inr (.inr ⟨orderId, rfl, rfl⟩))

/-- A step of the recording keeps what every run keeps. -/
theorem Regular.serves {s : PaperRun} (h : Regular s) {y : PaperExchange}
    (hserves : Serves s.exchange y) : Regular { s with exchange := y } := by
  obtain ⟨new, hlogs, hserved⟩ := hserves
  have hnumbering : y.Numbering := Serves.numbering ⟨new, hlogs, hserved⟩ h.numbering
  refine ⟨hnumbering, fun p hp orderId hid => ?_, fun order horder => ?_, fun fill hfill orderId hid => ?_,
    fun p hp order horder hid => ?_, fun p hp fill hfill orderId hid hof => ?_, h.takerFills,
    fun order horder => ?_⟩
  · dsimp only
    rw [hlogs.rested]
    exact h.placedIds p hp orderId hid
  · dsimp only
    rw [hlogs.rested]
    exact h.cancelledIds order horder
  · dsimp only at hfill ⊢
    rw [hlogs.fills] at hfill
    rw [hlogs.rested]
    rcases List.mem_append.mp hfill with hold | hnew
    · exact h.fillIds fill hold orderId hid
    · obtain ⟨order, horder, hfills⟩ := hserved.source fill hnew
      have hsame : order.id = orderId := Option.some.inj (hfills.orderId.symm.trans hid)
      exact hsame ▸ h.numbering.resting.subset (List.mem_map_of_mem horder)
  · obtain ⟨before, hbefore, hremains⟩ := hserved.kept order horder
    rw [hremains.id] at hid
    exact hremains.price.trans (h.restingPrices p hp before hbefore hid)
  · dsimp only at hfill
    rw [hlogs.fills] at hfill
    rcases List.mem_append.mp hfill with hold | hnew
    · exact h.fillPrices p hp fill hold orderId hid hof
    · obtain ⟨order, horder, hfills⟩ := hserved.source fill hnew
      have hsame : order.id = orderId := Option.some.inj (hfills.orderId.symm.trans hof)
      exact hfills.price.trans (h.restingPrices p hp order horder (hsame ▸ hid))
  · obtain ⟨before, hbefore, hremains⟩ := hserved.kept order horder
    exact hremains.positive (h.positive before hbefore)

/-- A cancellation keeps what every run keeps. -/
theorem Regular.cancels {s : PaperRun} (h : Regular s)
    (orderId : String) : Regular (s.afterCancelling orderId) := by
  have hsub : (s.exchange.cancelOrder orderId).resting.Sublist s.exchange.resting :=
    List.filter_sublist
  refine ⟨⟨h.numbering.fills, h.numbering.rested, (hsub.map _).trans h.numbering.resting⟩,
    h.placedIds, fun order horder => ?_, h.fillIds, fun p hp order horder hid => ?_, h.fillPrices,
    h.takerFills, fun order horder => h.positive order (hsub.subset horder)⟩
  · rcases List.mem_append.mp horder with hold | hnew
    · exact h.cancelledIds order hold
    · exact h.numbering.resting.subset (List.mem_map_of_mem (List.mem_filter.mp hnew).1)
  · exact h.restingPrices p hp order (hsub.subset horder) hid

section Placing

variable {cfg : PaperFixture} {s : PaperRun} {intent : PaperOrderIntent} {step : SessionStep}
  {placement : PaperPlacement} {y : PaperExchange}

/-- A fill on a receipt of a placement has no order id. -/
theorem PaperExchange.Placement.orderId_ne (hplaced : Placement cfg intent step s.exchange y placement)
    {fill : Fill} (hfill : fill ∈ placement.fills) (orderId : String) :
    fill.orderId ≠ some orderId := by
  rw [(hplaced.fills fill hfill).orderId]
  exact (Option.some_ne_none orderId).symm

/-- A placement keeps what every run keeps. -/
theorem Regular.places (h : Regular s) (hplaced : Placement cfg intent step s.exchange y placement) :
    Regular (s.afterPlacing intent placement y) := by
  have hadds := hplaced.adds
  have hids : y.rested.map (·.id) =
      s.exchange.rested.map (·.id) ++ placement.restingOrder.toList.map (·.id) := by
    rw [hadds.rested, List.map_append]
  have hnewId : ∀ orderId, placement.restingOrder.map (·.id) = some orderId →
      ∃ order ∈ placement.restingOrder, order.id = orderId := fun orderId hid =>
    Option.map_eq_some_iff.mp hid
  refine ⟨hadds.numbering h.numbering, fun p hp orderId hid => ?_, fun order horder => ?_,
    fun fill hfill orderId hid => ?_, fun p hp order horder hid => ?_,
    fun p hp fill hfill orderId hid hof => ?_, fun p hp fill hfill => ?_, fun order horder => ?_⟩
  · change orderId ∈ y.rested.map (·.id)
    rw [hids]
    rcases List.mem_append.mp hp with hold | hnew
    · exact List.mem_append_left _ (h.placedIds p hold orderId hid)
    · rw [List.mem_singleton.mp hnew] at hid
      obtain ⟨order, horder, rfl⟩ := hnewId orderId hid
      exact List.mem_append_right _ (List.mem_map_of_mem (Option.mem_toList.mpr horder))
  · change order.id ∈ y.rested.map (·.id)
    rw [hids]
    exact List.mem_append_left _ (h.cancelledIds order horder)
  · change fill ∈ y.fills at hfill
    change orderId ∈ y.rested.map (·.id)
    rw [hadds.fills] at hfill
    rw [hids]
    rcases List.mem_append.mp hfill with hold | hnew
    · exact List.mem_append_left _ (h.fillIds fill hold orderId hid)
    · exact absurd hid (hplaced.orderId_ne hnew orderId)
  · change order ∈ y.resting at horder
    rw [hadds.resting] at horder
    rcases List.mem_append.mp horder with horder | horder
    · rcases List.mem_append.mp hp with hold | hnew
      · exact h.restingPrices p hold order horder hid
      · rw [List.mem_singleton.mp hnew] at hid
        obtain ⟨other, hother, hsame⟩ := hnewId order.id hid
        have hnot := hadds.fresh h.numbering other hother
        rw [hsame] at hnot
        exact absurd (h.numbering.resting.subset (List.mem_map_of_mem horder)) hnot
    · have hmine := Option.mem_toList.mp horder
      rcases List.mem_append.mp hp with hold | hnew
      · exact absurd (h.placedIds p hold order.id hid) (hadds.fresh h.numbering order hmine)
      · rw [List.mem_singleton.mp hnew]
        exact (hadds.order order hmine).2.2.1
  · change fill ∈ y.fills at hfill
    rw [hadds.fills] at hfill
    rcases List.mem_append.mp hfill with hfill | hfill
    · rcases List.mem_append.mp hp with hold | hnew
      · exact h.fillPrices p hold fill hfill orderId hid hof
      · rw [List.mem_singleton.mp hnew] at hid
        obtain ⟨other, hother, rfl⟩ := hnewId orderId hid
        exact absurd (h.fillIds fill hfill other.id hof) (hadds.fresh h.numbering other hother)
    · exact absurd hof (hplaced.orderId_ne hfill orderId)
  · rcases List.mem_append.mp hp with hold | hnew
    · exact h.takerFills p hold fill hfill
    · rw [List.mem_singleton.mp hnew] at hfill ⊢
      exact (hplaced.fills fill hfill).limit
  · change order ∈ y.resting at horder
    rw [hadds.resting] at horder
    rcases List.mem_append.mp horder with horder | horder
    · exact h.positive order horder
    · obtain ⟨-, -, -, hquantity, hpositive⟩ := hadds.order order (Option.mem_toList.mp horder)
      omega

/-- A placement leaves alone what came of the orders placed before. -/
theorem restedShare_places (h : Regular s)
    (hplaced : Placement cfg intent step s.exchange y placement) {p : PlacedOrder}
    (hp : p ∈ s.placed) : (s.afterPlacing intent placement y).restedShare p = s.restedShare p := by
  have hadds := hplaced.adds
  unfold restedShare
  cases hid : p.restingId with
  | none => rfl
  | some orderId =>
      have hfilled : filledUnder orderId placement.fills = 0 :=
        sumWhere_eq_zero fun fill hfill => hplaced.orderId_ne hfill orderId
      have hrests : restsUnder orderId placement.restingOrder.toList = 0 := by
        refine sumWhere_eq_zero fun order horder hsame => ?_
        have hnot := hadds.fresh h.numbering order (Option.mem_toList.mp horder)
        rw [hsame] at hnot
        exact hnot (h.placedIds p hp orderId hid)
      dsimp only [PaperRun.afterPlacing]
      rw [hadds.fills, hadds.resting, filledUnder_append, restsUnder_append, hfilled, hrests]
      omega

/-- **What came of what a placement rests** is all still there. -/
theorem restedShare_placed (h : Regular s)
    (hplaced : Placement cfg intent step s.exchange y placement) :
    (s.afterPlacing intent placement y).restedShare
        ⟨intent, placement.fills, placement.restingOrder.map (·.id)⟩ =
      max (intent.quantity.value - targetOf cfg intent step) 0 := by
  have hadds := hplaced.adds
  unfold restedShare
  cases hresting : placement.restingOrder with
  | none =>
      have hnothing := hadds.nothing hresting
      dsimp only [Option.map_none]
      omega
  | some order =>
      obtain ⟨-, -, -, hquantity, hpositive⟩ := hadds.order order hresting
      have hnot := hadds.fresh h.numbering order hresting
      have hfilled : filledUnder order.id y.fills = 0 := by
        rw [hadds.fills]
        refine sumWhere_eq_zero fun fill hfill hof => ?_
        rcases List.mem_append.mp hfill with hfill | hfill
        · exact hnot (h.fillIds fill hfill order.id hof)
        · exact hplaced.orderId_ne hfill order.id hof
      have hbefore : restsUnder order.id s.exchange.resting = 0 :=
        sumWhere_eq_zero fun other hother hsame =>
          hnot (hsame ▸ h.numbering.resting.subset (List.mem_map_of_mem hother))
      have hcancelled : restsUnder order.id s.cancelled = 0 :=
        sumWhere_eq_zero fun other hother hsame => hnot (hsame ▸ h.cancelledIds other hother)
      have hrests : restsUnder order.id y.resting = order.quantity.value := by
        rw [hadds.resting, restsUnder_append, hbefore, hresting]
        simp [restsUnder]
      dsimp only [PaperRun.afterPlacing, Option.map_some]
      rw [hfilled, hrests, hcancelled]
      omega

end Placing

/-! ## One operation -/

/-- A placement after which quantity or money is not conserved: the exchange accepts the order, and
either the target of the walk is negative or more than the book has to take, or what is left rests
at a price outside the payout. -/
def MisplacedBy (cfg : PaperFixture) (x : PaperExchange) (intent : PaperOrderIntent) : Prop :=
  ∃ step, x.currentStep cfg intent.ticker = .ok step ∧
    (∃ placed, x.placeOrder cfg intent = .ok placed) ∧
      (targetOf cfg intent step < 0 ∨ takeableOf intent step < targetOf cfg intent step ∨
        (targetOf cfg intent step < intent.quantity.value ∧
          ¬ (0 ≤ intent.price.value ∧ intent.price.value ≤ pipsPerDollar)))

/-- A transition that places such an order. -/
def Misplaces (cfg : PaperFixture) (t : PaperTransition) : Prop :=
  ∃ intent, t.input = .place intent ∧ MisplacedBy cfg t.pre.exchange intent

/-- Of a regular run, quantities and balances are all there is to conserve. -/
theorem Regular.balanced_of_conserves_iff {cfg : PaperFixture} {s : PaperRun} (h : Regular s) :
    Conserves cfg s ↔
      (∀ p ∈ s.placed, p.intent.quantity.value = takerFilled p + s.restedShare p) ∧
        Balanced cfg s.exchange := by
  constructor
  · exact fun hs => ⟨hs.quantity, hs.balances⟩
  · rintro ⟨hquantity, hbalances⟩
    exact ⟨hquantity, h.numbering.rested_ids_nodup, h.numbering.fill_ids_nodup, h.limits, hbalances⟩

/-- What is served can still be charged: fills are at the limits of orders that could be. -/
theorem PaperExchange.Serves.chargeable {cfg : PaperFixture} {x y : PaperExchange}
    (h : Serves x y) (hfills : ∀ fill ∈ x.fills, ∃ v, fillCashMicros cfg fill = .ok v)
    (hresting : ∀ order ∈ x.resting, ∃ v, restingCollateralMicros cfg order = .ok v) :
    (∀ fill ∈ y.fills, ∃ v, fillCashMicros cfg fill = .ok v) ∧
      ∀ order ∈ y.resting, ∃ v, restingCollateralMicros cfg order = .ok v := by
  obtain ⟨new, hlogs, hserved⟩ := h
  refine ⟨fun fill hfill => ?_, fun order horder => ?_⟩
  · rw [hlogs.fills] at hfill
    rcases List.mem_append.mp hfill with hold | hnew
    · exact hfills fill hold
    · obtain ⟨order, horder, hof⟩ := hserved.source fill hnew
      obtain ⟨hmodel, hprice, -⟩ := chargeable_iff.mp (hresting order horder)
      refine chargeable_iff.mpr ⟨?_, ?_, hof.positive⟩
      · rw [hof.ticker]
        exact hmodel
      · rw [hof.price]
        exact hprice
  · obtain ⟨before, hbefore, hremains⟩ := hserved.kept order horder
    obtain ⟨hmodel, hprice, hpositive⟩ := chargeable_iff.mp (hresting before hbefore)
    refine chargeable_iff.mpr ⟨?_, ?_, hremains.positive hpositive⟩
    · rw [hremains.ticker]
      exact hmodel
    · rw [hremains.price]
      exact hprice

theorem conserves_serves {cfg : PaperFixture} {s : PaperRun} (h : Regular s)
    (hs : Conserves cfg s) {y : PaperExchange} (hserves : Serves s.exchange y) :
    Conserves cfg { s with exchange := y } := by
  refine (h.serves hserves).balanced_of_conserves_iff.mpr ⟨fun p hp => ?_, ?_⟩
  · obtain ⟨new, hlogs, hserved⟩ := hserves
    have hsame : restedShare { s with exchange := y } p = s.restedShare p := by
      unfold restedShare
      cases p.restingId with
      | none => rfl
      | some orderId =>
          have hbalance := hserved.balance orderId
          dsimp only
          rw [hlogs.fills, filledUnder_append]
          omega
    rw [hsame]
    exact hs.quantity p hp
  · obtain ⟨hopening, hfills, hresting⟩ := balanced_iff.mp hs.balances
    exact balanced_iff.mpr ⟨hopening, hserves.chargeable hfills hresting⟩

/-- Cancelling splits what rests under an id into what stays and what goes. -/
theorem restsUnder_cancelOrder (orders : List RestingOrder) (cancelled orderId : String) :
    restsUnder orderId (orders.filter fun order => order.id ≠ cancelled) +
        restsUnder orderId (orders.filter fun order => order.id = cancelled) =
      restsUnder orderId orders := by
  induction orders with
  | nil => rfl
  | cons order rest ih =>
      have hcons : ∀ tail, restsUnder orderId (order :: tail) =
          (if order.id = orderId then order.quantity.value else 0) + restsUnder orderId tail :=
        fun tail => sumWhere_cons order
      by_cases hid : order.id = cancelled
      · rw [List.filter_cons_of_neg (by simpa using hid), List.filter_cons_of_pos (by simpa using hid),
          hcons, hcons]
        omega
      · rw [List.filter_cons_of_pos (by simpa using hid), List.filter_cons_of_neg (by simpa using hid),
          hcons, hcons]
        omega

theorem conserves_cancels {cfg : PaperFixture} {s : PaperRun} (h : Regular s)
    (hs : Conserves cfg s) (orderId : String) : Conserves cfg (s.afterCancelling orderId) := by
  refine (h.cancels orderId).balanced_of_conserves_iff.mpr ⟨fun p hp => ?_, ?_⟩
  · have hsame : (s.afterCancelling orderId).restedShare p = s.restedShare p := by
      unfold restedShare
      cases p.restingId with
      | none => rfl
      | some restingId =>
          have hsplit := restsUnder_cancelOrder s.exchange.resting orderId restingId
          dsimp only [PaperRun.afterCancelling, cancelOrder]
          rw [restsUnder_append]
          omega
    rw [hsame]
    exact hs.quantity p hp
  · obtain ⟨hopening, hfills, hresting⟩ := balanced_iff.mp hs.balances
    exact balanced_iff.mpr ⟨hopening, hfills, fun order horder =>
      hresting order (List.filter_sublist.subset horder)⟩

/-- **A placement conserves exactly when it is not misplaced.** -/
theorem conserves_places_iff {cfg : PaperFixture} {s : PaperRun} (h : Regular s)
    (hs : Conserves cfg s) {intent : PaperOrderIntent} {step : SessionStep}
    {placement : PaperPlacement} {y : PaperExchange}
    (hplaced : Placement cfg intent step s.exchange y placement) :
    Conserves cfg (s.afterPlacing intent placement y) ↔
      ¬ (targetOf cfg intent step < 0 ∨ takeableOf intent step < targetOf cfg intent step ∨
        (targetOf cfg intent step < intent.quantity.value ∧
          ¬ (0 ≤ intent.price.value ∧ intent.price.value ≤ pipsPerDollar))) := by
  have hadds := hplaced.adds
  have htarget : targetOf cfg intent step ≤ intent.quantity.value := min_le_left _ _
  have htakeable : 0 ≤ takeableOf intent step := takeableDepth_nonneg _
  have hshare := restedShare_placed h hplaced
  have htaken : takerFilled ⟨intent, placement.fills, placement.restingOrder.map (·.id)⟩ =
      min (max (targetOf cfg intent step) 0) (takeableOf intent step) := hplaced.taken
  have hquantity : (∀ p ∈ (s.afterPlacing intent placement y).placed, p.intent.quantity.value =
      takerFilled p + (s.afterPlacing intent placement y).restedShare p) ↔
        0 ≤ targetOf cfg intent step ∧ targetOf cfg intent step ≤ takeableOf intent step := by
    constructor
    · intro hall
      have hmine := hall _ (List.mem_append_right _ (List.mem_singleton.mpr rfl))
      rw [hshare, htaken] at hmine
      dsimp only at hmine
      omega
    · rintro ⟨hlow, hhigh⟩ p hp
      rcases List.mem_append.mp hp with hold | hnew
      · rw [restedShare_places h hplaced hold]
        exact hs.quantity p hold
      · rw [List.mem_singleton.mp hnew, hshare, htaken]
        dsimp only
        omega
  have hbalanced : Balanced cfg y ↔ (targetOf cfg intent step < intent.quantity.value →
      0 ≤ intent.price.value ∧ intent.price.value ≤ pipsPerDollar) := by
    obtain ⟨hopening, hfills, hresting⟩ := balanced_iff.mp hs.balances
    rw [balanced_iff, hadds.fills, hadds.resting]
    constructor
    · rintro ⟨-, -, hall⟩ hleft
      cases hnone : placement.restingOrder with
      | none =>
          have hnothing := hadds.nothing hnone
          omega
      | some order =>
          obtain ⟨-, -, hprice, -⟩ := hadds.order order hnone
          have hmem : order ∈ s.exchange.resting ++ placement.restingOrder.toList :=
            List.mem_append_right _ (Option.mem_toList.mpr hnone)
          have hvalid := (chargeable_iff.mp (hall order hmem)).2.1
          rw [hprice] at hvalid
          exact hvalid
    · intro hprice
      refine ⟨hopening, fun fill hfill => ?_, fun order horder => ?_⟩
      · rcases List.mem_append.mp hfill with hold | hnew
        · exact hfills fill hold
        · have htaker := hplaced.fills fill hnew
          refine chargeable_iff.mpr ⟨?_, htaker.priced, htaker.positive⟩
          rw [htaker.ticker]
          exact hplaced.priced
      · rcases List.mem_append.mp horder with hold | hnew
        · exact hresting order hold
        · obtain ⟨hticker, -, hlimit, hleft, hpositive⟩ :=
            hadds.order order (Option.mem_toList.mp hnew)
          refine chargeable_iff.mpr ⟨?_, ?_, ?_⟩
          · rw [hticker]
            exact hplaced.priced
          · rw [hlimit]
            exact hprice (by omega)
          · omega
  rw [(h.places hplaced).balanced_of_conserves_iff, hquantity]
  change _ ∧ Balanced cfg y ↔ _
  rw [hbalanced]
  constructor
  · rintro ⟨⟨hlow, hhigh⟩, hprice⟩ (hnegative | hdeep | ⟨hleft, hinvalid⟩)
    · omega
    · omega
    · exact hinvalid (hprice hleft)
  · intro hplace
    refine ⟨⟨?_, ?_⟩, fun hleft => ?_⟩
    · exact Int.not_lt.mp fun hnegative => hplace (.inl hnegative)
    · exact Int.not_lt.mp fun hdeep => hplace (.inr (.inl hdeep))
    · exact Decidable.not_not.mp fun hinvalid => hplace (.inr (.inr ⟨hleft, hinvalid⟩))

/-- The exchange that an account opens with. -/
theorem fresh_conserves_iff (cfg : PaperFixture) :
    Conserves cfg .fresh ↔ cfg.balances.available.value = cfg.balances.total.value := by
  rw [fresh_regular.balanced_of_conserves_iff, balanced_iff]
  constructor
  · exact fun h => h.2.1
  · intro hopening
    exact ⟨fun p hp => absurd hp List.not_mem_nil, hopening,
      fun fill hfill => absurd hfill List.not_mem_nil,
      fun order horder => absurd horder List.not_mem_nil⟩

theorem Regular.step {cfg : PaperFixture} {s : PaperRun} (h : Regular s) (op : PaperOp) :
    Regular (paperStep cfg s op).2 := by
  rcases paperStep_cases cfg h op with ⟨intent, placement, y, -, hplace, hafter⟩ |
    ⟨intent, e, -, -, hafter⟩ | ⟨y, -, hserves, hafter⟩ | ⟨orderId, -, hafter⟩
  · obtain ⟨step, -, hplaced⟩ := placeOrder_ok hplace
    exact hafter ▸ h.places hplaced
  · rw [hafter]
    exact h
  · exact hafter ▸ h.serves hserves
  · exact hafter ▸ h.cancels orderId

/-- **One operation** conserves exactly when it does not misplace. -/
theorem conserves_step_iff {cfg : PaperFixture} {s : PaperRun} (h : Regular s)
    (hs : Conserves cfg s) (op : PaperOp) :
    Conserves cfg (paperStep cfg s op).2 ↔ ¬ Misplaces cfg (transition (paperStep cfg) s op) := by
  rcases paperStep_cases cfg h op with ⟨intent, placement, y, rfl, hplace, hafter⟩ |
    ⟨intent, e, rfl, hplace, hafter⟩ | ⟨y, rfl, hserves, hafter⟩ | ⟨orderId, rfl, hafter⟩
  · obtain ⟨step, hstep, hplaced⟩ := placeOrder_ok hplace
    rw [hafter, conserves_places_iff h hs hplaced]
    refine not_congr ⟨fun hcase => ⟨intent, rfl, step, hstep, ⟨_, hplace⟩, hcase⟩, ?_⟩
    rintro ⟨other, hother, step', hstep', -, hcase⟩
    cases hother
    have hsame : step' = step := Except.ok.inj (hstep'.symm.trans hstep)
    exact hsame ▸ hcase
  · rw [hafter]
    refine iff_of_true hs ?_
    rintro ⟨other, hother, step, -, ⟨placed, hok⟩, -⟩
    cases hother
    cases hplace.symm.trans hok
  · rw [hafter]
    refine iff_of_true (conserves_serves h hs hserves) ?_
    rintro ⟨other, hother, -⟩
    exact PaperOp.noConfusion hother
  · rw [hafter]
    refine iff_of_true (conserves_cancels h hs orderId) ?_
    rintro ⟨other, hother, -⟩
    exact PaperOp.noConfusion hother

/-! ## Every run -/

/-- **Quantity and money are conserved** in every state of a run exactly when the account opens with
all of its balance available and no placement of the run is misplaced. -/
theorem conserves_iff (cfg : PaperFixture) (ops : List PaperOp) :
    (Conserves cfg .fresh ∧ ∀ t ∈ trace (paperStep cfg) .fresh ops, Conserves cfg t.post) ↔
      cfg.balances.available.value = cfg.balances.total.value ∧
        ∀ t ∈ trace (paperStep cfg) .fresh ops, ¬ Misplaces cfg t := by
  rw [fresh_conserves_iff]
  refine and_congr_right fun hopening => ?_
  exact trace_kept_iff (B := Conserves cfg) (G := fun t => ¬ Misplaces cfg t)
    (fun s op h => h.step op) (fun s op h hs => conserves_step_iff h hs op) fresh_regular
    ((fresh_conserves_iff cfg).mpr hopening) ops

/-! ## A stale level -/

/-- One schedule, without fees. -/
def freeFeeModels : OrderedDict String FeeModel := ⟨[("default", freeFees)], by decide⟩

/-- A recording of one step, whose only ask is at a limit of forty cents and has gone stale. -/
def staleFixture : PaperFixture where
  sessions := ⟨[("MKT", [⟨⟨"MKT", [], [⟨⟨4000⟩, ⟨-100⟩⟩], 10⟩, []⟩])], by decide⟩
  feeModels := freeFeeModels
  balances := ⟨⟨10000000⟩, ⟨10000000⟩, 0⟩
  haircutPpm := 0
  maxParticipationPpm := 250000

/-- **A stale level is not walked past**: it counts against the depth, and an order for a hundred
comes to rest as an order for a hundred and twenty-five. -/
theorem stale_level_overrests :
    ¬ ∀ (cfg : PaperFixture) (ops : List PaperOp),
      cfg.balances.available.value = cfg.balances.total.value →
        ∀ t ∈ trace (paperStep cfg) .fresh ops, Conserves cfg t.post := by
  intro hall
  have hrun := hall staleFixture [.place ⟨"MKT", .yes, ⟨4000⟩, ⟨100⟩⟩] rfl _
    (List.mem_singleton.mpr rfl)
  have hquantity := hrun.quantity _ (List.mem_singleton.mpr rfl)
  exact absurd hquantity (by decide +kernel)

end Windbreak
