import Windbreak.Connector.PaperHeadroom
import Windbreak.Connector.PaperMarks
import Windbreak.Scheduler.LedgerReads

/-!
# The sampled equity

A tick samples the available cash and the mark of every holding.  Holdings are marked at their own
average price, rounded down, so that what a fill takes from cash comes back as a mark, all but its
fee.  What rests is withheld from the available cash and marked nowhere.

* **`marks_bounds`** — a mark never exceeds what its holding cost, and falls short of it by less than
  a micro for each contract-centi.
* **`equity_falls_by_fees`** — between two samples of a run the equity falls by the fees and by that,
  where nothing comes to rest at a price.
* **`resting_lowers_equity`** — what comes to rest lowers it by its collateral.
-/

namespace Windbreak

open Machine Effects Sums PaperExchange PaperRun

/-! ## The stage -/

/-- The mark of a holding, in the frame of its own side. -/
def positionValueMicros (position : PaperPosition) : ℤ :=
  if 0 ≤ position.quantity.value then position.quantity.value * position.averagePrice.value
  else -position.quantity.value * (complementPips - position.averagePrice.value)

def positionsValueMicros (positions : List PaperPosition) : ℤ :=
  (positions.map positionValueMicros).sum

def computeEquityMicros (availableCash positionsValue : MoneyMicros) : MoneyMicros :=
  ⟨availableCash.value + positionsValue.value⟩

/-- What a sample leaves on the ledger. -/
inductive StageRow where
  | equitySampled (equityMicros floorMicros epochS : ℤ)
  | positionsSnapshotRecorded (positions : List PaperPosition)
  deriving DecidableEq, Repr

/-- The holdings, or none where the exchange refuses to net a ticker with two sides. -/
def readHoldings (x : PaperExchange) : Except PaperError (Option (List PaperPosition)) :=
  match x.getPositions with
  | .ok holdings => .ok (some holdings)
  | .error (.twoSidedPosition _) => .ok none
  | .error e => .error e

/-- Sample the equity and snapshot the positions; a refused holding counts for nothing. -/
def equityAndPositionsStage (cfg : PaperFixture) (floorMicros : ℤ) (x : PaperExchange)
    (nowEpochS : ℤ) : Except PaperError (ℤ × List StageRow) := do
  let holdings ← readHoldings x
  let balances ← x.getBalances cfg nowEpochS
  let equity := computeEquityMicros balances.available
    ⟨positionsValueMicros (holdings.getD [])⟩
  return (equity.value, .equitySampled equity.value floorMicros nowEpochS ::
    (holdings.map StageRow.positionsSnapshotRecorded).toList)

/-- What a day lost: from its earliest equity down to its lowest. -/
def DayEquity.realizedLoss (day : DayEquity) : ℤ := day.baseline - day.trough

/-- The fee that a fill was charged. -/
def fillFeeMicros (cfg : PaperFixture) (fill : Fill) : Except PaperError ℤ := do
  let model ← getFeeModel cfg fill.ticker
  (model.maxTradingFeeMicros fill.price.value fill.quantity.value).mapError .valueError

/-! ## Marks -/

/-- What the fills of a ticker cost, before fees. -/
def costOf (ticker : String) (fills : List Fill) : ℤ :=
  sumWhere (fun fill => fill.ticker = ticker) (fun fill => fill.price.value * fill.quantity.value)
    fills

/-- The mark of a row, against the totals it was made of. -/
theorem mark_rowOf {item : (String × String) × SideTotals} (hquantity : 0 < item.2.quantityCentis) :
    positionValueMicros (rowOf item) ≤ item.2.notionalMicros ∧
      item.2.notionalMicros ≤
        positionValueMicros (rowOf item) + (|(rowOf item).quantity.value| - 1) := by
  have hdivision := Int.mul_ediv_add_emod item.2.notionalMicros item.2.quantityCentis
  have hnonneg := Int.emod_nonneg item.2.notionalMicros hquantity.ne'
  have hlt := Int.emod_lt_of_pos item.2.notionalMicros hquantity
  have hmark : positionValueMicros (rowOf item) =
      item.2.quantityCentis * (item.2.notionalMicros / item.2.quantityCentis) ∧
        |(rowOf item).quantity.value| = item.2.quantityCentis := by
    unfold rowOf positionValueMicros
    dsimp only
    rw [quotient_understate hquantity]
    split
    · dsimp only
      rw [if_pos hquantity.le]
      exact ⟨rfl, abs_of_pos hquantity⟩
    · dsimp only
      rw [if_neg (by omega), neg_neg, sub_sub_cancel, abs_neg]
      exact ⟨rfl, abs_of_pos hquantity⟩
  rw [hmark.1, hmark.2]
  omega

/-- On one side only, what a side cost is what its ticker cost. -/
theorem notionalOn_eq {fills : List Fill} (hsided : OneSided fills) {fill : Fill}
    (hfill : fill ∈ fills) : notionalOn (fill.ticker, fill.side) fills = costOf fill.ticker fills := by
  unfold notionalOn costOf sumWhere
  refine congrArg List.sum (List.map_congr_left fun other hother => ?_)
  by_cases hticker : other.ticker = fill.ticker
  · rw [if_pos hticker, if_pos (Prod.ext hticker (hsided other hother fill hfill hticker))]
  · rw [if_neg hticker, if_neg fun hsame => hticker (congrArg Prod.fst hsame)]

/-- A row against what its ticker cost. -/
structure MarkedAtCost (fills : List Fill) (row : PaperPosition) : Prop where
  mark_le : positionValueMicros row ≤ costOf row.ticker fills
  cost_le : costOf row.ticker fills ≤ positionValueMicros row + (|row.quantity.value| - 1)

/-- **What holdings are marked at**: at most what they cost, and less than a micro short of it for
each contract-centi held. -/
theorem marks_bounds {x : PaperExchange} (hsided : OneSided x.fills)
    (hpositive : ∀ fill ∈ x.fills, 0 < fill.quantity.value) :
    ∃ rows, x.getPositions = .ok rows ∧ (∀ row ∈ rows, MarkedAtCost x.fills row) ∧
      positionsValueMicros rows ≤ loggedNotional x.fills ∧
      loggedNotional x.fills ≤
        positionsValueMicros rows + (rows.map fun row => |row.quantity.value| - 1).sum := by
  obtain ⟨items, hperm, hrows⟩ := getPositions_returns hsided hpositive
  have hitem : ∀ item ∈ items, item.2.notionalMicros = costOf item.1.1 x.fills ∧
      0 < item.2.quantityCentis := by
    intro item hmem
    obtain ⟨htotals, fill, hfill, hkey⟩ := mem_fillTotals (hperm.mem_iff.mp hmem)
    rw [htotals, ← hkey]
    exact ⟨notionalOn_eq hsided hfill, filledOn_pos hpositive hfill⟩
  have htotal : (items.map (·.2.notionalMicros)).sum = loggedNotional x.fills := by
    have hfold := sum_notional_foldl x.fills .empty
    rw [(hperm.map _).sum_eq]
    exact hfold.trans (zero_add _)
  refine ⟨_, hrows, fun row hrow => ?_, ?_, ?_⟩
  · obtain ⟨item, hmem, rfl⟩ := List.mem_map.mp hrow
    obtain ⟨hcost, hquantity⟩ := hitem item hmem
    have hticker : (rowOf item).ticker = item.1.1 := by
      unfold rowOf
      split <;> rfl
    have hmark := mark_rowOf hquantity
    rw [hcost] at hmark
    exact ⟨hticker ▸ hmark.1, hticker ▸ hmark.2⟩
  · rw [← htotal, positionsValueMicros, List.map_map]
    exact List.sum_le_sum fun item hmem => (mark_rowOf (hitem item hmem).2).1
  · rw [← htotal, positionsValueMicros, ← List.sum_map_add, List.map_map]
    exact List.sum_le_sum fun item hmem => (mark_rowOf (hitem item hmem).2).2

/-! ## What the equity is made of -/

theorem spentOf_append (cfg : PaperFixture) (fills more : List Fill) :
    spentOf cfg (fills ++ more) = spentOf cfg fills + spentOf cfg more := by
  simp [spentOf]

/-- The fees of some fills are what they were charged, less their notional. -/
theorem sum_fillFee {cfg : PaperFixture} {fills : List Fill}
    (hcharged : ∀ fill ∈ fills, ∃ v, fillCashMicros cfg fill = .ok v) :
    sumEach (fillFeeMicros cfg) fills = .ok (spentOf cfg fills - loggedNotional fills) := by
  induction fills with
  | nil => rfl
  | cons fill rest ih =>
    obtain ⟨cash, hcash⟩ := hcharged fill (.head _)
    obtain ⟨model, hmodel, ⟨hpriced, hpositive⟩, -⟩ := orderCashMicros_ok_iff.mp hcash
    have hfee : fillFeeMicros cfg fill =
        .ok (model.tradingFee fill.price.value fill.quantity.value) := by
      have hbound : model.maxTradingFeeMicros fill.price.value fill.quantity.value =
          .ok (model.tradingFee fill.price.value fill.quantity.value) :=
        FeeModel.maxTradingFeeMicros_ok_iff.mpr ⟨hpriced, hpositive, rfl⟩
      exact except_bind_ok.mpr ⟨model, hmodel, congrArg (Except.mapError PaperError.valueError) hbound⟩
    have hrest := ih fun other hother => hcharged other (.tail _ hother)
    rw [sumEach, hfee, hrest]
    refine congrArg Except.ok ?_
    simp only [spentOf, loggedNotional, List.map_cons, List.sum_cons]
    rw [chargeOf_model hmodel]
    omega

/-- **The equity** is the opening balance less what is spent and withheld, and the marks. -/
theorem stage_equity {cfg : PaperFixture} {floorMicros now equity : ℤ} {x : PaperExchange}
    {rows : List PaperPosition} {ledgered : List StageRow} (hrows : x.getPositions = .ok rows)
    (h : equityAndPositionsStage cfg floorMicros x now = .ok (equity, ledgered)) :
    equity = cfg.balances.available.value - committed cfg x + positionsValueMicros rows := by
  obtain ⟨holdings, hholdings, h⟩ := except_bind_ok.mp h
  obtain ⟨balances, hbalances, h⟩ := except_bind_ok.mp h
  rw [readHoldings, hrows] at hholdings
  cases hholdings
  cases h
  change balances.available.value + _ = _
  rw [getBalances_available hbalances]
  rfl

/-- A sample was taken of an exchange whose fills and resting orders can all be charged. -/
theorem stage_charged {cfg : PaperFixture} {floorMicros now : ℤ} {x : PaperExchange}
    {sample : ℤ × List StageRow} (h : equityAndPositionsStage cfg floorMicros x now = .ok sample) :
    (∀ fill ∈ x.fills, ∃ v, fillCashMicros cfg fill = .ok v) ∧
      ∀ order ∈ x.resting, ∃ v, restingCollateralMicros cfg order = .ok v := by
  obtain ⟨holdings, -, h⟩ := except_bind_ok.mp h
  obtain ⟨balances, hbalances, -⟩ := except_bind_ok.mp h
  exact (getBalances_ok_iff now).mp ⟨balances, hbalances⟩

/-! ## What rests -/

theorem chargeOf_nonneg {cfg : PaperFixture} {order : RestingOrder}
    (h : ∃ v, restingCollateralMicros cfg order = .ok v) :
    0 ≤ chargeOf cfg order.ticker order.price order.quantity.value := by
  obtain ⟨⟨model, hmodel⟩, ⟨hprice, hpayout⟩, hpositive⟩ := chargeable_iff.mp h
  rw [chargeOf_model hmodel]
  exact add_nonneg (mul_nonneg hprice hpositive.le)
    (model.tradingFee_nonneg hprice hpayout hpositive.le)

/-- Less of an order withholds no more. -/
theorem chargeOf_mono {cfg : PaperFixture} {order : RestingOrder} {quantity : ℤ}
    (h : ∃ v, restingCollateralMicros cfg order = .ok v) (hle : quantity ≤ order.quantity.value) :
    chargeOf cfg order.ticker order.price quantity ≤
      chargeOf cfg order.ticker order.price order.quantity.value := by
  obtain ⟨⟨model, hmodel⟩, ⟨hprice, hpayout⟩, -⟩ := chargeable_iff.mp h
  rw [chargeOf_model hmodel, chargeOf_model hmodel]
  refine add_le_add (mul_le_mul_of_nonneg_left hle hprice) ?_
  refine mul_le_mul_of_nonneg_right ?_ microsPerCent_pos.le
  refine quotient_overstate_mono tradingCentDenominator_pos ?_
  refine mul_le_mul_of_nonneg_right (mul_le_mul_of_nonneg_right ?_ hprice) (by omega)
  exact mul_le_mul_of_nonneg_left hle model.ratePpm_nonneg

theorem restsUnder_of_mem {orders : List RestingOrder} (hids : (orders.map (·.id)).Nodup)
    {order : RestingOrder} (h : order ∈ orders) :
    restsUnder order.id orders = order.quantity.value := by
  unfold restsUnder
  induction orders with
  | nil => exact absurd h List.not_mem_nil
  | cons other rest ih =>
    obtain ⟨hfresh, hrest⟩ := List.nodup_cons.mp hids
    rw [sumWhere_cons]
    rcases List.mem_cons.mp h with rfl | hmem
    · rw [if_pos rfl, sumWhere_eq_zero, add_zero]
      intro a ha hsame
      exact hfresh (List.mem_map.mpr ⟨a, ha, hsame⟩)
    · have hother : ¬ HasId order.id other := fun hsame =>
        hfresh (List.mem_map.mpr ⟨order, hmem, hsame.symm⟩)
      rw [if_neg hother, ih hrest hmem, zero_add]

/-- **A step of the recording withholds no more than was withheld.** -/
theorem pledgedOf_serves {cfg : PaperFixture} {x y : PaperExchange} (h : Serves x y)
    (hids : (x.resting.map (·.id)).Nodup)
    (hcharged : ∀ order ∈ x.resting, ∃ v, restingCollateralMicros cfg order = .ok v) :
    pledgedOf cfg y.resting ≤ pledgedOf cfg x.resting := by
  have hids' := h.ids_nodup hids
  obtain ⟨new, -, hserved⟩ := h
  refine sum_le_of_keys_sublist (·.id) hserved.ids (fun order horder => ?_)
    fun survivor hsurvivor order horder hsame => ?_
  · exact chargeOf_nonneg (hcharged order horder)
  · obtain ⟨source, hsource, hremains⟩ := hserved.kept survivor hsurvivor
    have horigin : source = order :=
      List.inj_on_of_nodup_map hids hsource horder (hremains.id.symm.trans hsame)
    subst horigin
    have hbalance := hserved.balance survivor.id
    have hfilled : 0 ≤ filledUnder survivor.id new := by
      refine sumWhere_nonneg fun fill hfill _ => ?_
      obtain ⟨other, -, hof⟩ := hserved.source fill hfill
      exact hof.positive.le
    rw [restsUnder_of_mem hids' hsurvivor, hsame, restsUnder_of_mem hids horder] at hbalance
    rw [hremains.ticker, hremains.price]
    rw [hsame] at hfilled
    exact chargeOf_mono (hcharged source horder) (by omega)

/-! ## Runs in which nothing comes to rest -/

/-- A placement that goes through and leaves something to rest at a price other than zero: more is
asked for than the walk may take. -/
def Withholds (cfg : PaperFixture) (t : PaperTransition) : Prop :=
  ∃ intent step, t.input = .place intent ∧ t.pre.exchange.currentStep cfg intent.ticker = .ok step ∧
    (∃ placed, t.pre.exchange.placeOrder cfg intent = .ok placed) ∧
      targetOf cfg intent step < intent.quantity.value ∧ intent.price.value ≠ 0

/-- A state that a run reached from an exchange while nothing more was withheld. -/
structure FreesFrom (cfg : PaperFixture) (x : PaperExchange) (s : PaperRun) : Prop where
  regular : Regular s
  fills : ∀ fill ∈ s.exchange.fills, ∃ v, fillCashMicros cfg fill = .ok v
  resting : ∀ order ∈ s.exchange.resting, ∃ v, restingCollateralMicros cfg order = .ok v
  logged : ∃ new, s.exchange.fills = x.fills ++ new
  pledged : pledgedOf cfg s.exchange.resting ≤ pledgedOf cfg x.resting

theorem FreesFrom.places {cfg : PaperFixture} {x y : PaperExchange} {s : PaperRun}
    (h : FreesFrom cfg x s) {intent : PaperOrderIntent} {step : SessionStep}
    {placement : PaperPlacement} (hplaced : Placement cfg intent step s.exchange y placement)
    (hfree : targetOf cfg intent step < intent.quantity.value → intent.price.value = 0) :
    FreesFrom cfg x (s.afterPlacing intent placement y) := by
  have hadds := hplaced.adds
  obtain ⟨model, hmodel⟩ := hplaced.priced
  obtain ⟨new, hlogged⟩ := h.logged
  -- what is left of the order rests at a price of zero, and withholds nothing
  have hrested : ∀ order ∈ placement.restingOrder.toList, order.price.value = 0 ∧
      getFeeModel cfg order.ticker = .ok model ∧ 0 < order.quantity.value := by
    intro order horder
    obtain ⟨hticker, -, hprice, hquantity, hpositive⟩ := hadds.order order (Option.mem_toList.mp horder)
    refine ⟨?_, hticker ▸ hmodel, by omega⟩
    rw [hprice]
    exact hfree (by omega)
  have hnothing : pledgedOf cfg placement.restingOrder.toList = 0 := by
    refine List.sum_eq_zero fun charge hcharge => ?_
    obtain ⟨order, horder, rfl⟩ := List.mem_map.mp hcharge
    obtain ⟨hprice, hschedule, -⟩ := hrested order horder
    rw [chargeOf_model hschedule, hprice]
    simp [FeeModel.tradingFee, quotient]
  refine ⟨h.regular.places hplaced, fun fill hfill => ?_, fun order horder => ?_,
    ⟨new ++ placement.fills, ?_⟩, ?_⟩
  · change fill ∈ y.fills at hfill
    rw [hadds.fills] at hfill
    rcases List.mem_append.mp hfill with hold | hnew
    · exact h.fills fill hold
    · have htaker := hplaced.fills fill hnew
      refine chargeable_iff.mpr ⟨⟨model, ?_⟩, htaker.priced, htaker.positive⟩
      rw [htaker.ticker]
      exact hmodel
  · change order ∈ y.resting at horder
    rw [hadds.resting] at horder
    rcases List.mem_append.mp horder with hold | hnew
    · exact h.resting order hold
    · obtain ⟨hprice, hschedule, hpositive⟩ := hrested order hnew
      exact chargeable_iff.mpr ⟨⟨model, hschedule⟩, by rw [hprice]; decide, hpositive⟩
  · change y.fills = _
    rw [hadds.fills, hlogged, List.append_assoc]
  · change pledgedOf cfg y.resting ≤ _
    have hsum : pledgedOf cfg y.resting =
        pledgedOf cfg s.exchange.resting + pledgedOf cfg placement.restingOrder.toList := by
      rw [hadds.resting, pledgedOf, List.map_append, List.sum_append]
      rfl
    rw [hsum, hnothing, add_zero]
    exact h.pledged

theorem FreesFrom.serves {cfg : PaperFixture} {x y : PaperExchange} {s : PaperRun}
    (h : FreesFrom cfg x s) (hserves : Serves s.exchange y) :
    FreesFrom cfg x { s with exchange := y } := by
  obtain ⟨hfills, hresting⟩ := hserves.chargeable h.fills h.resting
  have hpledged := pledgedOf_serves hserves h.regular.numbering.resting_ids_nodup h.resting
  obtain ⟨new, hlogged⟩ := h.logged
  refine ⟨h.regular.serves hserves, hfills, hresting, ?_, hpledged.trans h.pledged⟩
  obtain ⟨more, hlogs, -⟩ := hserves
  refine ⟨new ++ more, ?_⟩
  change y.fills = _
  rw [hlogs.fills, hlogged, List.append_assoc]

theorem FreesFrom.cancels {cfg : PaperFixture} {x : PaperExchange} {s : PaperRun}
    (h : FreesFrom cfg x s) (orderId : String) : FreesFrom cfg x (s.afterCancelling orderId) := by
  have hsub : (s.exchange.cancelOrder orderId).resting.Sublist s.exchange.resting :=
    List.filter_sublist
  refine ⟨h.regular.cancels orderId, h.fills, fun order horder => h.resting order (hsub.subset horder),
    h.logged, le_trans ?_ h.pledged⟩
  refine (hsub.map _).sum_le_sum fun charge hcharge => ?_
  obtain ⟨order, horder, rfl⟩ := List.mem_map.mp hcharge
  exact chargeOf_nonneg (h.resting order horder)

/-- **One operation**, unless it leaves something to rest at a price. -/
theorem FreesFrom.step {cfg : PaperFixture} {x : PaperExchange} {s : PaperRun}
    (h : FreesFrom cfg x s) (op : PaperOp)
    (hfree : ¬ Withholds cfg (transition (paperStep cfg) s op)) :
    FreesFrom cfg x (paperStep cfg s op).2 := by
  rcases paperStep_cases cfg h.regular op with ⟨intent, placement, y, rfl, hplace, hafter⟩ |
    ⟨intent, e, -, -, hafter⟩ | ⟨y, -, hserves, hafter⟩ | ⟨orderId, -, hafter⟩
  · obtain ⟨step, hstep, hplaced⟩ := placeOrder_ok hplace
    rw [hafter]
    refine h.places hplaced fun hleft => ?_
    exact Decidable.not_not.mp fun hprice => hfree
      ⟨intent, step, rfl, hstep, ⟨_, hplace⟩, hleft, hprice⟩
  · rw [hafter]
    exact h
  · rw [hafter]
    exact h.serves hserves
  · rw [hafter]
    exact h.cancels orderId

/-- The equities of two states, of which one was reached from the other while nothing more was
withheld. -/
theorem FreesFrom.equity_falls {cfg : PaperFixture} {floorMicros now later equity equity' : ℤ}
    {ledgered ledgered' : List StageRow} {x : PaperExchange} {s : PaperRun}
    (h : FreesFrom cfg x s) (hsided : OneSided s.exchange.fills)
    (hbefore : equityAndPositionsStage cfg floorMicros x now = .ok (equity, ledgered))
    (hafter : equityAndPositionsStage cfg floorMicros s.exchange later = .ok (equity', ledgered')) :
    ∃ new rows fees, s.exchange.fills = x.fills ++ new ∧
      sumEach (fillFeeMicros cfg) new = .ok fees ∧ s.exchange.getPositions = .ok rows ∧
      equity - equity' ≤ fees + (rows.map fun row => |row.quantity.value| - 1).sum ∧
      ∀ row ∈ rows, MarkedAtCost s.exchange.fills row := by
  obtain ⟨new, hlogged⟩ := h.logged
  have hpositive : ∀ fill ∈ s.exchange.fills, 0 < fill.quantity.value := fun fill hfill =>
    (chargeable_iff.mp (h.fills fill hfill)).2.2
  have hold : ∀ fill ∈ x.fills, fill ∈ s.exchange.fills := fun fill hfill =>
    hlogged ▸ List.mem_append_left new hfill
  obtain ⟨oldRows, holdRows, -, hmarked, -⟩ := marks_bounds
    (fun a ha b hb => hsided a (hold a ha) b (hold b hb)) fun fill hfill =>
      hpositive fill (hold fill hfill)
  obtain ⟨rows, hrows, hcosts, -, hcost⟩ := marks_bounds hsided hpositive
  have hfees := sum_fillFee fun fill hfill =>
    h.fills fill (hlogged ▸ List.mem_append_right x.fills hfill)
  have hequity := stage_equity holdRows hbefore
  have hequity' := stage_equity hrows hafter
  have hpledged := h.pledged
  refine ⟨new, rows, _, hlogged, hfees, hrows, ?_, hcosts⟩
  rw [hlogged, loggedNotional_append] at hcost
  rw [committed, hlogged, spentOf_append] at hequity'
  rw [committed] at hequity
  omega

/-- **Between two samples of a run** in which nothing comes to rest at a price, the equity falls by
at most the fees of the fills between them and, for each holding, less than a micro for each
contract-centi; and no holding is marked above what it cost. -/
theorem equity_falls_by_fees (cfg : PaperFixture) (floorMicros : ℤ) (before between : List PaperOp)
    (now later : ℤ) {equity equity' : ℤ} {ledgered ledgered' : List StageRow}
    (hbefore : equityAndPositionsStage cfg floorMicros
      (run (paperStep cfg) .fresh before).exchange now = .ok (equity, ledgered))
    (hafter : equityAndPositionsStage cfg floorMicros
      (run (paperStep cfg) .fresh (before ++ between)).exchange later = .ok (equity', ledgered'))
    (hsided : OneSided (run (paperStep cfg) .fresh (before ++ between)).exchange.fills)
    (hfree : ∀ t ∈ trace (paperStep cfg) (run (paperStep cfg) .fresh before) between,
      ¬ Withholds cfg t) :
    ∃ new rows fees, (run (paperStep cfg) .fresh (before ++ between)).exchange.fills =
        (run (paperStep cfg) .fresh before).exchange.fills ++ new ∧
      sumEach (fillFeeMicros cfg) new = .ok fees ∧
      (run (paperStep cfg) .fresh (before ++ between)).exchange.getPositions = .ok rows ∧
      equity - equity' ≤ fees + (rows.map fun row => |row.quantity.value| - 1).sum ∧
      ∀ row ∈ rows, MarkedAtCost (run (paperStep cfg) .fresh (before ++ between)).exchange.fills
        row := by
  obtain ⟨hfills, hresting⟩ := stage_charged hbefore
  have hstart : FreesFrom cfg (run (paperStep cfg) .fresh before).exchange
      (run (paperStep cfg) .fresh before) :=
    ⟨run_invariant (fun s op h => h.step op) fresh_regular before, hfills, hresting,
      ⟨[], (List.append_nil _).symm⟩, le_refl _⟩
  have hend := run_invariant_of_guard (fun s op h hop => h.step op hop) hstart hfree
  rw [← run_append] at hend
  exact hend.equity_falls hsided hbefore hafter

/-- The order that came to rest is filled in part as the recording is advanced. -/
theorem equity_falls_by_fees_through : ∃ new rows fees,
    (run (paperStep throughFixture) .fresh (restAtTwenty ++ [.advance])).exchange.fills =
        (run (paperStep throughFixture) .fresh restAtTwenty).exchange.fills ++ new ∧
      sumEach (fillFeeMicros throughFixture) new = .ok fees ∧
      (run (paperStep throughFixture) .fresh (restAtTwenty ++ [.advance])).exchange.getPositions =
        .ok rows ∧
      9570000 - 9760000 ≤ fees + (rows.map fun row => |row.quantity.value| - 1).sum ∧
      ∀ row ∈ rows, MarkedAtCost
        (run (paperStep throughFixture) .fresh (restAtTwenty ++ [.advance])).exchange.fills row := by
  have hbefore : equityAndPositionsStage throughFixture 0
      (run (paperStep throughFixture) .fresh restAtTwenty).exchange 0 = .ok (9570000,
        [.equitySampled 9570000 0 0, .positionsSnapshotRecorded []]) := by rfl
  have hafter : equityAndPositionsStage throughFixture 0
      (run (paperStep throughFixture) .fresh (restAtTwenty ++ [.advance])).exchange 1 =
        .ok (9760000, [.equitySampled 9760000 0 1,
          .positionsSnapshotRecorded [⟨⟨"MKT", ⟨100⟩⟩, ⟨2000⟩⟩]]) := by rfl
  have hsided : OneSided
      (run (paperStep throughFixture) .fresh (restAtTwenty ++ [.advance])).exchange.fills := by
    unfold OneSided
    decide +kernel
  refine equity_falls_by_fees throughFixture 0 restAtTwenty [.advance] 0 1 hbefore hafter hsided ?_
  intro t ht
  rw [List.mem_singleton.mp ht]
  rintro ⟨intent, step, hinput, -⟩
  exact PaperOp.noConfusion hinput

/-! ## What resting does -/

/-- **An order that merely comes to rest** lowers the sampled equity by what it withholds. -/
theorem resting_lowers_equity {cfg : PaperFixture} {floorMicros now later equity equity' : ℤ}
    {ledgered ledgered' : List StageRow} {x y : PaperExchange} {intent : PaperOrderIntent}
    {placement : PaperPlacement} {order : RestingOrder}
    (hplaced : x.placeOrder cfg intent = .ok (placement, y)) (hnone : placement.fills = [])
    (hrests : placement.restingOrder = some order) (hsided : OneSided x.fills)
    (hbefore : equityAndPositionsStage cfg floorMicros x now = .ok (equity, ledgered))
    (hafter : equityAndPositionsStage cfg floorMicros y later = .ok (equity', ledgered')) :
    restingCollateralMicros cfg order = .ok (equity - equity') := by
  obtain ⟨step, -, hplacement⟩ := placeOrder_ok hplaced
  have hadds := hplacement.adds
  have hfills : y.fills = x.fills := by rw [hadds.fills, hnone, List.append_nil]
  have hresting : y.resting = x.resting ++ [order] := by rw [hadds.resting, hrests]; rfl
  obtain ⟨rows, hrows, -⟩ := marks_bounds hsided fun fill hfill =>
    (chargeable_iff.mp ((stage_charged hbefore).1 fill hfill)).2.2
  have hsame : y.getPositions = .ok rows := by
    rw [← hrows, getPositions, getPositions, fillTotals, fillTotals, hfills]
  have hequity := stage_equity hrows hbefore
  have hequity' := stage_equity hsame hafter
  have hpledged : pledgedOf cfg (x.resting ++ [order]) = pledgedOf cfg x.resting +
      chargeOf cfg order.ticker order.price order.quantity.value := by
    rw [pledgedOf, List.map_append, List.sum_append, List.map_singleton, List.sum_singleton]
    rfl
  rw [committed] at hequity
  rw [committed, hfills, hresting, hpledged] at hequity'
  obtain ⟨cash, hcash⟩ := (stage_charged hafter).2 order (hresting ▸ List.mem_append_right _ (.head _))
  have hcharge : cash = chargeOf cfg order.ticker order.price order.quantity.value :=
    orderCashMicros_charge hcash
  rw [hcash]
  exact congrArg Except.ok (by omega)

theorem resting_lowers_atTwenty : ∃ placement y order,
    PaperExchange.fresh.placeOrder throughFixture ⟨"MKT", .yes, ⟨2000⟩, ⟨200⟩⟩ =
        .ok (placement, y) ∧
      placement.restingOrder = some order ∧
      restingCollateralMicros throughFixture order = .ok (10000000 - 9570000) := by
  have hbefore : equityAndPositionsStage throughFixture 0 PaperExchange.fresh 0 =
      .ok (10000000, [.equitySampled 10000000 0 0, .positionsSnapshotRecorded []]) := rfl
  have hafter : equityAndPositionsStage throughFixture 0
      (run (paperStep throughFixture) .fresh restAtTwenty).exchange 300 =
        .ok (9570000, [.equitySampled 9570000 0 300, .positionsSnapshotRecorded []]) := rfl
  have hsided : OneSided PaperExchange.fresh.fills := fun _ hfill => absurd hfill List.not_mem_nil
  obtain ⟨placement, y, order, hplaced, hnone, hrests, hsame⟩ : ∃ placement y order,
      PaperExchange.fresh.placeOrder throughFixture ⟨"MKT", .yes, ⟨2000⟩, ⟨200⟩⟩ =
          .ok (placement, y) ∧
        placement.fills = [] ∧ placement.restingOrder = some order ∧
        y = (run (paperStep throughFixture) .fresh restAtTwenty).exchange :=
    ⟨_, _, _, rfl, rfl, rfl, rfl⟩
  exact ⟨placement, y, order, hplaced, hrests,
    resting_lowers_equity hplaced hnone hrests hsided hbefore (hsame ▸ hafter)⟩

/-- **A loss without a fill**: an order for two contracts comes to rest at twenty cents, nothing is
filled and nothing held, and the day has lost forty-three cents. -/
theorem resting_counts_as_loss : ∃ equity equity' ledgered ledgered',
    equityAndPositionsStage throughFixture 0 PaperExchange.fresh 0 = .ok (equity, ledgered) ∧
      equityAndPositionsStage throughFixture 0
        (run (paperStep throughFixture) .fresh restAtTwenty).exchange 300 =
          .ok (equity', ledgered') ∧
      (run (paperStep throughFixture) .fresh restAtTwenty).exchange.fills = [] ∧
      (run (paperStep throughFixture) .fresh restAtTwenty).exchange.getPositions = .ok [] ∧
      equity - equity' = 430000 ∧
      (foldDayEquity [⟨1, 0, equity⟩, ⟨2, 300, equity'⟩] 0).map DayEquity.realizedLoss =
        some 430000 :=
  ⟨10000000, 9570000, [.equitySampled 10000000 0 0, .positionsSnapshotRecorded []],
    [.equitySampled 9570000 0 300, .positionsSnapshotRecorded []], rfl, rfl, rfl, rfl, rfl,
    by decide +kernel⟩

end Windbreak
