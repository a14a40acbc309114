import Mathlib.Tactic.Linarith
import Windbreak.Connector.PaperHanded
import Windbreak.Connector.PaperRuns
import Windbreak.Connector.TakerWalk

/-!
# What filling at the limit does to the available balance

A resting order withholds what filling it whole would cost.  Filled in part, it is charged for the
part and withholds what the rest would cost; the two notionals add up, but each fee is rounded up to
a cent by itself, so that the available balance can shrink, and never grows.

* `SplitsEvenly` — the fee of a part and the fee of the rest are the fee of the whole.
* **`advance_committed`** — what a step of the recording adds to what is spent and withheld.
* **`filling_keeps_available_iff`** — the available balance is kept exactly when every order that the
  step fills in part splits evenly.
-/

namespace Windbreak

open Machine Effects PaperExchange PaperRun

variable {cfg : PaperFixture} {x y z : PaperExchange}

/-! ## What is spent and withheld -/

/-- What a quantity of a ticker is charged at a price. -/
def chargeOf (cfg : PaperFixture) (ticker : String) (price : PricePips) (quantity : ℤ) : ℤ :=
  match getFeeModel cfg ticker with
  | .ok model => price.value * quantity + model.tradingFee price.value quantity
  | .error _ => 0

def spentOf (cfg : PaperFixture) (fills : List Fill) : ℤ :=
  (fills.map fun fill => chargeOf cfg fill.ticker fill.price fill.quantity.value).sum

def pledgedOf (cfg : PaperFixture) (orders : List RestingOrder) : ℤ :=
  (orders.map fun order => chargeOf cfg order.ticker order.price order.quantity.value).sum

/-- What an exchange has spent and withheld. -/
def committed (cfg : PaperFixture) (x : PaperExchange) : ℤ :=
  spentOf cfg x.fills + pledgedOf cfg x.resting

theorem chargeOf_model {model : FeeModel} {ticker : String} (h : getFeeModel cfg ticker = .ok model)
    (price : PricePips) (quantity : ℤ) : chargeOf cfg ticker price quantity =
      price.value * quantity + model.tradingFee price.value quantity := by
  rw [chargeOf, h]

theorem orderCashMicros_charge {ticker : String} {price : PricePips} {quantity : ContractCentis}
    {cash : ℤ} (h : orderCashMicros cfg ticker price quantity = .ok cash) :
    cash = chargeOf cfg ticker price quantity.value := by
  obtain ⟨model, hmodel, -, hcash⟩ := orderCashMicros_ok_iff.mp h
  rw [chargeOf_model hmodel, hcash]

theorem sumEach_map {α : Type} {f : α → Except PaperError ℤ} {g : α → ℤ} {xs : List α} {v : ℤ}
    (hf : ∀ a v, f a = .ok v → v = g a) (h : sumEach f xs = .ok v) : v = (xs.map g).sum := by
  induction xs generalizing v with
  | nil =>
      cases h
      rfl
  | cons a rest ih =>
      obtain ⟨head, hhead, h⟩ := except_bind_ok.mp h
      obtain ⟨tail, htail, h⟩ := except_bind_ok.mp h
      cases h
      rw [List.map_cons, List.sum_cons, hf a head hhead, ih htail]

/-- **The available balance** is the opening one less what is spent and withheld. -/
theorem getBalances_available {now : ℤ} {b : BalanceSnapshot} (h : x.getBalances cfg now = .ok b) :
    b.available.value = cfg.balances.available.value - committed cfg x := by
  obtain ⟨spent, hspent, h⟩ := except_bind_ok.mp h
  obtain ⟨pledged, hpledged, h⟩ := except_bind_ok.mp h
  cases h
  have hs : spent = spentOf cfg x.fills :=
    sumEach_map (fun fill v hv => orderCashMicros_charge hv) hspent
  have hp : pledged = pledgedOf cfg x.resting :=
    sumEach_map (fun order v hv => orderCashMicros_charge hv) hpledged
  change cfg.balances.available.value - spent - pledged = _
  rw [hs, hp, committed]
  omega

/-- The balances can be read exactly when every fill and every resting order can be charged. -/
theorem getBalances_ok_iff (now : ℤ) : (∃ b, x.getBalances cfg now = .ok b) ↔
    (∀ fill ∈ x.fills, ∃ v, fillCashMicros cfg fill = .ok v) ∧
      ∀ order ∈ x.resting, ∃ v, restingCollateralMicros cfg order = .ok v := by
  rw [← sumEach_ok_iff, ← sumEach_ok_iff]
  constructor
  · rintro ⟨b, h⟩
    obtain ⟨spent, hspent, h⟩ := except_bind_ok.mp h
    obtain ⟨pledged, hpledged, -⟩ := except_bind_ok.mp h
    exact ⟨⟨spent, hspent⟩, pledged, hpledged⟩
  · rintro ⟨⟨spent, hspent⟩, pledged, hpledged⟩
    exact ⟨_, except_bind_ok.mpr ⟨spent, hspent, except_bind_ok.mpr ⟨pledged, hpledged, rfl⟩⟩⟩

/-! ## One order -/

/-- The fee of a part of an order and the fee of the rest of it are the fee of the whole. -/
def SplitsEvenly (cfg : PaperFixture) (order : RestingOrder) (part : ℤ) : Prop :=
  0 < part → part < order.quantity.value → ∀ model, getFeeModel cfg order.ticker = .ok model →
    model.tradingFee order.price.value part +
        model.tradingFee order.price.value (order.quantity.value - part) =
      model.tradingFee order.price.value order.quantity.value

/-- What filling a part of an order adds to what is spent and withheld. -/
def splitCost (cfg : PaperFixture) (order : RestingOrder) (part : ℤ) : ℤ :=
  if 0 < part ∧ part < order.quantity.value then
    chargeOf cfg order.ticker order.price part +
        chargeOf cfg order.ticker order.price (order.quantity.value - part) -
      chargeOf cfg order.ticker order.price order.quantity.value
  else 0

theorem splitCost_model {order : RestingOrder} {part : ℤ} {model : FeeModel}
    (hmodel : getFeeModel cfg order.ticker = .ok model)
    (hpart : 0 < part ∧ part < order.quantity.value) :
    splitCost cfg order part = model.tradingFee order.price.value part +
        model.tradingFee order.price.value (order.quantity.value - part) -
      model.tradingFee order.price.value order.quantity.value := by
  rw [splitCost, if_pos hpart, chargeOf_model hmodel, chargeOf_model hmodel, chargeOf_model hmodel]
  linarith [mul_sub order.price.value order.quantity.value part]

theorem splitCost_nonneg (cfg : PaperFixture) (order : RestingOrder) (part : ℤ) :
    0 ≤ splitCost cfg order part := by
  by_cases hpart : 0 < part ∧ part < order.quantity.value
  · cases hmodel : getFeeModel cfg order.ticker with
    | ok model =>
        have hsplit := model.tradingFee_split_le order.price.value part (order.quantity.value - part)
        rw [add_sub_cancel] at hsplit
        rw [splitCost_model hmodel hpart]
        omega
    | error e => simp [splitCost, chargeOf, hmodel]
  · rw [splitCost, if_neg hpart]

theorem splitCost_eq_zero_iff (cfg : PaperFixture) (order : RestingOrder) (part : ℤ) :
    splitCost cfg order part = 0 ↔ SplitsEvenly cfg order part := by
  by_cases hpart : 0 < part ∧ part < order.quantity.value
  · cases hmodel : getFeeModel cfg order.ticker with
    | ok model =>
        rw [splitCost_model hmodel hpart]
        constructor
        · rintro hzero - - other hother
          cases hmodel.symm.trans hother
          omega
        · intro heven
          have hfees := heven hpart.1 hpart.2 model hmodel
          omega
    | error e =>
        refine iff_of_true (by simp [splitCost, chargeOf, hmodel]) ?_
        rintro - - other hother
        cases hmodel.symm.trans hother
  · rw [splitCost, if_neg hpart]
    exact iff_of_true rfl fun hpos hlt => absurd ⟨hpos, hlt⟩ hpart

/-- **Filling one order** with what it is handed. -/
theorem applyRestingFill_committed (cfg : PaperFixture) {order : RestingOrder} {step : SessionStep}
    {quantity : ContractCentis} {survivor : Option RestingOrder}
    (hallocated : Allocated (sidePrints order.side step) (restingRequest step order) quantity)
    (h : x.applyRestingFill order step quantity = .ok (survivor, y)) :
    spentOf cfg y.fills + pledgedOf cfg survivor.toList =
      spentOf cfg x.fills + pledgedOf cfg [order] + splitCost cfg order (max quantity.value 0) := by
  unfold applyRestingFill at h
  by_cases hnone : quantity.value ≤ 0
  · rw [if_pos hnone] at h
    cases h
    have hzero : splitCost cfg order (max quantity.value 0) = 0 := by
      rw [max_eq_right hnone, splitCost, if_neg fun hpart => lt_irrefl 0 hpart.1]
    rw [hzero, add_zero, Option.toList_some]
  · rw [if_neg hnone] at h
    have hpos : 0 < quantity.value := not_le.mp hnone
    have hle : quantity.value ≤ order.quantity.value := (hallocated.resolve_left hnone).1
    obtain ⟨ts, -, h⟩ := except_bind_ok.mp h
    cases h
    rw [max_eq_left hpos.le]
    have hspent : spentOf cfg (x.emitFill order.ticker order.side order.price quantity ts
        (some order.id)).2.fills = spentOf cfg x.fills +
          chargeOf cfg order.ticker order.price quantity.value := by
      rw [(x.emitFill_emits order.ticker order.side order.price quantity ts (some order.id)).fills,
        spentOf, List.map_append, List.sum_append, List.map_singleton, List.sum_singleton]
      rfl
    have hpledged : pledgedOf cfg [order] =
        chargeOf cfg order.ticker order.price order.quantity.value := List.sum_singleton
    rw [hspent, hpledged]
    by_cases hdone : order.quantity.value - quantity.value ≤ 0
    · -- the order is filled whole
      have hwhole : quantity.value = order.quantity.value := by omega
      have hleft : pledgedOf cfg (none : Option RestingOrder).toList = 0 := rfl
      rw [if_pos hdone, hleft, splitCost, if_neg fun hpart => absurd hpart.2 (by omega), hwhole]
    · have hleft : pledgedOf cfg
          (some { order with quantity := ⟨order.quantity.value - quantity.value⟩ }).toList =
            chargeOf cfg order.ticker order.price (order.quantity.value - quantity.value) :=
        List.sum_singleton
      rw [if_neg hdone, hleft, splitCost, if_pos ⟨hpos, by omega⟩]
      omega

/-! ## A step of the recording -/

/-- What some orders add to what is spent and withheld as they are filled: nothing exactly when each
that meets a condition splits evenly. -/
def Adding (cfg : PaperFixture) (before after : ℤ) (P : RestingOrder → ℤ → Prop) : Prop :=
  before ≤ after ∧ (after = before ↔ ∀ order part, P order part → SplitsEvenly cfg order part)

theorem applyEach_committed (cfg : PaperFixture) {ticker : String} {step : SessionStep}
    {filled : List (String × ContractCentis)} {orders survivors : List RestingOrder}
    (hhanded : ∀ order ∈ orders, order.ticker = ticker → Handed step filled order)
    (h : applyEach ticker step filled x orders = .ok (survivors, y)) :
    Adding cfg (spentOf cfg x.fills + pledgedOf cfg orders)
      (spentOf cfg y.fills + pledgedOf cfg survivors)
      fun order part => order ∈ orders ∧ order.ticker = ticker ∧ part = shareOf filled order.id := by
  induction orders generalizing x survivors with
  | nil =>
      cases h
      exact ⟨le_refl _, iff_of_true rfl fun order part hmem => absurd hmem.1 List.not_mem_nil⟩
  | cons order rest ih =>
      have hrest := fun o ho => hhanded o (.tail _ ho)
      have hsplit : ∀ order : RestingOrder, ∀ orders, pledgedOf cfg (order :: orders) =
          pledgedOf cfg [order] + pledgedOf cfg orders := by
        intro order orders
        rw [pledgedOf, pledgedOf, List.map_cons, List.sum_cons, List.map_singleton,
          List.sum_singleton]
        rfl
      rw [applyEach] at h
      by_cases hother : order.ticker ≠ ticker
      · rw [if_pos hother] at h
        obtain ⟨⟨more, w⟩, hmore, h⟩ := except_bind_ok.mp h
        cases h
        obtain ⟨hle, hiff⟩ := ih hrest hmore
        rw [hsplit order rest, hsplit order more]
        refine ⟨by omega, Iff.trans ⟨fun h => by omega, fun h => by omega⟩ (hiff.trans ?_)⟩
        refine forall_congr' fun o => forall_congr' fun part => ⟨fun h hmem => ?_, fun h hmem => ?_⟩
        · rcases List.mem_cons.mp hmem.1 with rfl | hin
          · exact absurd hmem.2.1 hother
          · exact h ⟨hin, hmem.2⟩
        · exact h ⟨.tail _ hmem.1, hmem.2⟩
      · have hticker : order.ticker = ticker := not_not.mp hother
        obtain ⟨quantity, hlookup, hallocated⟩ := hhanded order (.head _) hticker
        rw [if_neg hother, hlookup] at h
        obtain ⟨⟨survivor, w⟩, hone, h⟩ := except_bind_ok.mp h
        obtain ⟨⟨more, v⟩, hmore, h⟩ := except_bind_ok.mp h
        cases h
        have hmine : shareOf filled order.id = max quantity.value 0 := by
          rw [shareOf, hlookup, Option.getD_some]
        have hcost := applyRestingFill_committed cfg hallocated hone
        have hnonneg := splitCost_nonneg cfg order (max quantity.value 0)
        have hzero := splitCost_eq_zero_iff cfg order (max quantity.value 0)
        obtain ⟨hle, hiff⟩ := ih hrest hmore
        have happend : pledgedOf cfg (survivor.toList ++ more) =
            pledgedOf cfg survivor.toList + pledgedOf cfg more := by
          rw [pledgedOf, List.map_append, List.sum_append]
          rfl
        rw [hsplit order rest, happend]
        refine ⟨by omega, fun hsame o part hmem => ?_, fun heven => ?_⟩
        · have hlater := hiff.mp (by omega)
          have hfirst := hzero.mp (by omega)
          rcases List.mem_cons.mp hmem.1 with rfl | hin
          · rw [hmem.2.2, hmine]
            exact hfirst
          · exact hlater o part ⟨hin, hmem.2⟩
        · have hlater := hiff.mpr fun o part hmem => heven o part ⟨.tail _ hmem.1, hmem.2⟩
          have hfirst := hzero.mpr (hmine ▸ heven order _ ⟨.head _, hticker, rfl⟩)
          omega

theorem processRestingFills_committed (hids : (x.resting.map (·.id)).Nodup) {ticker : String}
    {step : SessionStep} (h : x.processRestingFills cfg ticker step = .ok y) :
    Adding cfg (committed cfg x) (committed cfg y) fun order part => order ∈ x.resting ∧
      order.ticker = ticker ∧ part = shareOf (x.allocateResting cfg ticker step) order.id := by
  obtain ⟨⟨survivors, w⟩, hrun, h⟩ := except_bind_ok.mp h
  cases h
  have hadding := applyEach_committed cfg
    (fun order horder hticker => allocateResting_handed hids cfg step horder hticker) hrun
  exact hadding

/-- A part that the step of an order's ticker, which is up next, hands to it. -/
structure NextPart (cfg : PaperFixture) (x : PaperExchange)
    (sessions : List (String × List SessionStep)) (order : RestingOrder) (part : ℤ) : Prop where
  rests : order ∈ x.resting
  handed : ∃ steps step, (order.ticker, steps) ∈ sessions ∧
    steps[x.cursor order.ticker]? = some step ∧
      part = shareOf (x.allocateResting cfg order.ticker step) order.id

/-- Stepping one ticker leaves what the others are handed. -/
theorem nextPart_stepped {ticker : String} {step : SessionStep}
    {rest : List (String × List SessionStep)} (hfresh : ticker ∉ rest.map Prod.fst)
    (h : x.processRestingFills cfg ticker step = .ok y) {order : RestingOrder} {part : ℤ} :
    NextPart cfg (y.stepped ticker) rest order part ↔ NextPart cfg x rest order part := by
  have hands := processRestingFills_hands h
  by_cases hticker : order.ticker = ticker
  · -- the ticker just stepped has no other session
    have hnone : ∀ steps, (order.ticker, steps) ∉ rest := fun steps hmem =>
      hfresh (hticker ▸ List.mem_map_of_mem hmem)
    refine iff_of_false ?_ ?_
    · rintro ⟨-, steps, -, hmem, -⟩
      exact hnone steps hmem
    · rintro ⟨-, steps, -, hmem, -⟩
      exact hnone steps hmem
  · have hothers := hands.others order.ticker hticker
    have hrests : order ∈ (y.stepped ticker).resting ↔ order ∈ x.resting := by
      have hmem : order ∈ y.resting.filter (fun o => o.ticker = order.ticker) ↔
          order ∈ x.resting.filter fun o => o.ticker = order.ticker := by rw [hothers]
      rw [List.mem_filter, List.mem_filter] at hmem
      have hstands : order ∈ y.resting ↔ order ∈ x.resting := by simpa using hmem
      exact hstands
    have hcursor : (y.stepped ticker).cursor order.ticker = x.cursor order.ticker := by
      rw [← hands.cursor]
      exact Function.update_of_ne hticker _ _
    have hsame : ∀ step, (y.stepped ticker).allocateResting cfg order.ticker step =
        x.allocateResting cfg order.ticker step := allocateResting_congr hothers
    constructor
    · rintro ⟨hmem, steps, step', hsession, hcurrent, hpart⟩
      rw [hcursor] at hcurrent
      rw [hsame] at hpart
      exact ⟨hrests.mp hmem, steps, step', hsession, hcurrent, hpart⟩
    · rintro ⟨hmem, steps, step', hsession, hcurrent, hpart⟩
      refine ⟨hrests.mpr hmem, steps, step', hsession, ?_, ?_⟩
      · rw [hcursor]
        exact hcurrent
      · rw [hsame]
        exact hpart

theorem advanceEach_committed {sessions : List (String × List SessionStep)}
    (hnodup : (sessions.map Prod.fst).Nodup) (hids : (x.resting.map (·.id)).Nodup)
    {anyNext : Bool} (h : advanceEach cfg x sessions = .ok (anyNext, z)) :
    Adding cfg (committed cfg x) (committed cfg z) (NextPart cfg x sessions) := by
  induction sessions generalizing x anyNext with
  | nil =>
      cases h
      refine ⟨le_refl _, iff_of_true rfl ?_⟩
      rintro order part ⟨-, steps, -, hmem, -⟩
      exact absurd hmem List.not_mem_nil
  | cons session rest ih =>
      obtain ⟨ticker, steps⟩ := session
      obtain ⟨hfresh, hrest⟩ := List.nodup_cons.mp hnodup
      rw [advanceEach] at h
      cases hstep : steps[x.cursor ticker]? with
      | none =>
          rw [hstep] at h
          obtain ⟨hle, hiff⟩ := ih hrest hids h
          refine ⟨hle, hiff.trans ⟨fun heven order part hnext => heven order part ?_,
            fun heven order part hnext => heven order part ?_⟩⟩
          · obtain ⟨hmem, steps', step, hsession, hcurrent, hpart⟩ := hnext
            rcases List.mem_cons.mp hsession with hsame | hin
            · cases hsame
              rw [hstep] at hcurrent
              cases hcurrent
            · exact ⟨hmem, steps', step, hin, hcurrent, hpart⟩
          · obtain ⟨hmem, steps', step, hsession, hcurrent, hpart⟩ := hnext
            exact ⟨hmem, steps', step, .tail _ hsession, hcurrent, hpart⟩
      | some step =>
          rw [hstep] at h
          obtain ⟨y, hone, h⟩ := except_bind_ok.mp h
          obtain ⟨⟨more, w⟩, hmore, h⟩ := except_bind_ok.mp h
          cases h
          obtain ⟨y', hone', hserves⟩ := processRestingFills_ok hids cfg ticker step
          cases hone.symm.trans hone'
          have hstepped : Serves x (y.stepped ticker) := hserves.trans (.stepped y ticker)
          obtain ⟨hle, hiff⟩ := processRestingFills_committed hids hone
          obtain ⟨hle', hiff'⟩ := ih hrest (hstepped.ids_nodup hids) hmore
          have hsame : committed cfg (y.stepped ticker) = committed cfg y := rfl
          rw [hsame] at hle' hiff'
          refine ⟨hle.trans hle', fun hkept order part hnext => ?_, fun heven => ?_⟩
          · obtain ⟨hmem, steps', step', hsession, hcurrent, hpart⟩ := hnext
            rcases List.mem_cons.mp hsession with hhead | hin
            · obtain ⟨hticker, hsteps⟩ := Prod.mk.inj hhead
              rw [hticker, hsteps, hstep] at hcurrent
              cases hcurrent
              rw [hticker] at hpart
              exact hiff.mp (by omega) order part ⟨hmem, hticker, hpart⟩
            · exact hiff'.mp (by omega) order part ((nextPart_stepped hfresh hone).mpr
                ⟨hmem, steps', step', hin, hcurrent, hpart⟩)
          · have hfirst := hiff.mpr fun order part hpart => heven order part
              ⟨hpart.1, steps, step, hpart.2.1 ▸ List.mem_cons_self, hpart.2.1 ▸ hstep,
                hpart.2.1 ▸ hpart.2.2⟩
            have hlater := hiff'.mpr fun order part hnext => heven order part <| by
              obtain ⟨hmem, steps', step', hin, hcurrent, hpart⟩ :=
                (nextPart_stepped hfresh hone).mp hnext
              exact ⟨hmem, steps', step', .tail _ hin, hcurrent, hpart⟩
            exact hlater.trans hfirst

/-- Every order that the steps up next fill in part splits evenly. -/
def StepSplitsEvenly (cfg : PaperFixture) (x : PaperExchange) : Prop :=
  ∀ order part, NextPart cfg x cfg.sessions.items order part → SplitsEvenly cfg order part

/-- **A step of the recording** never frees more than it spends, and spends no more than it frees
exactly when every order it fills in part splits evenly. -/
theorem advance_committed (hids : (x.resting.map (·.id)).Nodup) {anyNext : Bool}
    (h : x.advance cfg = .ok (anyNext, z)) :
    committed cfg x ≤ committed cfg z ∧
      (committed cfg z = committed cfg x ↔ StepSplitsEvenly cfg x) :=
  advanceEach_committed cfg.sessions.nodup hids h

/-- **Filling at the limit keeps the available balance** of a state that a run has reached, as its
recording is advanced, exactly when every order that is filled in part splits evenly. -/
theorem filling_keeps_available_iff (cfg : PaperFixture) (ops : List PaperOp) (now later : ℤ)
    (before : BalanceSnapshot)
    (hread : (run (paperStep cfg) .fresh ops).exchange.getBalances cfg now = .ok before) :
    (∃ anyNext y after, (run (paperStep cfg) .fresh ops).exchange.advance cfg = .ok (anyNext, y) ∧
        y.getBalances cfg later = .ok after ∧ before.available.value ≤ after.available.value) ↔
      StepSplitsEvenly cfg (run (paperStep cfg) .fresh ops).exchange := by
  have hregular : Regular (run (paperStep cfg) .fresh ops) :=
    run_invariant (fun s op h => h.step op) fresh_regular ops
  have hids := hregular.numbering.resting_ids_nodup
  obtain ⟨anyNext, y, hrun, hserves⟩ := advance_ok hids cfg
  obtain ⟨hfills, hresting⟩ := (getBalances_ok_iff now).mp ⟨before, hread⟩
  obtain ⟨after, hafter⟩ := (getBalances_ok_iff later).mpr
    (hserves.chargeable hfills hresting)
  have hbefore := getBalances_available hread
  have havailable := getBalances_available hafter
  obtain ⟨hle, hiff⟩ := advance_committed hids hrun
  rw [← hiff]
  constructor
  · rintro ⟨anyNext', y', after', hrun', hafter', hkept⟩
    cases hrun.symm.trans hrun'
    cases hafter.symm.trans hafter'
    omega
  · intro hsame
    exact ⟨anyNext, y, after, hrun, hafter, by omega⟩

/-! ## A partial fill that costs a cent -/

/-- One schedule of fees stands under one name. -/
theorem default_nodup : ([("default", takerFees)].map Prod.fst).Nodup := List.nodup_singleton _

/-- A recording whose first step prints a hundred through a limit of twenty cents. -/
def throughFixture : PaperFixture where
  sessions := ⟨[("MKT", [⟨⟨"MKT", [⟨⟨2000⟩, ⟨100⟩⟩], [], 10⟩, [⟨⟨1900⟩, ⟨100⟩, 11⟩]⟩])],
    List.nodup_singleton _⟩
  feeModels := ⟨[("default", takerFees)], default_nodup⟩
  balances := ⟨⟨10000000⟩, ⟨10000000⟩, 0⟩
  haircutPpm := 0
  maxParticipationPpm := 1000000

/-- An order for two contracts comes to rest at its limit of twenty cents. -/
def restAtTwenty : List PaperOp := [.place ⟨"MKT", .yes, ⟨2000⟩, ⟨200⟩⟩]

theorem filling_keeps_available_resting : ∃ before,
    (run (paperStep throughFixture) .fresh restAtTwenty).exchange.getBalances throughFixture 0 =
        .ok before ∧
      ((∃ anyNext y after,
          (run (paperStep throughFixture) .fresh restAtTwenty).exchange.advance throughFixture =
            .ok (anyNext, y) ∧ y.getBalances throughFixture 1 = .ok after ∧
              before.available.value ≤ after.available.value) ↔
        StepSplitsEvenly throughFixture
          (run (paperStep throughFixture) .fresh restAtTwenty).exchange) := by
  have hread : (run (paperStep throughFixture) .fresh restAtTwenty).exchange.getBalances
      throughFixture 0 = .ok ⟨⟨10000000⟩, ⟨9570000⟩, 0⟩ := by rfl
  exact ⟨_, hread, filling_keeps_available_iff throughFixture restAtTwenty 0 1 _ hread⟩

/-- What is available before and after the recording is advanced. -/
def availableAround (cfg : PaperFixture) (ops : List PaperOp) : Option (ℤ × ℤ) := do
  let x := (run (paperStep cfg) .fresh ops).exchange
  let before ← (x.getBalances cfg 0).toOption
  let (_, y) ← (x.advance cfg).toOption
  let after ← (y.getBalances cfg 0).toOption
  return (before.available.value, after.available.value)

/-- **Half a fill costs a cent**: the two halves of the order are charged a fee of two cents each,
the whole was withheld at three. -/
theorem filling_costs_headroom :
    availableAround throughFixture restAtTwenty = some (9570000, 9560000) := by
  decide +kernel

end Windbreak
