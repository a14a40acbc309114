import Windbreak.Connector.PaperHanded
import Windbreak.Connector.PaperPositions
import Windbreak.Connector.PaperRuns
import Windbreak.OrderGateway.Gateway

/-!
# Submitting to the paper exchange

The submitter turns an intent into an order of the exchange by its outcome.  What the intent is for,
to open or to close, does not reach the exchange: every order buys.

* **`Closed`** — a close has closed what it filled: the position on its ticker is smaller by that.
* **`submit_closes_iff`** — a submission closes in every later state exactly when it never fills.
-/

namespace Windbreak

namespace OrderGateway

open Machine Effects Sums
open PaperExchange (Placement placeOrder_ok advance_ok advance_filled_iff HandsTo Serves targetOf
  takeableOf)

/-! ## The submitter -/

/-- The side of the exchange that an outcome buys. -/
def sideOfOutcome (outcome : String) : Except PaperError Side := do
  let side ← (outcomeToSide outcome).mapError .valueError
  return if side = Side.yes.name then .yes else .no

/-- The order that an intent is placed as. -/
def paperIntent (intent : OrderIntent) (side : Side) : PaperOrderIntent :=
  ⟨intent.marketTicker, side, intent.price, intent.size⟩

/-- Place an intent on the exchange. -/
def submit (cfg : PaperFixture) (x : PaperExchange) (intent : OrderIntent) :
    Except PaperError (SubmissionAck × PaperExchange) := do
  let side ← sideOfOutcome intent.outcome
  let (placement, y) ← x.placeOrder cfg (paperIntent intent side)
  return (⟨placement.restingOrder.map (·.id), ⟨(placement.fills.map (·.quantity.value)).sum⟩⟩, y)

/-! ## Closing -/

/-- The exchange reports a net holding of a ticker. -/
def Holds (x : PaperExchange) (ticker : String) (held : ℤ) : Prop :=
  ∃ rows, x.getPositions = .ok rows ∧ heldIn rows ticker = held

/-- What the order of a receipt has filled by now. -/
def filledOf (ack : SubmissionAck) (y : PaperExchange) : ℤ :=
  match ack.orderId with
  | none => ack.filled.value
  | some orderId => ack.filled.value + filledUnder orderId y.fills

/-- **A close has closed**: the position is no larger than it was, and smaller by what filled. -/
def Closed (ticker : String) (x y : PaperExchange) (filled : ℤ) : Prop :=
  ∃ held held', Holds x ticker held ∧ Holds y ticker held' ∧ |held'| ≤ |held| ∧
    |held'| = |held| - filled

/-- Nothing but the order of a receipt has filled since it was placed. -/
def OwnFills (ack : SubmissionAck) (placed now : PaperExchange) : Prop :=
  ∃ new, now.fills = placed.fills ++ new ∧
    ∀ fill ∈ new, ∃ orderId, ack.orderId = some orderId ∧ fill.orderId = some orderId

/-! ## One side -/

/-- What was bought of a ticker. -/
def bought (ticker : String) (fills : List Fill) : ℤ :=
  sumWhere (fun fill => fill.ticker = ticker) (fun fill => fill.quantity.value) fills

theorem signedFills_eq {ticker side : String} {fills : List Fill}
    (h : ∀ fill ∈ fills, fill.ticker = ticker → fill.side = side) :
    signedFills ticker fills = signed side (bought ticker fills) := by
  induction fills with
  | nil => exact (ite_self 0).symm
  | cons fill rest ih =>
      have hrest := ih fun f hf => h f (.tail _ hf)
      unfold signedFills bought at hrest ⊢
      rw [sumWhere_cons, sumWhere_cons, hrest]
      by_cases hticker : fill.ticker = ticker
      · rw [if_pos hticker, if_pos hticker, h fill (.head _) hticker]
        unfold signed
        split <;> omega
      · rw [if_neg hticker, if_neg hticker, Int.zero_add, Int.zero_add]

theorem sum_pos_of_mem {fills : List Fill} (h : ∀ fill ∈ fills, 0 < fill.quantity.value)
    (hne : fills ≠ []) : 0 < (fills.map (·.quantity.value)).sum := by
  refine List.sum_pos _ (fun q hq => ?_) (by simpa using hne)
  obtain ⟨fill, hfill, rfl⟩ := List.mem_map.mp hq
  exact h fill hfill

/-- **Buying on one side closes nothing**: a position that can be read grows by what was bought. -/
theorem closed_iff {ticker : String} {side : Side} {x y : PaperExchange} {mine : List Fill}
    {held : ℤ} (hheld : Holds x ticker held) (hfills : y.fills = x.fills ++ mine)
    (hpositive : ∀ fill ∈ y.fills, 0 < fill.quantity.value)
    (hmine : ∀ fill ∈ mine, fill.ticker = ticker ∧ fill.side = side.name) :
    Closed ticker x y (mine.map (·.quantity.value)).sum ↔
      (mine.map (·.quantity.value)).sum = 0 := by
  have hminePositive : ∀ fill ∈ mine, 0 < fill.quantity.value := fun fill hfill =>
    hpositive fill (hfills ▸ List.mem_append_right _ hfill)
  constructor
  · rintro ⟨held, held', ⟨rows, hrows, hread⟩, ⟨rows', hrows', hread'⟩, -, hclosed⟩
    by_contra hfilled
    obtain ⟨first, hfirst⟩ : ∃ first, first ∈ mine :=
      List.exists_mem_of_ne_nil mine fun hnil => hfilled (by rw [hnil]; rfl)
    have hside : ∀ fill ∈ y.fills, fill.ticker = ticker → fill.side = side.name := by
      intro fill hfill hticker
      have hmem : first ∈ y.fills := hfills ▸ List.mem_append_right _ hfirst
      rw [PaperExchange.one_sided hrows' hfill hmem (hticker.trans (hmine first hfirst).1.symm)]
      exact (hmine first hfirst).2
    have hsideX : ∀ fill ∈ x.fills, fill.ticker = ticker → fill.side = side.name := fun fill hfill =>
      hside fill (hfills ▸ List.mem_append_left _ hfill)
    have hboughtX : 0 ≤ bought ticker x.fills := sumWhere_nonneg fun fill hfill _ =>
      (hpositive fill (hfills ▸ List.mem_append_left _ hfill)).le
    have hboughtMine : bought ticker mine = (mine.map (·.quantity.value)).sum :=
      congrArg List.sum (List.map_congr_left fun fill hfill => if_pos (hmine fill hfill).1)
    have hboughtY : bought ticker y.fills =
        bought ticker x.fills + (mine.map (·.quantity.value)).sum := by
      rw [← hboughtMine, hfills]
      exact sumWhere_append mine
    have hpos := sum_pos_of_mem hminePositive (List.ne_nil_of_mem hfirst)
    rw [← hread, ← hread', PaperExchange.held_eq hrows, PaperExchange.held_eq hrows',
      signedFills_eq hsideX, signedFills_eq hside, abs_signed _ hboughtX,
      abs_signed _ (by omega)] at hclosed
    omega
  · intro hzero
    have hnil : mine = [] := by
      by_contra hne
      exact absurd hzero (sum_pos_of_mem hminePositive hne).ne'
    subst hnil
    rw [List.append_nil] at hfills
    obtain ⟨rows, hrows, hread⟩ := hheld
    have hrows' : y.getPositions = .ok rows := by
      rw [PaperExchange.getPositions, PaperExchange.fillTotals, hfills]
      exact hrows
    exact ⟨held, held, ⟨rows, hrows, hread⟩, ⟨rows, hrows', hread⟩, le_refl _, by simp⟩

/-! ## What every run keeps -/

/-- A state that a run of the exchange reaches. -/
def Reachable (cfg : PaperFixture) (x : PaperExchange) : Prop :=
  ∃ ops, x = (run (paperStep cfg) .fresh ops).exchange

/-- What carries the id of an order is on its ticker and side. -/
structure Mine (ticker : String) (side : Side) (orderId : String) (x : PaperExchange) : Prop where
  resting : ∀ order ∈ x.resting, order.id = orderId → order.ticker = ticker ∧ order.side = side
  fills : ∀ fill ∈ x.fills, fill.orderId = some orderId →
    fill.ticker = ticker ∧ fill.side = side.name
  rested : orderId ∈ x.rested.map (·.id)

/-- A run keeps its books, and no fill is empty. -/
structure Filling (s : PaperRun) : Prop where
  regular : Regular s
  positive : ∀ fill ∈ s.exchange.fills, 0 < fill.quantity.value

theorem Filling.step {s : PaperRun} (h : Filling s) (cfg : PaperFixture) (op : PaperOp) :
    Filling (paperStep cfg s op).2 := by
  refine ⟨h.regular.step op, ?_⟩
  rcases paperStep_cases cfg h.regular op with ⟨intent, placement, y, -, hplace, hafter⟩ |
    ⟨intent, e, -, -, hafter⟩ | ⟨y, -, ⟨new, hlogs, hserved⟩, hafter⟩ | ⟨orderId, -, hafter⟩
  · obtain ⟨step, -, hplaced⟩ := placeOrder_ok hplace
    have hfills : (paperStep cfg s op).2.exchange.fills = s.exchange.fills ++ placement.fills := by
      rw [hafter]
      exact hplaced.adds.fills
    rw [hfills]
    refine fun fill hfill => (List.mem_append.mp hfill).elim (h.positive fill) fun hnew => ?_
    exact (hplaced.fills fill hnew).positive
  · rw [hafter]
    exact h.positive
  · have hfills : (paperStep cfg s op).2.exchange.fills = s.exchange.fills ++ new := by
      rw [hafter]
      exact hlogs.fills
    rw [hfills]
    refine fun fill hfill => (List.mem_append.mp hfill).elim (h.positive fill) fun hnew => ?_
    obtain ⟨order, -, hof⟩ := hserved.source fill hnew
    exact hof.positive
  · rw [hafter]
    exact h.positive

theorem Reachable.filling {cfg : PaperFixture} {x : PaperExchange} (h : Reachable cfg x) :
    ∃ s, Filling s ∧ s.exchange = x := by
  obtain ⟨ops, rfl⟩ := h
  have hfresh : Filling .fresh := ⟨fresh_regular, fun fill hfill => absurd hfill List.not_mem_nil⟩
  exact ⟨_, run_invariant (fun s op hs => hs.step cfg op) hfresh ops, rfl⟩

/-- The exchange alone, without the receipts kept next to it. -/
theorem Filling.exchange {s : PaperRun} (h : Filling s) : Filling ⟨s.exchange, [], []⟩ where
  regular :=
    { numbering := h.regular.numbering
      placedIds := fun _ hp => absurd hp List.not_mem_nil
      cancelledIds := fun _ horder => absurd horder List.not_mem_nil
      fillIds := h.regular.fillIds
      restingPrices := fun _ hp => absurd hp List.not_mem_nil
      fillPrices := fun _ hp => absurd hp List.not_mem_nil
      takerFills := fun _ hp => absurd hp List.not_mem_nil
      positive := h.regular.positive }
  positive := h.positive

section

variable {cfg : PaperFixture} {ticker orderId : String} {side : Side}

/-- What carries the id of an order stays on its ticker and side. -/
theorem Mine.step {s : PaperRun} (h : Mine ticker side orderId s.exchange) (hs : Filling s)
    (op : PaperOp) : Mine ticker side orderId (paperStep cfg s op).2.exchange := by
  rcases paperStep_cases cfg hs.regular op with ⟨intent, placement, y, -, hplace, hafter⟩ |
    ⟨intent, e, -, -, hafter⟩ | ⟨y, -, ⟨new, hlogs, hserved⟩, hafter⟩ | ⟨cancelled, -, hafter⟩
  · obtain ⟨step, -, hplaced⟩ := placeOrder_ok hplace
    have hadds := hplaced.adds
    rw [hafter]
    change Mine ticker side orderId y
    refine ⟨fun order horder hid => ?_, fun fill hfill hof => ?_, ?_⟩
    · rw [hadds.resting] at horder
      rcases List.mem_append.mp horder with hold | hnew
      · exact h.resting order hold hid
      · have hfresh := hadds.fresh hs.regular.numbering order (Option.mem_toList.mp hnew)
        exact absurd (hid ▸ h.rested) hfresh
    · rw [hadds.fills] at hfill
      rcases List.mem_append.mp hfill with hold | hnew
      · exact h.fills fill hold hof
      · exact absurd hof (hplaced.orderId_ne hnew orderId)
    · rw [hadds.rested, List.map_append]
      exact List.mem_append_left _ h.rested
  · rw [hafter]
    exact h
  · rw [hafter]
    refine ⟨fun order horder hid => ?_, fun fill hfill hof => ?_, ?_⟩
    · obtain ⟨before, hbefore, hremains⟩ := hserved.kept order horder
      rw [hremains.ticker, hremains.side]
      exact h.resting before hbefore (hremains.id.symm.trans hid)
    · change fill ∈ y.fills at hfill
      rw [hlogs.fills] at hfill
      rcases List.mem_append.mp hfill with hold | hnew
      · exact h.fills fill hold hof
      · obtain ⟨order, horder, hfills⟩ := hserved.source fill hnew
        have hid : order.id = orderId := Option.some.inj (hfills.orderId.symm.trans hof)
        rw [hfills.ticker, hfills.side]
        exact (h.resting order horder hid).imp id (congrArg Side.name)
    · change orderId ∈ y.rested.map (·.id)
      rw [hlogs.rested]
      exact h.rested
  · rw [hafter]
    exact ⟨fun order horder => h.resting order (List.filter_sublist.subset horder), h.fills,
      h.rested⟩

/-- The step of the recording that is up next hands the order of a receipt something. -/
def HandsLater (cfg : PaperFixture) (ticker : String) (ack : SubmissionAck) (t : PaperTransition) :
    Prop :=
  t.input = .advance ∧ ∃ orderId, ack.orderId = some orderId ∧
    HandsTo cfg t.pre.exchange ticker orderId

/-- **One operation** fills the order of a receipt exactly when it is an advance that hands it
something. -/
theorem filledOf_step_iff {s : PaperRun} {ack : SubmissionAck} (hs : Filling s)
    (hmine : ∀ orderId, ack.orderId = some orderId → Mine ticker side orderId s.exchange)
    (hnone : filledOf ack s.exchange = 0) (op : PaperOp) :
    filledOf ack (paperStep cfg s op).2.exchange = 0 ↔
      ¬ HandsLater cfg ticker ack (transition (paperStep cfg) s op) := by
  cases hid : ack.orderId with
  | none =>
      have hsame : ∀ y, filledOf ack y = ack.filled.value := fun y => by rw [filledOf, hid]
      rw [hsame] at hnone ⊢
      refine iff_of_true hnone ?_
      rintro ⟨-, orderId, hsome, -⟩
      rw [hid] at hsome
      cases hsome
  | some orderId =>
      have hfilled : ∀ y, filledOf ack y = ack.filled.value + filledUnder orderId y.fills :=
        fun y => by rw [filledOf, hid]
      rw [hfilled] at hnone ⊢
      cases op with
      | advance =>
          obtain ⟨anyNext, y, hrun, -⟩ := advance_ok hs.regular.numbering.resting_ids_nodup cfg
          obtain ⟨hle, hiff⟩ := advance_filled_iff hrun fun order horder hsame =>
            ((hmine orderId hid).resting order horder hsame).1
          have hafter : (paperStep cfg s .advance).2.exchange = y := by rw [paperStep, hrun]
          rw [hafter]
          have hhands : HandsLater cfg ticker ack (transition (paperStep cfg) s .advance) ↔
              HandsTo cfg s.exchange ticker orderId := by
            constructor
            · rintro ⟨-, other, hother, hhands⟩
              have hsame : other = orderId := Option.some.inj (hother.symm.trans hid)
              exact hsame ▸ hhands
            · exact fun hhands => ⟨rfl, orderId, hid, hhands⟩
          rw [hhands, ← hiff]
          omega
      | place intent =>
          refine iff_of_true ?_ fun hlater => PaperOp.noConfusion hlater.1
          cases hplace : s.exchange.placeOrder cfg intent with
          | error e =>
              have hafter : (paperStep cfg s (.place intent)).2 = s := by rw [paperStep, hplace]
              rw [hafter]
              exact hnone
          | ok placed =>
              obtain ⟨step, -, hplaced⟩ := placeOrder_ok hplace
              have hafter : (paperStep cfg s (.place intent)).2.exchange = placed.2 := by
                rw [paperStep, hplace]
              have hnew : filledUnder orderId placed.1.fills = 0 :=
                sumWhere_eq_zero fun fill hfill => hplaced.orderId_ne hfill orderId
              rw [hafter, hplaced.adds.fills, PaperExchange.filledUnder_append, hnew]
              omega
      | cancel cancelled => exact iff_of_true hnone fun hlater => PaperOp.noConfusion hlater.1

end

/-! ## Submissions -/

/-- A submission crosses: the walk has a target, and the book something to take. -/
def Crosses (cfg : PaperFixture) (x : PaperExchange) (intent : OrderIntent) : Prop :=
  ∃ side step, sideOfOutcome intent.outcome = .ok side ∧
    x.currentStep cfg intent.marketTicker = .ok step ∧
      0 < targetOf cfg (paperIntent intent side) step ∧ 0 < takeableOf (paperIntent intent side) step

/-- What a submission leaves behind. -/
structure Submitted (cfg : PaperFixture) (x y : PaperExchange) (intent : OrderIntent)
    (ack : SubmissionAck) (side : Side) (receipt : List Fill) : Prop where
  filling : Filling ⟨y, [], []⟩
  fills : y.fills = x.fills ++ receipt
  sided : ∀ fill ∈ receipt, fill.ticker = intent.marketTicker ∧ fill.side = side.name
  taken : ack.filled.value = (receipt.map (·.quantity.value)).sum
  mine : ∀ orderId, ack.orderId = some orderId → Mine intent.marketTicker side orderId y
  unfilled : ∀ orderId, ack.orderId = some orderId → filledUnder orderId y.fills = 0
  crosses : ack.filled.value = 0 ↔ ¬ Crosses cfg x intent

/-- **What a submission does.** -/
theorem submit_ok {cfg : PaperFixture} {x y : PaperExchange} {intent : OrderIntent}
    {ack : SubmissionAck} (hx : Reachable cfg x) (h : submit cfg x intent = .ok (ack, y)) :
    ∃ side receipt, Submitted cfg x y intent ack side receipt := by
  obtain ⟨s, hs, rfl⟩ := hx.filling
  obtain ⟨side, hside, h⟩ := except_bind_ok.mp h
  obtain ⟨⟨placement, y⟩, hplace, h⟩ := except_bind_ok.mp h
  cases h
  obtain ⟨step, hstep, hplaced⟩ := placeOrder_ok hplace
  have hadds := hplaced.adds
  have hnumbering := hs.regular.numbering
  have hnewId : ∀ orderId, placement.restingOrder.map (·.id) = some orderId →
      ∃ order ∈ placement.restingOrder, order.id = orderId := fun orderId hid =>
    Option.map_eq_some_iff.mp hid
  refine ⟨side, placement.fills, ?_, hadds.fills, fun fill hfill => ?_, rfl, fun orderId hid => ?_,
    fun orderId hid => ?_, ?_⟩
  · have hafter : (paperStep cfg s (.place (paperIntent intent side))).2.exchange = y := by
      rw [paperStep, hplace]
    have hkept := (hs.step cfg (.place (paperIntent intent side))).exchange
    rw [hafter] at hkept
    exact hkept
  · have htaker := hplaced.fills fill hfill
    exact ⟨htaker.ticker, htaker.side⟩
  · obtain ⟨order, horder, rfl⟩ := hnewId orderId hid
    have hfresh := hadds.fresh hnumbering order horder
    refine ⟨fun other hother hsame => ?_, fun fill hfill hof => ?_, ?_⟩
    · rw [hadds.resting] at hother
      rcases List.mem_append.mp hother with hold | hnew
      · exact absurd (hsame ▸ hnumbering.resting.subset (List.mem_map_of_mem hold)) hfresh
      · obtain ⟨hticker, hsideOf, -⟩ := hadds.order other (Option.mem_toList.mp hnew)
        exact ⟨hticker, hsideOf⟩
    · rw [hadds.fills] at hfill
      rcases List.mem_append.mp hfill with hold | hnew
      · exact absurd (hs.regular.fillIds fill hold order.id hof) hfresh
      · exact absurd hof (hplaced.orderId_ne hnew order.id)
    · rw [hadds.rested, List.map_append]
      exact List.mem_append_right _ (List.mem_map_of_mem (Option.mem_toList.mpr horder))
  · obtain ⟨order, horder, rfl⟩ := hnewId orderId hid
    have hfresh := hadds.fresh hnumbering order horder
    rw [hadds.fills]
    refine sumWhere_eq_zero fun fill hfill hof => ?_
    rcases List.mem_append.mp hfill with hold | hnew
    · exact hfresh (hs.regular.fillIds fill hold order.id hof)
    · exact hplaced.orderId_ne hnew order.id hof
  · have htaken := hplaced.taken
    have hdepth : 0 ≤ takeableOf (paperIntent intent side) step := takeableDepth_nonneg _
    have hcrosses : Crosses cfg s.exchange intent ↔
        0 < targetOf cfg (paperIntent intent side) step ∧
          0 < takeableOf (paperIntent intent side) step := by
      constructor
      · rintro ⟨other, step', hother, hstep', hcase⟩
        have hsameSide : other = side := Except.ok.inj (hother.symm.trans hside)
        have hsameStep : step' = step := Except.ok.inj (hstep'.symm.trans hstep)
        rw [hsameSide, hsameStep] at hcase
        exact hcase
      · exact fun hcase => ⟨side, step, hside, hstep, hcase⟩
    rw [hcrosses]
    dsimp only
    omega

/-- What the order of a receipt filled is what the log has grown by, if nothing else filled. -/
theorem Submitted.filled {cfg : PaperFixture} {x y z : PaperExchange} {intent : OrderIntent}
    {ack : SubmissionAck} {side : Side} {receipt : List Fill}
    (h : Submitted cfg x y intent ack side receipt)
    (hmine : ∀ orderId, ack.orderId = some orderId → Mine intent.marketTicker side orderId z)
    (hown : OwnFills ack y z) :
    ∃ mine, z.fills = x.fills ++ mine ∧ filledOf ack z = (mine.map (·.quantity.value)).sum ∧
      ∀ fill ∈ mine, fill.ticker = intent.marketTicker ∧ fill.side = side.name := by
  obtain ⟨new, hnew, hof⟩ := hown
  refine ⟨receipt ++ new, by rw [hnew, h.fills, List.append_assoc], ?_, fun fill hfill => ?_⟩
  · rw [List.map_append, List.sum_append, ← h.taken]
    cases hid : ack.orderId with
    | none =>
        have hnil : new = [] := by
          refine List.eq_nil_iff_forall_not_mem.mpr fun fill hfill => ?_
          obtain ⟨orderId, hsome, -⟩ := hof fill hfill
          rw [hid] at hsome
          cases hsome
        rw [filledOf, hid, hnil]
        exact (Int.add_zero _).symm
    | some orderId =>
        have hall : filledUnder orderId new = (new.map (·.quantity.value)).sum := by
          refine congrArg List.sum (List.map_congr_left fun fill hfill => if_pos ?_)
          obtain ⟨other, hother, hfills⟩ := hof fill hfill
          have hsame : other = orderId := Option.some.inj (hother.symm.trans hid)
          exact hsame ▸ hfills
        rw [filledOf, hid]
        dsimp only
        rw [hnew, PaperExchange.filledUnder_append, h.unfilled orderId hid, hall, Int.zero_add]
  · rcases List.mem_append.mp hfill with hold | hadded
    · exact h.sided fill hold
    · obtain ⟨orderId, hsome, hfills⟩ := hof fill hadded
      exact (hmine orderId hsome).fills fill (hnew ▸ List.mem_append_right _ hadded) hfills

/-- **A submission closes** at once and in every later state exactly when it never fills: it does not
cross when it is placed, and no later step of the recording hands it anything. -/
theorem submit_closes_iff {cfg : PaperFixture} {x y : PaperExchange} {intent : OrderIntent}
    {ack : SubmissionAck} {held : ℤ} (hx : Reachable cfg x)
    (hheld : Holds x intent.marketTicker held) (hsubmit : submit cfg x intent = .ok (ack, y))
    {ops : List PaperOp}
    (hown : ∀ t ∈ trace (paperStep cfg) ⟨y, [], []⟩ ops, OwnFills ack y t.post.exchange) :
    (Closed intent.marketTicker x y (filledOf ack y) ∧
        ∀ t ∈ trace (paperStep cfg) ⟨y, [], []⟩ ops,
          Closed intent.marketTicker x t.post.exchange (filledOf ack t.post.exchange)) ↔
      ¬ Crosses cfg x intent ∧
        ∀ t ∈ trace (paperStep cfg) ⟨y, [], []⟩ ops, ¬ HandsLater cfg intent.marketTicker ack t := by
  obtain ⟨side, receipt, hsubmitted⟩ := submit_ok hx hsubmit
  let I : PaperRun → Prop := fun s => Filling s ∧
    ∀ orderId, ack.orderId = some orderId → Mine intent.marketTicker side orderId s.exchange
  have hstep : ∀ s op, I s → I (paperStep cfg s op).2 := fun s op hs =>
    ⟨hs.1.step cfg op, fun orderId hid => (hs.2 orderId hid).step hs.1 op⟩
  have hstart : I ⟨y, [], []⟩ := ⟨hsubmitted.filling, hsubmitted.mine⟩
  -- in every state a close has closed exactly when nothing has filled
  have hclosed : ∀ s, I s → OwnFills ack y s.exchange →
      (Closed intent.marketTicker x s.exchange (filledOf ack s.exchange) ↔
        filledOf ack s.exchange = 0) := by
    intro s hs hown
    obtain ⟨mine, hfills, hfilled, hside⟩ := hsubmitted.filled hs.2 hown
    rw [hfilled]
    exact closed_iff hheld hfills hs.1.positive hside
  have hposts : ∀ t ∈ trace (paperStep cfg) ⟨y, [], []⟩ ops, I t.post :=
    trace_forall (P := fun t => I t.post) hstep hstep hstart ops
  have hplaced : Closed intent.marketTicker x y (filledOf ack y) ↔ filledOf ack y = 0 :=
    hclosed ⟨y, [], []⟩ hstart ⟨[], (List.append_nil _).symm, fun fill hfill =>
      absurd hfill List.not_mem_nil⟩
  have hlater : (∀ t ∈ trace (paperStep cfg) ⟨y, [], []⟩ ops,
      Closed intent.marketTicker x t.post.exchange (filledOf ack t.post.exchange)) ↔
        ∀ t ∈ trace (paperStep cfg) ⟨y, [], []⟩ ops, filledOf ack t.post.exchange = 0 :=
    forall₂_congr fun t ht => hclosed t.post (hposts t ht) (hown t ht)
  have hcrosses : filledOf ack y = 0 ↔ ¬ Crosses cfg x intent := by
    rw [← hsubmitted.crosses]
    cases hid : ack.orderId with
    | none => rw [filledOf, hid]
    | some orderId =>
        rw [filledOf, hid]
        dsimp only
        rw [hsubmitted.unfilled orderId hid, Int.add_zero]
  rw [hplaced, hlater, hcrosses]
  refine and_congr_right fun hnot => ?_
  exact trace_kept_iff (I := I) (B := fun s => filledOf ack s.exchange = 0)
    (G := fun t => ¬ HandsLater cfg intent.marketTicker ack t) hstep
    (fun s op hs hnone => filledOf_step_iff hs.1 hs.2 hnone op) hstart (hcrosses.mpr hnot) ops

/-! ## A close that buys -/

/-- A recording of one step, with ten contracts offered at forty cents and no fees. -/
def closeFixture : PaperFixture where
  sessions := ⟨[("MKT", [⟨⟨"MKT", [], [⟨⟨4000⟩, ⟨1000⟩⟩], 10⟩, []⟩])], by decide⟩
  feeModels := freeFeeModels
  balances := ⟨⟨10000000⟩, ⟨10000000⟩, 0⟩
  haircutPpm := 0
  maxParticipationPpm := 1000000

/-- The exchange once five contracts of YES are held. -/
def heldExchange : PaperExchange :=
  (run (paperStep closeFixture) .fresh [.place ⟨"MKT", .yes, ⟨4000⟩, ⟨500⟩⟩]).exchange

/-- A close of two contracts at a limit. -/
def closeAt (price : PricePips) : OrderIntent :=
  ⟨"close", "MKT", "yes", "sell_to_close", price, ⟨200⟩, ⟨1000000⟩, ⟨400000⟩, "close"⟩

theorem heldExchange_reachable : Reachable closeFixture heldExchange := ⟨_, rfl⟩

theorem heldExchange_holds : Holds heldExchange "MKT" 500 :=
  ⟨[⟨⟨"MKT", ⟨500⟩⟩, ⟨4000⟩⟩], by decide +kernel, by decide +kernel⟩

/-- A submission that rests closes nothing and grows nothing. -/
theorem restingClose_closes :
    ∃ ack y, submit closeFixture heldExchange (closeAt ⟨3000⟩) = .ok (ack, y) ∧
      ((Closed "MKT" heldExchange y (filledOf ack y) ∧
          ∀ t ∈ trace (paperStep closeFixture) ⟨y, [], []⟩ [.advance],
            Closed "MKT" heldExchange t.post.exchange (filledOf ack t.post.exchange)) ↔
        ¬ Crosses closeFixture heldExchange (closeAt ⟨3000⟩) ∧
          ∀ t ∈ trace (paperStep closeFixture) ⟨y, [], []⟩ [.advance],
            ¬ HandsLater closeFixture "MKT" ack t) := by
  have hunmoved : (submit closeFixture heldExchange (closeAt ⟨3000⟩)).toOption.map (fun r =>
      decide ((paperStep closeFixture ⟨r.2, [], []⟩ .advance).2.exchange.fills = r.2.fills)) =
        some true := by decide +kernel
  cases hsubmit : submit closeFixture heldExchange (closeAt ⟨3000⟩) with
  | error e =>
      rw [hsubmit] at hunmoved
      cases hunmoved
  | ok r =>
      rw [hsubmit] at hunmoved
      have hfills := of_decide_eq_true (Option.some.inj hunmoved)
      refine ⟨r.1, r.2, rfl, submit_closes_iff heldExchange_reachable heldExchange_holds hsubmit ?_⟩
      intro t ht
      rw [List.mem_singleton.mp ht]
      exact ⟨[], hfills.trans (List.append_nil _).symm, fun fill hfill =>
        absurd hfill List.not_mem_nil⟩

/-- **A close that buys**: of five contracts held, a close of two that crosses leaves seven. -/
theorem crossing_close_grows :
    ¬ ∀ (cfg : PaperFixture) (x y : PaperExchange) (intent : OrderIntent) (ack : SubmissionAck)
      (held : ℤ), Reachable cfg x → Holds x intent.marketTicker held → held ≠ 0 →
        intent.action = "sell_to_close" → 0 < intent.size.value → intent.size.value ≤ |held| →
          submit cfg x intent = .ok (ack, y) →
            Closed intent.marketTicker x y (filledOf ack y) := by
  intro hall
  have hgrown : (submit closeFixture heldExchange (closeAt ⟨4000⟩)).toOption.map (fun r =>
      decide (filledOf r.1 r.2 = 200 ∧
        r.2.getPositions = .ok [⟨⟨"MKT", ⟨700⟩⟩, ⟨4000⟩⟩])) = some true := by decide +kernel
  cases hsubmit : submit closeFixture heldExchange (closeAt ⟨4000⟩) with
  | error e =>
      rw [hsubmit] at hgrown
      cases hgrown
  | ok r =>
      rw [hsubmit] at hgrown
      obtain ⟨hfilled, hrows⟩ := of_decide_eq_true (Option.some.inj hgrown)
      obtain ⟨held, held', ⟨rows, hread, hheld⟩, ⟨rows', hread', hheld'⟩, hle, -⟩ :=
        hall closeFixture heldExchange r.2 (closeAt ⟨4000⟩) r.1 500 heldExchange_reachable
          heldExchange_holds (by decide) rfl (by decide) (by decide) hsubmit
      have hbefore : heldExchange.getPositions = .ok [⟨⟨"MKT", ⟨500⟩⟩, ⟨4000⟩⟩] := by decide +kernel
      have hsame : rows = [⟨⟨"MKT", ⟨500⟩⟩, ⟨4000⟩⟩] := Except.ok.inj (hread.symm.trans hbefore)
      have hsame' : rows' = [⟨⟨"MKT", ⟨700⟩⟩, ⟨4000⟩⟩] := Except.ok.inj (hread'.symm.trans hrows)
      rw [← hheld, ← hheld', hsame, hsame'] at hle
      exact absurd hle (by decide +kernel)

end OrderGateway

end Windbreak
