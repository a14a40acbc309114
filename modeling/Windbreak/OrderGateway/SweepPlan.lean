import Windbreak.OrderGateway.CycleLifecycle

/-!
# What a sweep sets out to do

A sweep reads the ledger, the venue and the books once.  What it reads fixes a list of actions, and
the sweep carries them out in order until one raises: to retire one order changes nothing that the
choice of another goes by.

* **`sweepPlan`** — the actions: each frozen ticker with all of its orders, then the orders elsewhere
  that are too old.
* **`sweepOnce_cases`** — a sweep reads and carries out its plan, or it changes nothing.
* **`performAll_answered`** — when every collaborator answers, and every order it comes to stands
  where it can be cancelled, a sweep carries out all of its plan.
-/

namespace Windbreak

/-- An order in this state can still be filled, and a cancel of it has been or can be requested. -/
def OrderState.canMove : OrderState → Bool
  | .ACKED | .PARTIAL_FILL | .CANCEL_REQUESTED => true
  | _ => false

theorem OrderState.transition_fill {state : OrderState} (h : state.canMove = true) :
    state.transition .FILL = some .FILLED := by
  cases state <;> first | rfl | cases h

theorem OrderState.transition_requestCancel {state : OrderState} (h : state.canMove = true)
    (hnew : state ≠ .CANCEL_REQUESTED) :
    state.transition .REQUEST_CANCEL = some .CANCEL_REQUESTED := by
  cases state <;> first | rfl | exact absurd rfl hnew | cases h

namespace OrderGateway

open Effects

/-- Every order is tracked under its own order id. -/
def TrackedById (w : GatewayWorld) : Prop :=
  ∀ k order, w.tracked.get? k = some order → order.orderId = k

theorem TrackedById.ids {w : GatewayWorld} (h : TrackedById w) :
    w.tracked.values.map (·.orderId) = w.tracked.keys := by
  rw [OrderedDict.values, OrderedDict.keys, List.map_map]
  refine List.map_congr_left ?_
  rintro ⟨k, order⟩ hitem
  exact h k order (OrderedDict.mem_items_iff.mp hitem)

theorem TrackedById.nodup {w : GatewayWorld} (h : TrackedById w) :
    (w.tracked.values.map (·.orderId)).Nodup := by
  rw [h.ids]
  exact w.tracked.keys_nodup

namespace Sweeper

/-! ## The plan -/

/-- One thing a sweep does. -/
inductive SweepAction where
  | freeze (ticker : String) (breach : MoveBreach)
  | resolve (order : TrackedOrder)
  | release (ticker : String)

/-- Carry out one action. -/
def perform (policy : SweepPolicy) (env : CycleEnv) (view : CycleView) (counts : SweepCounts) :
    SweepAction → GatewayM SweepCounts
  | .freeze ticker breach => do
    record env.toGatewayEnv (freezeEvent policy env ticker breach)
    return counts
  | .resolve order => resolveStale env view counts order
  | .release ticker => do
    record env.toGatewayEnv (returnToScreenerEvent ticker "market_freeze" env.clock)
    return counts

/-- Carry out a list of actions, up to the first that raises. -/
def performAll (policy : SweepPolicy) (env : CycleEnv) (view : CycleView) :
    SweepCounts → List SweepAction → GatewayM SweepCounts
  | counts, [] => return counts
  | counts, action :: rest => do
    let counts ← perform policy env view counts action
    performAll policy env view counts rest

/-- The actions of one freeze. -/
def freezePlan (tracked : List TrackedOrder) (breach : String × MoveBreach) : List SweepAction :=
  .freeze breach.1 breach.2 :: (tracked.filter (·.ticker == breach.1)).map .resolve ++
    [.release breach.1]

/-- Whether an order on no frozen ticker is too old. -/
def isExpired (policy : SweepPolicy) (env : CycleEnv) (noted : OrderedDict String RestingOrderMeta)
    (frozenTickers : List String) (order : TrackedOrder) : Bool :=
  decide (order.ticker ∉ frozenTickers) && isTtlStale policy env (noted.get? order.orderId)

/-- The actions of a sweep. -/
def sweepPlan (policy : SweepPolicy) (env : CycleEnv) (w : GatewayWorld)
    (frozen : OrderedDict String MoveBreach) : List SweepAction :=
  frozen.items.flatMap (freezePlan w.tracked.values) ++
    (w.tracked.values.filter (isExpired policy env w.restingMeta frozen.keys)).map .resolve

/-- The order an action resolves. -/
def SweepAction.order? : SweepAction → Option TrackedOrder
  | .resolve order => some order
  | .freeze _ _ | .release _ => none

/-- The orders a list of actions resolves. -/
def resolves (actions : List SweepAction) : List TrackedOrder :=
  actions.filterMap SweepAction.order?

theorem mem_resolves {actions : List SweepAction} {order : TrackedOrder} :
    order ∈ resolves actions ↔ .resolve order ∈ actions := by
  constructor
  · intro horder
    obtain ⟨action, haction, hmine⟩ := List.mem_filterMap.mp horder
    cases action with
    | resolve entry =>
        cases hmine
        exact haction
    | freeze ticker breach => cases hmine
    | release ticker => cases hmine
  · exact fun haction => List.mem_filterMap.mpr ⟨.resolve order, haction, rfl⟩

theorem resolves_map (orders : List TrackedOrder) : resolves (orders.map .resolve) = orders := by
  induction orders with
  | nil => rfl
  | cons order rest ih => exact congrArg (order :: ·) ih

theorem resolves_freezePlan (tracked : List TrackedOrder) (breach : String × MoveBreach) :
    resolves (freezePlan tracked breach) = tracked.filter (·.ticker == breach.1) := by
  have hmap := resolves_map (tracked.filter (·.ticker == breach.1))
  rw [resolves] at hmap ⊢
  simp [freezePlan, List.filterMap_cons, SweepAction.order?, hmap]

/-- The orders a sweep comes to, in turn. -/
theorem resolves_sweepPlan (policy : SweepPolicy) (env : CycleEnv) (w : GatewayWorld)
    (frozen : OrderedDict String MoveBreach) :
    resolves (sweepPlan policy env w frozen) = frozenOrders w.tracked.values frozen.items ++
      w.tracked.values.filter (isExpired policy env w.restingMeta frozen.keys) := by
  have hexpired := resolves_map
    (w.tracked.values.filter (isExpired policy env w.restingMeta frozen.keys))
  have hfrozen : resolves (frozen.items.flatMap (freezePlan w.tracked.values)) =
      frozenOrders w.tracked.values frozen.items := by
    rw [frozenOrders, resolves, List.filterMap_flatMap]
    exact congrArg (frozen.items.flatMap ·) (funext (resolves_freezePlan w.tracked.values))
  rw [sweepPlan, resolves, List.filterMap_append, ← resolves, ← resolves, hexpired, hfrozen]

/-- **A sweep comes to each order at most once.** -/
theorem resolves_nodup {w : GatewayWorld} {key : TrackedOrder → String}
    (hnodup : (w.tracked.values.map key).Nodup) (policy : SweepPolicy) (env : CycleEnv)
    (frozen : OrderedDict String MoveBreach) :
    ((resolves (sweepPlan policy env w frozen)).map key).Nodup := by
  have hexpired : (w.tracked.values.filter
      (isExpired policy env w.restingMeta frozen.keys)).Sublist
        (w.tracked.values.filter (decide <| ·.ticker ∉ frozen.keys)) :=
    List.monotone_filter_right _ fun order horder => (Bool.and_eq_true_iff.mp horder).1
  rw [resolves_sweepPlan]
  exact (swept_nodup hnodup frozen).sublist
    (((List.Sublist.refl _).append hexpired).map key)

section Plan

variable {policy : SweepPolicy} {env : CycleEnv} {view : CycleView}

theorem performAll_append (counts : SweepCounts) (before after : List SweepAction) :
    performAll policy env view counts (before ++ after) = (do
      let counts ← performAll policy env view counts before
      performAll policy env view counts after) := by
  induction before generalizing counts with
  | nil => simp [performAll]
  | cons action rest ih => simp [performAll, ih]

theorem resolveEach_eq (counts : SweepCounts) (orders : List TrackedOrder) :
    resolveEach env view counts orders =
      performAll policy env view counts (orders.map .resolve) := by
  induction orders generalizing counts with
  | nil => rfl
  | cons order rest ih =>
      rw [resolveEach, List.map_cons, performAll]
      exact congrArg _ (funext ih)

theorem freezeTicker_eq (tracked : List TrackedOrder) (counts : SweepCounts) (ticker : String)
    (breach : MoveBreach) :
    freezeTicker policy env view tracked counts ticker breach =
      performAll policy env view counts (freezePlan tracked (ticker, breach)) := by
  rw [freezeTicker, freezePlan, List.cons_append, performAll, perform, bind_assoc]
  refine congrArg _ (funext fun _ => ?_)
  rw [pure_bind, performAll_append, resolveEach_eq]
  refine congrArg _ (funext fun counts => ?_)
  simp [performAll, perform]

theorem freezeEach_eq (tracked : List TrackedOrder) (counts : SweepCounts)
    (breaches : List (String × MoveBreach)) :
    freezeEach policy env view tracked counts breaches =
      performAll policy env view counts (breaches.flatMap (freezePlan tracked)) := by
  induction breaches generalizing counts with
  | nil => rfl
  | cons breach rest ih =>
      rw [freezeEach, List.flatMap_cons, performAll_append, freezeTicker_eq]
      exact congrArg _ (funext ih)

end Plan

/-! ## What the choice of the orders goes by -/

/-- What one order's resolution can do. -/
theorem resolveStale_moves_one {R : GatewayWorld → GatewayWorld → Prop} [IsPreorder GatewayWorld R]
    (hledger : ∀ w event, R w (w.ledgered event)) {order : TrackedOrder}
    (hretire : ∀ w, R w (retired order w)) (hcancel : ∀ w, R w (withoutOrder order.orderId w))
    (env : CycleEnv) (view : CycleView) (counts : SweepCounts) :
    Moves R (resolveStale env view counts order) := by
  have hedge : ∀ state event coid, Moves R (applyAndLedger env.toGatewayEnv state event coid) :=
    fun state event coid => applyAndLedger_moves hledger _ state event coid
  have hdone : Moves R (retireTrackedOrder order) := Moves.modify hretire
  have htaken : Moves R (cancelOrder env order.orderId) := by
    rw [cancelOrder]
    split
    · exact Moves.modify hcancel
    · exact Moves.throw _
    · exact Moves.bind (Moves.modify hcancel) fun _ => Moves.throw _
  refine Moves.bind (Moves.ite (fun _ => Moves.pure _) fun _ => hedge _ _ _) fun state => ?_
  refine Moves.ite (fun _ => ?_) fun _ => Moves.ite (fun _ => ?_) fun _ => Moves.pure _
  · exact Moves.bind htaken fun _ => Moves.bind (hedge _ _ _) fun _ =>
      Moves.bind hdone fun _ => Moves.pure _
  · exact Moves.bind (hedge _ _ _) fun _ => Moves.bind hdone fun _ => Moves.pure _

/-- To retire one order leaves what was noted of any other. -/
theorem retired_noted {order : TrackedOrder} {k : String} (h : k ≠ order.orderId)
    (w : GatewayWorld) : (retired order w).restingMeta.get? k = w.restingMeta.get? k := by
  have hpop : (w.restingMeta.pop order.orderId).get? k = w.restingMeta.get? k := by
    rw [OrderedDict.get?_pop, if_neg h]
  unfold retired retireInflight
  dsimp only
  split
  · split <;> exact hpop
  · exact hpop

theorem resolveStale_noted {order : TrackedOrder} {k : String} (h : k ≠ order.orderId)
    (env : CycleEnv) (view : CycleView) (counts : SweepCounts) :
    Frames (fun w : GatewayWorld => w.restingMeta.get? k) (resolveStale env view counts order) :=
  resolveStale_moves_one (R := fun w w' => w'.restingMeta.get? k = w.restingMeta.get? k)
    (fun _ _ => rfl) (retired_noted h) (fun _ => rfl) env view counts

theorem performAll_noted {policy : SweepPolicy} {env : CycleEnv} {view : CycleView} {k : String}
    (counts : SweepCounts) {actions : List SweepAction}
    (h : ∀ order, .resolve order ∈ actions → k ≠ order.orderId) :
    Frames (fun w : GatewayWorld => w.restingMeta.get? k)
      (performAll policy env view counts actions) := by
  induction actions generalizing counts with
  | nil => exact Moves.pure _
  | cons action rest ih =>
      have hrest := fun counts => ih counts fun order horder => h order (.tail _ horder)
      cases action with
      | freeze ticker breach =>
          exact Moves.bind (Moves.bind (record_moves (fun _ _ => rfl) _ _) fun _ => Moves.pure _)
            hrest
      | resolve order =>
          exact Moves.bind (resolveStale_noted (h order (.head _)) env view counts) hrest
      | release ticker =>
          exact Moves.bind (Moves.bind (record_moves (fun _ _ => rfl) _ _) fun _ => Moves.pure _)
            hrest

/-- The pass over the old orders finds noted of each what was noted when the sweep began. -/
theorem expireEach_run {policy : SweepPolicy} {env : CycleEnv} {view : CycleView}
    {noted : OrderedDict String RestingOrderMeta} {frozenTickers : List String}
    (counts : SweepCounts) {tracked : List TrackedOrder} (hnodup : (tracked.map (·.orderId)).Nodup)
    {w : GatewayWorld} (hnoted : ∀ order ∈ tracked, order.ticker ∉ frozenTickers →
      w.restingMeta.get? order.orderId = noted.get? order.orderId) :
    (expireEach policy env view frozenTickers counts tracked).run w =
      (performAll policy env view counts
        ((tracked.filter (isExpired policy env noted frozenTickers)).map .resolve)).run w := by
  induction tracked generalizing counts w with
  | nil => rfl
  | cons order rest ih =>
      obtain ⟨hfresh, hrest⟩ := List.nodup_cons.mp hnodup
      have hlater : ∀ entry ∈ rest, entry.ticker ∉ frozenTickers →
          w.restingMeta.get? entry.orderId = noted.get? entry.orderId :=
        fun entry hentry => hnoted entry (.tail _ hentry)
      rw [expireEach]
      by_cases hfrozen : order.ticker ∈ frozenTickers
      · rw [if_pos hfrozen, List.filter_cons_of_neg (by simp [isExpired, hfrozen])]
        exact ih counts hrest hlater
      · rw [if_neg hfrozen, EStateM.run_bind, EStateM.run_get]
        dsimp only
        rw [hnoted order (.head _) hfrozen]
        by_cases hstale : isTtlStale policy env (noted.get? order.orderId) = true
        · rw [if_pos hstale, List.filter_cons_of_pos (by simp [isExpired, hfrozen, hstale]),
            List.map_cons, performAll, perform, EStateM.run_bind, EStateM.run_bind]
          cases hrun : (resolveStale env view counts order).run w with
          | error e u => rfl
          | ok more u =>
              refine ih more hrest fun entry hentry hticker => ?_
              have hne : entry.orderId ≠ order.orderId := fun hsame =>
                hfresh (List.mem_map.mpr ⟨entry, hentry, hsame⟩)
              exact ((resolveStale_noted hne env view counts).of_ok hrun).trans
                (hlater entry hentry hticker)
        · rw [if_neg hstale, List.filter_cons_of_neg (by simp [isExpired, hstale])]
          exact ih counts hrest hlater

/-! ## A sweep is its plan -/

/-- What a sweep reads, when it can read everything. -/
structure ReadsCycle (env : CycleEnv) (w : GatewayWorld) (view : CycleView) : Prop where
  ledgerReadable : env.ledgerReadRaises = false
  ordersReadable : env.openOrdersRaises = false
  states : foldLedgerStates w.ledger = .ok view.states
  openIds : view.openIds = w.openOrders.map (·.id)
  fills : env.fills = .ok view.fills

/-- A sweep that reads everything it goes by, and what it then sets out to do. -/
structure Plans (policy : SweepPolicy) (env : CycleEnv) (w : GatewayWorld) (view : CycleView)
    (frozen : OrderedDict String MoveBreach) : Prop where
  reads : ReadsCycle env w view
  frozen : detectFrozen policy env w.restingMeta .empty w.tracked.values = .ok frozen

theorem readCycle_run {env : CycleEnv} {w : GatewayWorld} {view : CycleView}
    (h : ReadsCycle env w view) : (readCycle env).run w = .ok view w := by
  have hview : view = ⟨view.states, w.openOrders.map (·.id), view.fills⟩ := by
    rw [← h.openIds]
  rw [readCycle, EStateM.run_bind, readAll_run, if_neg (by simp [h.ledgerReadable])]
  dsimp only
  rw [h.states, EStateM.run_bind, reading, EStateM.run_pure]
  dsimp only
  rw [EStateM.run_bind, getOpenOrders_run, if_neg (by simp [h.ordersReadable])]
  dsimp only
  rw [h.fills, EStateM.run_bind, reading, EStateM.run_pure]
  dsimp only
  rw [EStateM.run_pure, ← hview]

theorem readCycle_cases (env : CycleEnv) (w : GatewayWorld) :
    (∃ view, ReadsCycle env w view) ∨
      ∃ e, (readCycle env).run w = .error e w ∧ e.kind ≠ .illegalTransition := by
  by_cases hledger : env.ledgerReadRaises = true
  · refine .inr ⟨⟨.ledger, "ledger read failed"⟩, ?_, by decide⟩
    rw [readCycle, EStateM.run_bind, readAll_run, if_pos hledger]
  · cases hfold : foldLedgerStates w.ledger with
    | error text =>
        refine .inr ⟨⟨.keyError, text⟩, ?_, fun h => GatewayErrorKind.noConfusion h⟩
        rw [readCycle, EStateM.run_bind, readAll_run, if_neg hledger]
        dsimp only
        rw [hfold]
        rfl
    | ok states =>
        by_cases horders : env.openOrdersRaises = true
        · refine .inr ⟨⟨.source, "open orders read failed"⟩, ?_, by decide⟩
          rw [readCycle, EStateM.run_bind, readAll_run, if_neg hledger]
          dsimp only
          rw [hfold, EStateM.run_bind, reading, EStateM.run_pure]
          dsimp only
          rw [EStateM.run_bind, getOpenOrders_run, if_pos horders]
        · cases hfills : env.fills with
          | error text =>
              refine .inr ⟨⟨.source, text⟩, ?_, fun h => GatewayErrorKind.noConfusion h⟩
              rw [readCycle, EStateM.run_bind, readAll_run, if_neg hledger]
              dsimp only
              rw [hfold, EStateM.run_bind, reading, EStateM.run_pure]
              dsimp only
              rw [EStateM.run_bind, getOpenOrders_run, if_neg horders]
              dsimp only
              rw [hfills]
              rfl
          | ok fills =>
              exact .inl ⟨⟨states, w.openOrders.map (·.id), fills⟩, by simpa using hledger,
                by simpa using horders, hfold, rfl, hfills⟩

/-- An order on a frozen ticker is not one whose age is looked at. -/
theorem ticker_frozen_of_resolve {tracked : List TrackedOrder}
    {frozen : OrderedDict String MoveBreach} {order : TrackedOrder}
    (h : .resolve order ∈ frozen.items.flatMap (freezePlan tracked)) :
    order ∈ tracked ∧ order.ticker ∈ frozen.keys := by
  obtain ⟨breach, hbreach, hin⟩ := List.mem_flatMap.mp h
  have hfiltered : order ∈ tracked.filter (·.ticker == breach.1) := by
    simpa [freezePlan] using hin
  obtain ⟨hmem, hticker⟩ := List.mem_filter.mp hfiltered
  exact ⟨hmem, List.mem_map.mpr ⟨breach, hbreach, (beq_iff_eq.mp hticker).symm⟩⟩

/-- **A sweep that reads everything carries out its plan.** -/
theorem sweepOnce_run {policy : SweepPolicy} {env : CycleEnv} {w : GatewayWorld} {view : CycleView}
    {frozen : OrderedDict String MoveBreach} (hkeyed : TrackedById w)
    (h : Plans policy env w view frozen) :
    (sweepOnce policy env).run w = (do
      let counts ← performAll policy env view ⟨0, 0, 0⟩ (sweepPlan policy env w frozen)
      return ⟨counts, frozen.keys⟩ : GatewayM SweepOutcome).run w := by
  rw [sweepOnce, EStateM.run_bind, readCycle_run h.reads]
  dsimp only
  rw [EStateM.run_bind, trackedOrders, EStateM.run_bind, EStateM.run_get]
  dsimp only
  rw [EStateM.run_pure]
  dsimp only
  rw [EStateM.run_bind, EStateM.run_get]
  dsimp only
  rw [h.frozen, EStateM.run_bind, reading, EStateM.run_pure]
  dsimp only
  rw [sweepPlan, performAll_append, freezeEach_eq, bind_assoc, EStateM.run_bind, EStateM.run_bind]
  cases hrun : (performAll policy env view ⟨0, 0, 0⟩
      (frozen.items.flatMap (freezePlan w.tracked.values))).run w with
  | error e u => rfl
  | ok counts u =>
      have hnoted : ∀ order ∈ w.tracked.values, order.ticker ∉ frozen.keys →
          u.restingMeta.get? order.orderId = w.restingMeta.get? order.orderId := by
        intro order horder hticker
        refine (performAll_noted ⟨0, 0, 0⟩ fun entry hentry hsame => hticker ?_).of_ok hrun
        obtain ⟨hin, hfrozen⟩ := ticker_frozen_of_resolve hentry
        have heq : order = entry := List.inj_on_of_nodup_map hkeyed.nodup horder hin hsame
        rw [heq]
        exact hfrozen
      dsimp only
      rw [EStateM.run_bind, EStateM.run_bind, expireEach_run counts hkeyed.nodup hnoted]

/-- **A sweep reads and carries out its plan, or it changes nothing.** -/
theorem sweepOnce_cases (policy : SweepPolicy) (env : CycleEnv) (w : GatewayWorld) :
    (∃ view frozen, Plans policy env w view frozen) ∨
      ∃ e, (sweepOnce policy env).run w = .error e w ∧ e.kind ≠ .illegalTransition := by
  rcases readCycle_cases env w with ⟨view, hreads⟩ | ⟨e, hraised, hkind⟩
  · cases hfrozen : detectFrozen policy env w.restingMeta .empty w.tracked.values with
    | ok frozen => exact .inl ⟨view, frozen, hreads, hfrozen⟩
    | error text =>
        refine .inr ⟨⟨.source, text⟩, ?_, fun h => GatewayErrorKind.noConfusion h⟩
        rw [sweepOnce, EStateM.run_bind, readCycle_run hreads]
        dsimp only
        rw [EStateM.run_bind, trackedOrders, EStateM.run_bind, EStateM.run_get]
        dsimp only
        rw [EStateM.run_pure]
        dsimp only
        rw [EStateM.run_bind, EStateM.run_get]
        dsimp only
        rw [hfrozen]
        rfl
  · refine .inr ⟨e, ?_, hkind⟩
    rw [sweepOnce, EStateM.run_bind, hraised]

/-! ## When every collaborator answers -/

/-- How a sweep resolves an order it comes to. -/
inductive Resolution where
  | cancelled
  | filled
  | unresolved
  deriving DecidableEq, Repr

/-- A resting order is cancelled; one that is gone is booked as filled if it shows a new fill. -/
def resolutionOf (view : CycleView) (order : TrackedOrder) : Resolution :=
  if order.orderId ∈ view.openIds then .cancelled
  else if 0 < newFillCentis view.fills order then .filled
  else .unresolved

/-- The record of a request to cancel, unless an earlier sweep left it. -/
def requestRecords (view : CycleView) (order : TrackedOrder) : List Event :=
  if ledgeredState view.states order = .CANCEL_REQUESTED then []
  else [edgeEvent order.clientOrderId (ledgeredState view.states order) .REQUEST_CANCEL
    .CANCEL_REQUESTED]

/-- The record that ends an order. -/
def Resolution.records (coid : String) : Resolution → List Event
  | .cancelled => [edgeEvent coid .CANCEL_REQUESTED .CANCEL .CANCELLED]
  | .filled => [edgeEvent coid .CANCEL_REQUESTED .FILL .FILLED]
  | .unresolved => []

/-- One more resolved order in the tally. -/
def SweepCounts.tally (counts : SweepCounts) : Resolution → SweepCounts
  | .cancelled => { counts with cancelled := counts.cancelled + 1 }
  | .filled => { counts with filledDuringCancel := counts.filledDuringCancel + 1 }
  | .unresolved => { counts with skippedUnresolved := counts.skippedUnresolved + 1 }

end Sweeper

/-- The world after several records are written. -/
@[simps] def GatewayWorld.ledgeredAll (w : GatewayWorld) (events : List Event) : GatewayWorld :=
  { w with ledger := w.ledger ++ events }

theorem GatewayWorld.ledgeredAll_nil (w : GatewayWorld) : w.ledgeredAll [] = w := by
  simp [GatewayWorld.ledgeredAll]

namespace Sweeper

/-- What resolving an order does besides the records. -/
def Resolution.ended (order : TrackedOrder) (w : GatewayWorld) : Resolution → GatewayWorld
  | .cancelled => retired order (withoutOrder order.orderId w)
  | .filled => retired order w
  | .unresolved => w

/-- What is recorded of an order a sweep comes to. -/
def resolutionRecords (view : CycleView) (order : TrackedOrder) : List Event :=
  requestRecords view order ++ (resolutionOf view order).records order.clientOrderId

/-- The world once a sweep has come to an order. -/
def resolved (view : CycleView) (order : TrackedOrder) (w : GatewayWorld) : GatewayWorld :=
  (resolutionOf view order).ended order (w.ledgeredAll (resolutionRecords view order))

/-- The world after one action. -/
def performed (policy : SweepPolicy) (env : CycleEnv) (view : CycleView) (w : GatewayWorld) :
    SweepAction → GatewayWorld
  | .freeze ticker breach => w.ledgered (freezeEvent policy env ticker breach)
  | .resolve order => resolved view order w
  | .release ticker => w.ledgered (returnToScreenerEvent ticker "market_freeze" env.clock)

/-- The tally after one action. -/
def SweepAction.tally (view : CycleView) (counts : SweepCounts) : SweepAction → SweepCounts
  | .resolve order => counts.tally (resolutionOf view order)
  | .freeze _ _ | .release _ => counts

/-- Every collaborator of a cycle answers, and everything is recorded. -/
structure Answers (env : CycleEnv) : Prop where
  ledgerReadable : env.ledgerReadRaises = false
  ordersReadable : env.openOrdersRaises = false
  fills : ∃ fills, env.fills = .ok fills
  books : ∀ ticker, ∃ book, env.orderBook ticker = .ok book
  ticks : ∀ ticker, ∃ tick, env.priceTickPips ticker = .ok tick
  cancelled : ∀ id, env.cancel id = .cancelled
  recorded : ∀ event, env.record event = .written

section Answered

variable {policy : SweepPolicy} {env : CycleEnv} {view : CycleView}

theorem requestCancel_answered (h : Answers env) {order : TrackedOrder}
    (hmoves : (ledgeredState view.states order).canMove = true) (w : GatewayWorld) :
    (requestCancel env (ledgeredState view.states order) order.clientOrderId).run w =
      .ok .CANCEL_REQUESTED (w.ledgeredAll (requestRecords view order)) := by
  unfold requestCancel requestRecords
  by_cases hrequested : ledgeredState view.states order = .CANCEL_REQUESTED
  · rw [if_pos hrequested, if_pos hrequested, w.ledgeredAll_nil, hrequested]
    rfl
  · rw [if_neg hrequested, if_neg hrequested]
    exact applyAndLedger_written (OrderState.transition_requestCancel hmoves hrequested)
      (h.recorded _) w

/-- **An order that can move is resolved** when every collaborator answers. -/
theorem resolveStale_answered (h : Answers env) (counts : SweepCounts) {order : TrackedOrder}
    (hmoves : (ledgeredState view.states order).canMove = true) (w : GatewayWorld) :
    (resolveStale env view counts order).run w =
      .ok (counts.tally (resolutionOf view order)) (resolved view order w) := by
  have htwice : ∀ events, (w.ledgeredAll (requestRecords view order)).ledgeredAll events =
      w.ledgeredAll (requestRecords view order ++ events) := fun events => by
    simp [GatewayWorld.ledgeredAll]
  unfold resolveStale resolved resolutionRecords resolutionOf
  rw [EStateM.run_bind, requestCancel_answered h hmoves]
  dsimp only
  by_cases hopen : order.orderId ∈ view.openIds
  · rw [if_pos hopen, if_pos hopen, cancelOrder, h.cancelled]
    dsimp only
    rw [EStateM.run_bind, EStateM.run_modify]
    dsimp only
    rw [EStateM.run_bind, applyAndLedger_written rfl (h.recorded _)]
    dsimp only
    rw [EStateM.run_bind, retireTrackedOrder, EStateM.run_modify]
    dsimp only
    rw [← htwice]
    rfl
  · rw [if_neg hopen, if_neg hopen]
    by_cases hfill : 0 < newFillCentis view.fills order
    · rw [if_pos hfill, if_pos hfill, EStateM.run_bind,
        applyAndLedger_written rfl (h.recorded _)]
      dsimp only
      rw [EStateM.run_bind, retireTrackedOrder, EStateM.run_modify]
      dsimp only
      rw [← htwice]
      rfl
    · rw [if_neg hfill, if_neg hfill, Resolution.records, List.append_nil]
      rfl

/-- **A sweep carries out all of its plan** when every collaborator answers and every order it comes
to can move. -/
theorem performAll_answered (h : Answers env) (counts : SweepCounts) {actions : List SweepAction}
    (hmoves : ∀ order, .resolve order ∈ actions →
      (ledgeredState view.states order).canMove = true) (w : GatewayWorld) :
    (performAll policy env view counts actions).run w =
      .ok (actions.foldl (SweepAction.tally view) counts)
        (actions.foldl (performed policy env view) w) := by
  induction actions generalizing counts w with
  | nil => rfl
  | cons action rest ih =>
      have hrest := fun counts w => ih counts (fun order horder => hmoves order (.tail _ horder)) w
      have hone : (perform policy env view counts action).run w =
          .ok (action.tally view counts) (performed policy env view w action) := by
        cases action with
        | freeze ticker breach =>
            rw [perform, EStateM.run_bind, record_run, h.recorded]
            rfl
        | resolve order => exact resolveStale_answered h counts (hmoves order (.head _)) w
        | release ticker =>
            rw [perform, EStateM.run_bind, record_run, h.recorded]
            rfl
      rw [performAll, EStateM.run_bind, hone]
      exact hrest _ _

theorem moveBreach_answered (h : Answers env) (noted : Option RestingOrderMeta)
    (order : TrackedOrder) : ∃ breach, moveBreach policy env noted order = .ok breach := by
  obtain ⟨book, hbook⟩ := h.books order.ticker
  obtain ⟨tick, htick⟩ := h.ticks order.ticker
  unfold moveBreach
  cases noted with
  | none => exact ⟨none, rfl⟩
  | some noted =>
      dsimp only
      rw [observedPrice, hbook, htick]
      dsimp only [bind, Except.bind, pure, Except.pure]
      split
      · exact ⟨none, rfl⟩
      · split
        · exact ⟨_, rfl⟩
        · exact ⟨none, rfl⟩

theorem detectFrozen_answered (h : Answers env) (noted : OrderedDict String RestingOrderMeta)
    (frozen : OrderedDict String MoveBreach) (tracked : List TrackedOrder) :
    ∃ frozen', detectFrozen policy env noted frozen tracked = .ok frozen' := by
  induction tracked generalizing frozen with
  | nil => exact ⟨frozen, rfl⟩
  | cons order rest ih =>
      rw [detectFrozen]
      split
      · exact ih frozen
      · obtain ⟨breach, hbreach⟩ := moveBreach_answered h (noted.get? order.orderId) order
        rw [hbreach]
        dsimp only [bind, Except.bind]
        cases breach with
        | none => exact ih frozen
        | some breach => exact ih _

/-- A sweep whose collaborators all answer has a plan, if the ledger can be folded. -/
theorem plans_of_answers (h : Answers env) {w : GatewayWorld}
    {states : OrderedDict String OrderState} (hfold : foldLedgerStates w.ledger = .ok states) :
    ∃ view frozen, Plans policy env w view frozen ∧ view.states = states := by
  obtain ⟨fills, hfills⟩ := h.fills
  obtain ⟨frozen, hfrozen⟩ := detectFrozen_answered h w.restingMeta .empty w.tracked.values
  exact ⟨⟨states, w.openOrders.map (·.id), fills⟩, frozen,
    ⟨⟨h.ledgerReadable, h.ordersReadable, hfold, rfl, hfills⟩, hfrozen⟩, rfl⟩

end Answered

end Sweeper

end OrderGateway

end Windbreak
