import Windbreak.OrderGateway.MovableOrders

/-!
# Runs that strand no order

A cycle ends an order with a record and then ceases to track it.  When the record reaches the ledger
and the cycle raises all the same, the order stays tracked where no edge leads on.

* **`ReconcileStrands`, `SweepStrands`** — the cycles that stop there.
* **`movable_run`** — along a run in which no step strands an order, every tracked order can be moved.
-/

namespace Windbreak

namespace OrderGateway

open Machine Effects

/-! ## Where a pass stops -/

/-- A pass over a list gets to an element that stops it. -/
def StopsAt {α : Type} (passes stops : α → Prop) (xs : List α) : Prop :=
  ∃ before x after, xs = before ++ x :: after ∧ (∀ y ∈ before, passes y) ∧ stops x

section Stops

variable {α : Type} {passes stops : α → Prop} {x : α} {xs : List α}

theorem StopsAt.head (h : stops x) : StopsAt passes stops (x :: xs) :=
  ⟨[], x, xs, rfl, fun _ hy => absurd hy List.not_mem_nil, h⟩

theorem StopsAt.tail (hx : passes x) (h : StopsAt passes stops xs) :
    StopsAt passes stops (x :: xs) := by
  obtain ⟨before, y, after, rfl, hbefore, hstops⟩ := h
  exact ⟨x :: before, y, after, rfl, List.forall_mem_cons.mpr ⟨hx, hbefore⟩, hstops⟩

end Stops

/-! ## Ending an order -/

/-- What a cycle works on: the books agree, and the orders ahead are tracked. -/
structure Ahead (orders : List TrackedOrder) (w : GatewayWorld) : Prop where
  kept : Bookkept w
  movable : Movable w
  tracked : ∀ order ∈ orders, w.tracked.get? order.orderId = some order
  nodup : (orders.map (·.orderId)).Nodup

theorem Movable.ledgered {w : GatewayWorld} (h : Movable w)
    {states : OrderedDict String OrderState} (hfold : foldLedgerStates w.ledger = .ok states)
    {k : String} {order : TrackedOrder} (hk : w.tracked.get? k = some order) :
    (ledgeredState states order).canMove = true := by
  obtain ⟨found, state, hfound, hget, hmove⟩ := h.moves k order hk
  have hsame : found = states := Except.ok.inj (hfound.symm.trans hfold)
  rw [ledgeredState, ← hsame, hget]
  exact hmove

/-- The orders a gateway tracks are ahead of a cycle that begins. -/
theorem ahead_of_tracked {w : GatewayWorld} (hkept : Bookkept w) (hmovable : Movable w) :
    Ahead w.tracked.values w := by
  refine ⟨hkept, hmovable, fun order horder => ?_, hmovable.keyed.nodup⟩
  obtain ⟨k, hk⟩ := OrderedDict.mem_values_iff.mp horder
  rw [hmovable.keyed k order hk]
  exact hk

section Ending

variable {order : TrackedOrder} {rest : List TrackedOrder} {w u : GatewayWorld}

theorem Ahead.tail (h : Ahead (order :: rest) w) : Ahead rest w :=
  ⟨h.kept, h.movable, fun entry hentry => h.tracked entry (.tail _ hentry),
    (List.nodup_cons.mp h.nodup).2⟩

/-- The orders ahead are still ahead after what changes neither the books nor what is tracked. -/
theorem Ahead.of_books {orders : List TrackedOrder} (h : Ahead orders w) (hkept : Bookkept u)
    (hbooks : u.cycleBooks = w.cycleBooks) : Ahead orders u := by
  have htracked : u.tracked = w.tracked := (Prod.mk.inj hbooks).2
  refine ⟨hkept, h.movable.of_books hbooks, fun entry hentry => ?_, h.nodup⟩
  rw [htracked]
  exact h.tracked entry hentry

/-- **An order that is recorded and retired** leaves the others ahead. -/
theorem Ahead.retired (h : Ahead (order :: rest) w) (hkept : Bookkept u)
    (hrecords : RecordsOf order.clientOrderId w u) : Ahead rest (retired order u) := by
  have horder : u.tracked.get? order.orderId = some order := by
    rw [hrecords.tracked]
    exact h.tracked order (.head _)
  have hbut : MovableBut order.clientOrderId (OrderGateway.retired order u) :=
    (hrecords.but (h.movable.but _)).retired order
  refine ⟨hkept.retired order, hbut.movable (.inl (untracked_retired hkept horder)),
    fun entry hentry => ?_, (List.nodup_cons.mp h.nodup).2⟩
  have hne : entry.orderId ≠ order.orderId := fun hsame =>
    (List.nodup_cons.mp h.nodup).1 (List.mem_map.mpr ⟨entry, hentry, hsame⟩)
  rw [retired_tracked, OrderedDict.get?_pop, if_neg hne, hrecords.tracked]
  exact h.tracked entry (.tail _ hentry)

end Ending

/-! ## The reconciler -/

/-- The record of a fill found by a cycle. -/
def fillEvent (states : OrderedDict String OrderState) (order : TrackedOrder) : Event :=
  edgeEvent order.clientOrderId (ledgeredState states order) .FILL .FILLED

/-- A tracked order a reconcile cycle leaves resting, or heals in full. -/
def HealPasses (env : CycleEnv) (openIds : List String) (fills : List Fill)
    (states : OrderedDict String OrderState) (order : TrackedOrder) : Prop :=
  order.orderId ∈ openIds ∨ (0 < newFillCentis fills order ∧
    env.record (fillEvent states order) = .written ∧
      env.record (Reconciler.healedEvent order) = .written)

/-- A tracked order whose fill a reconcile cycle records without ceasing to track it. -/
def HealStrands (env : CycleEnv) (openIds : List String) (fills : List Fill)
    (states : OrderedDict String OrderState) (order : TrackedOrder) : Prop :=
  order.orderId ∉ openIds ∧ 0 < newFillCentis fills order ∧
    (env.record (fillEvent states order) = .writtenThenRaised ∨
      (env.record (fillEvent states order) = .written ∧
        env.record (Reconciler.healedEvent order) ≠ .written))

/-- A reconcile cycle that comes to an order whose fill it records without ceasing to track it. -/
structure ReconcileStrands (env : CycleEnv) (w : GatewayWorld) : Prop where
  ordersReadable : env.openOrdersRaises = false
  noForeign : Reconciler.firstForeign w.openOrders (w.tracked.values.map (·.orderId)) = none
  ledgerReadable : env.ledgerReadRaises = false
  heals : ∃ fills states, env.fills = .ok fills ∧ foldLedgerStates w.ledger = .ok states ∧
    StopsAt (HealPasses env (w.openOrders.map (·.id)) fills states)
      (HealStrands env (w.openOrders.map (·.id)) fills states) w.tracked.values

section Reconcile

variable {env : CycleEnv} {openIds : List String} {fills : List Fill}
  {states : OrderedDict String OrderState} {order : TrackedOrder} {rest : List TrackedOrder}
  {w : GatewayWorld}

theorem healedEvent_cycleBooks (order : TrackedOrder) (w : GatewayWorld) :
    (w.ledgered (Reconciler.healedEvent order)).cycleBooks = w.cycleBooks :=
  cycleBooks_ledgered (by decide : "ReconciliationHealed" ≠ "OrderTransitionLedgered") w

/-- **A heal is done in full**, or raises and changes nothing, or strands the order. -/
theorem heal_cases (hw : Ahead (order :: rest) w)
    (hmoves : (ledgeredState states order).canMove = true) :
    (∃ e u, (Reconciler.heal env states order).run w = .error e u ∧
      e.kind ≠ .illegalTransition ∧ (u = w ∨
        env.record (fillEvent states order) = .writtenThenRaised ∨
          (env.record (fillEvent states order) = .written ∧
            env.record (Reconciler.healedEvent order) ≠ .written))) ∨
    ∃ u, (Reconciler.heal env states order).run w = .ok () u ∧ Ahead rest u ∧
      env.record (fillEvent states order) = .written ∧
        env.record (Reconciler.healedEvent order) = .written := by
  rw [Reconciler.heal, EStateM.run_bind,
    applyAndLedger_run (OrderState.transition_fill hmoves), ← fillEvent]
  cases hfill : env.record (fillEvent states order) with
  | writtenThenRaised => exact .inl ⟨_, _, rfl, by simp, .inr (.inl rfl)⟩
  | lost => exact .inl ⟨_, _, rfl, by simp, .inl rfl⟩
  | written =>
      dsimp only
      rw [EStateM.run_bind, record_run]
      cases hhealed : env.record (Reconciler.healedEvent order) with
      | lost => exact .inl ⟨_, _, rfl, by simp, .inr (.inr ⟨rfl, by simp⟩)⟩
      | writtenThenRaised => exact .inl ⟨_, _, rfl, by simp, .inr (.inr ⟨rfl, by simp⟩)⟩
      | written =>
          refine .inr ⟨_, rfl, ?_, rfl, rfl⟩
          refine hw.retired ((hw.kept.ledgered (fillEvent states order)).ledgered _) ?_
          have hrecorded : RecordsOf order.clientOrderId w (w.ledgered (fillEvent states order)) :=
            recordsOf_edge ..
          exact IsTrans.trans _ _ _ hrecorded (RecordsOf.of_books (healedEvent_cycleBooks order _))

theorem halt_cycleBooks (env : CycleEnv) (reason ticker orderId coid : String) :
    Frames GatewayWorld.cycleBooks (Reconciler.halt env reason ticker orderId coid) :=
  Moves.bind (record_cycleBooks (by decide) _ _) fun _ =>
    Moves.bind (Moves.modify fun w => rfl) fun _ => Moves.pure _

theorem halt_raises {e : GatewayError} {u : GatewayWorld} {reason ticker orderId coid : String}
    (h : (Reconciler.halt env reason ticker orderId coid).run w = .error e u) :
    e.kind ≠ .illegalTransition := by
  rw [Reconciler.halt, EStateM.run_bind, record_run] at h
  cases hrecord : env.record (Reconciler.haltEvent reason ticker orderId coid) with
  | written =>
      rw [hrecord] at h
      cases h
  | lost =>
      rw [hrecord] at h
      cases h
      simp
  | writtenThenRaised =>
      rw [hrecord] at h
      cases h
      simp

/-- **A pass of heals** raises no illegal transition, and leaves every order movable if it strands
nothing. -/
theorem healEach_movable (healed : ℕ) {tracked : List TrackedOrder} {w : GatewayWorld}
    (hw : Ahead tracked w)
    (hmoves : ∀ order ∈ tracked, (ledgeredState states order).canMove = true) :
    (¬ StopsAt (HealPasses env openIds fills states) (HealStrands env openIds fills states) tracked →
      Movable (finalState
        ((Reconciler.healEach env openIds fills states healed tracked).run w))) ∧
    ∀ e u, (Reconciler.healEach env openIds fills states healed tracked).run w = .error e u →
      e.kind ≠ .illegalTransition := by
  induction tracked generalizing healed w with
  | nil => exact ⟨fun _ => hw.movable, fun e u hrun => by cases hrun⟩
  | cons order rest ih =>
      have hrest : ∀ entry ∈ rest, (ledgeredState states entry).canMove = true :=
        fun entry hentry => hmoves entry (.tail _ hentry)
      rw [Reconciler.healEach]
      by_cases hopen : order.orderId ∈ openIds
      · rw [if_pos hopen]
        exact (ih healed hw.tail hrest).imp_left fun hlater hstrands =>
          hlater fun hstops => hstrands (.tail (.inl hopen) hstops)
      · rw [if_neg hopen]
        by_cases hfill : newFillCentis fills order ≤ 0
        · rw [if_pos hfill]
          exact ⟨fun _ => hw.movable.of_books (halt_cycleBooks env _ _ _ _ w),
            fun e u hrun => halt_raises hrun⟩
        · have hnew : 0 < newFillCentis fills order := not_le.mp hfill
          rw [if_neg hfill, EStateM.run_bind]
          rcases heal_cases hw (hmoves order (.head _)) with
            ⟨e, u, hraised, hkind, hu⟩ | ⟨u, hreturned, hu, hrecorded, hhealed⟩
          · rw [hraised]
            refine ⟨fun hstrands => ?_, fun e' u' hrun => ?_⟩
            · rcases hu with rfl | hstops
              · exact hw.movable
              · exact absurd (.head ⟨hopen, hnew, hstops⟩) hstrands
            · cases hrun
              exact hkind
          · rw [hreturned]
            exact (ih (healed + 1) hu hrest).imp_left fun hlater hstrands => hlater fun hstops =>
              hstrands (.tail (.inr ⟨hnew, hrecorded, hhealed⟩) hstops)

/-- **A reconcile cycle** raises no illegal transition while every order can be moved, and leaves
every order movable if it strands nothing. -/
theorem runOnce_movable (hkept : Bookkept w) (hw : Movable w) :
    (¬ ReconcileStrands env w → Movable (finalState ((Reconciler.runOnce env).run w))) ∧
      ∀ e u, (Reconciler.runOnce env).run w = .error e u → e.kind ≠ .illegalTransition := by
  have hstays : ∀ {e : GatewayError}, e.kind ≠ .illegalTransition →
      (¬ ReconcileStrands env w → Movable (finalState
        (.error e w : EStateM.Result GatewayError GatewayWorld Reconciler.ReconcileOutcome))) ∧
      ∀ e' u, (.error e w : EStateM.Result GatewayError GatewayWorld Reconciler.ReconcileOutcome) =
        .error e' u → e'.kind ≠ .illegalTransition := by
    intro e hkind
    refine ⟨fun _ => hw, fun e' u hrun => ?_⟩
    cases hrun
    exact hkind
  rw [Reconciler.runOnce, EStateM.run_bind, getOpenOrders_run]
  by_cases horders : env.openOrdersRaises = true
  · rw [if_pos horders]
    exact hstays (by simp)
  rw [if_neg horders]
  dsimp only
  rw [EStateM.run_bind]
  cases hfills : env.fills with
  | error text => exact hstays (by simp)
  | ok fills =>
      rw [reading, EStateM.run_pure]
      dsimp only
      rw [EStateM.run_bind, trackedOrders, EStateM.run_bind, EStateM.run_get]
      dsimp only
      rw [EStateM.run_pure]
      dsimp only
      cases hforeign : Reconciler.firstForeign w.openOrders (w.tracked.values.map (·.orderId)) with
      | some foreign =>
        exact ⟨fun _ => hw.of_books (halt_cycleBooks env _ _ _ _ w), fun e u hrun =>
          halt_raises hrun⟩
      | none =>
        dsimp only
        rw [EStateM.run_bind, readAll_run]
        by_cases hledger : env.ledgerReadRaises = true
        · rw [if_pos hledger]
          exact hstays (by simp)
        rw [if_neg hledger]
        dsimp only
        rw [EStateM.run_bind]
        cases hfold : foldLedgerStates w.ledger with
        | error text => exact hstays (by simp)
        | ok states =>
            have hmoves : ∀ order ∈ w.tracked.values,
                (ledgeredState states order).canMove = true := by
              intro order horder
              obtain ⟨k, hk⟩ := OrderedDict.mem_values_iff.mp horder
              exact hw.ledgered hfold hk
            refine (healEach_movable 0 (ahead_of_tracked hkept hw) hmoves).imp_left
              fun hlater hstrands => hlater fun hstops => hstrands ?_
            exact ⟨by simpa using horders, hforeign, by simpa using hledger, fills, states, hfills,
              hfold, hstops⟩

end Reconcile

/-! ## The sweep -/

namespace Sweeper

/-- A sweep resolves an order, and every record of it is written. -/
def ResolvePasses (env : CycleEnv) (view : CycleView) (order : TrackedOrder) : Prop :=
  (∀ event ∈ resolutionRecords view order, env.record event = .written) ∧
    (resolutionOf view order = .cancelled → env.cancel order.orderId = .cancelled)

/-- A sweep records the end of an order without ceasing to track it. -/
def ResolveStrands (env : CycleEnv) (view : CycleView) (order : TrackedOrder) : Prop :=
  (∀ event ∈ requestRecords view order, env.record event = .written) ∧
    (resolutionOf view order = .cancelled → env.cancel order.orderId = .cancelled) ∧
    ∃ event ∈ (resolutionOf view order).records order.clientOrderId,
      env.record event = .writtenThenRaised

/-- An action that is carried out in full. -/
def ActionPasses (policy : SweepPolicy) (env : CycleEnv) (view : CycleView) : SweepAction → Prop
  | .freeze ticker breach => env.record (freezeEvent policy env ticker breach) = .written
  | .resolve order => ResolvePasses env view order
  | .release ticker =>
    env.record (returnToScreenerEvent ticker "market_freeze" env.clock) = .written

/-- An action that records the end of an order without ceasing to track it. -/
def ActionStrands (env : CycleEnv) (view : CycleView) : SweepAction → Prop
  | .resolve order => ResolveStrands env view order
  | .freeze _ _ | .release _ => False

end Sweeper

open Sweeper

/-- A sweep that comes to an order whose end it records without ceasing to track it. -/
def SweepStrands (policy : SweepPolicy) (env : CycleEnv) (w : GatewayWorld) : Prop :=
  ∃ view frozen, Plans policy env w view frozen ∧
    StopsAt (ActionPasses policy env view) (ActionStrands env view) (sweepPlan policy env w frozen)

section Sweep

variable {policy : SweepPolicy} {env : CycleEnv} {view : CycleView} {order : TrackedOrder}
  {rest : List TrackedOrder} {w : GatewayWorld}

/-- Requesting a cancel leaves the order where it can be moved. -/
theorem Ahead.requested (h : Ahead (order :: rest) w)
    (hmoves : (ledgeredState view.states order).canMove = true) :
    Ahead (order :: rest) (w.ledgeredAll (requestRecords view order)) := by
  unfold requestRecords
  split
  · rw [w.ledgeredAll_nil]
    exact h
  · have hrecords := recordsOf_edge order.clientOrderId (ledgeredState view.states order)
      .REQUEST_CANCEL .CANCEL_REQUESTED w
    refine ⟨h.kept.ledgered _, ?_, h.tracked, h.nodup⟩
    exact (hrecords.but (h.movable.but _)).movable (.inr (canMove_edge h.movable.folds rfl))

theorem requestCancel_cases (hmoves : (ledgeredState view.states order).canMove = true)
    (w : GatewayWorld) :
    ((∀ event ∈ requestRecords view order, env.record event = .written) ∧
      (requestCancel env (ledgeredState view.states order) order.clientOrderId).run w =
        .ok .CANCEL_REQUESTED (w.ledgeredAll (requestRecords view order))) ∨
    ∃ e u, (requestCancel env (ledgeredState view.states order) order.clientOrderId).run w =
      .error e u ∧ e.kind = .ledger ∧
        (u = w ∨ u = w.ledgeredAll (requestRecords view order)) := by
  unfold requestCancel requestRecords
  by_cases hrequested : ledgeredState view.states order = .CANCEL_REQUESTED
  · rw [if_pos hrequested, if_pos hrequested, w.ledgeredAll_nil, hrequested]
    exact .inl ⟨fun event hevent => absurd hevent List.not_mem_nil, rfl⟩
  · rw [if_neg hrequested, if_neg hrequested,
      applyAndLedger_run (OrderState.transition_requestCancel hmoves hrequested)]
    cases hrecord : env.record (edgeEvent order.clientOrderId (ledgeredState view.states order)
        .REQUEST_CANCEL .CANCEL_REQUESTED) with
    | written => exact .inl ⟨by simpa using hrecord, rfl⟩
    | lost => exact .inr ⟨_, w, rfl, rfl, .inl rfl⟩
    | writtenThenRaised => exact .inr ⟨_, _, rfl, rfl, .inr rfl⟩

/-- What ends the resolution of an order: its last record, then the end of its tracking. -/
theorem ended_cases {event : OrderEvent} {target : OrderState}
    (hedge : OrderState.CANCEL_REQUESTED.transition event = some target)
    (h : Ahead (order :: rest) w) (counts : SweepCounts) :
    (∃ e u, (do
        let _ ← applyAndLedger env.toGatewayEnv .CANCEL_REQUESTED event order.clientOrderId
        retireTrackedOrder order
        return counts : GatewayM SweepCounts).run w = .error e u ∧ e.kind ≠ .illegalTransition ∧
          (u = w ∨ env.record (edgeEvent order.clientOrderId .CANCEL_REQUESTED event target) =
            .writtenThenRaised)) ∨
      ∃ u, (do
        let _ ← applyAndLedger env.toGatewayEnv .CANCEL_REQUESTED event order.clientOrderId
        retireTrackedOrder order
        return counts : GatewayM SweepCounts).run w = .ok counts u ∧ Ahead rest u ∧
          env.record (edgeEvent order.clientOrderId .CANCEL_REQUESTED event target) = .written := by
  rw [EStateM.run_bind, applyAndLedger_run hedge]
  cases hrecord : env.record (edgeEvent order.clientOrderId .CANCEL_REQUESTED event target) with
  | writtenThenRaised => exact .inl ⟨_, _, rfl, by simp, .inr rfl⟩
  | lost => exact .inl ⟨_, _, rfl, by simp, .inl rfl⟩
  | written => exact .inr ⟨_, rfl, h.retired (h.kept.ledgered _) (recordsOf_edge ..), rfl⟩

/-- **A sweep resolves an order in full**, or raises and leaves every order movable, or strands it. -/
theorem resolveStale_cases (h : Ahead (order :: rest) w)
    (hmoves : (ledgeredState view.states order).canMove = true) (counts : SweepCounts) :
    (∃ e u, (resolveStale env view counts order).run w = .error e u ∧
      e.kind ≠ .illegalTransition ∧ (¬ ResolveStrands env view order → Movable u)) ∨
    ∃ more u, (resolveStale env view counts order).run w = .ok more u ∧ Ahead rest u ∧
      ResolvePasses env view order := by
  unfold resolveStale
  rw [EStateM.run_bind]
  rcases requestCancel_cases hmoves w with ⟨hwritten, hrequested⟩ | ⟨e, u, hraised, hkind, hu⟩
  · have hahead := h.requested hmoves
    rw [hrequested]
    dsimp only
    by_cases hopen : order.orderId ∈ view.openIds
    · have hresolution : resolutionOf view order = .cancelled := if_pos hopen
      rw [if_pos hopen, EStateM.run_bind, cancelOrder]
      cases hcancel : env.cancel order.orderId with
      | refused text => exact .inl ⟨_, _, rfl, by simp, fun _ => hahead.movable⟩
      | cancelledThenRaised text =>
        exact .inl ⟨_, _, rfl, by simp, fun _ => hahead.movable.of_books rfl⟩
      | cancelled =>
        have htaken : Ahead (order :: rest) (withoutOrder order.orderId
            (w.ledgeredAll (requestRecords view order))) :=
          hahead.of_books (hahead.kept.of_eq rfl rfl rfl rfl) rfl
        have hedge : OrderState.CANCEL_REQUESTED.transition .CANCEL = some .CANCELLED := rfl
        rcases ended_cases hedge htaken { counts with cancelled := counts.cancelled + 1 } with
          ⟨e, u, hraised, hkind, hu⟩ | ⟨u, hreturned, hu, hrecorded⟩
        · refine .inl ⟨e, u, hraised, hkind, fun hstrands => ?_⟩
          rcases hu with rfl | hstops
          · exact htaken.movable
          · refine absurd ⟨hwritten, fun _ => hcancel, _, ?_, hstops⟩ hstrands
            rw [hresolution]
            exact List.mem_singleton.mpr rfl
        · refine .inr ⟨_, u, hreturned, hu, ?_, fun _ => hcancel⟩
          rw [resolutionRecords, hresolution, Resolution.records]
          exact List.forall_mem_append.mpr ⟨hwritten, by simpa using hrecorded⟩
    · have huncancelled : resolutionOf view order ≠ .cancelled := by
        rw [resolutionOf, if_neg hopen]
        split
        · simp
        · simp
      rw [if_neg hopen]
      by_cases hfill : 0 < newFillCentis view.fills order
      · have hresolution : resolutionOf view order = .filled := by
          rw [resolutionOf, if_neg hopen, if_pos hfill]
        have hedge : OrderState.CANCEL_REQUESTED.transition .FILL = some .FILLED := rfl
        rw [if_pos hfill]
        rcases ended_cases hedge hahead
            { counts with filledDuringCancel := counts.filledDuringCancel + 1 } with
          ⟨e, u, hraised, hkind, hu⟩ | ⟨u, hreturned, hu, hrecorded⟩
        · refine .inl ⟨e, u, hraised, hkind, fun hstrands => ?_⟩
          rcases hu with rfl | hstops
          · exact hahead.movable
          · refine absurd ⟨hwritten, fun hc => absurd hc huncancelled, _, ?_, hstops⟩ hstrands
            rw [hresolution]
            exact List.mem_singleton.mpr rfl
        · refine .inr ⟨_, u, hreturned, hu, ?_, fun hc => absurd hc huncancelled⟩
          rw [resolutionRecords, hresolution, Resolution.records]
          exact List.forall_mem_append.mpr ⟨hwritten, by simpa using hrecorded⟩
      · have hresolution : resolutionOf view order = .unresolved := by
          rw [resolutionOf, if_neg hopen, if_neg hfill]
        rw [if_neg hfill]
        refine .inr ⟨_, _, rfl, hahead.tail, ?_, fun hc => absurd hc huncancelled⟩
        rw [resolutionRecords, hresolution, Resolution.records, List.append_nil]
        exact hwritten
  · rw [hraised]
    refine .inl ⟨e, u, rfl, by simp [hkind], fun _ => ?_⟩
    rcases hu with rfl | rfl
    · exact h.movable
    · exact (h.requested hmoves).movable

theorem freezeEvent_cycleBooks (ticker : String) (breach : MoveBreach) (w : GatewayWorld) :
    (w.ledgered (freezeEvent policy env ticker breach)).cycleBooks = w.cycleBooks :=
  cycleBooks_ledgered (by decide : "MarketFreeze" ≠ "OrderTransitionLedgered") w

theorem releaseEvent_cycleBooks (ticker : String) (w : GatewayWorld) :
    (w.ledgered (returnToScreenerEvent ticker "market_freeze" env.clock)).cycleBooks =
      w.cycleBooks :=
  cycleBooks_ledgered (by decide : "ReturnToScreener" ≠ "OrderTransitionLedgered") w

/-- What a sweep records besides the transitions of orders leaves the orders ahead. -/
theorem noted_cases {orders : List TrackedOrder} {event : Event} (h : Ahead orders w)
    (hbooks : (w.ledgered event).cycleBooks = w.cycleBooks) (counts : SweepCounts) :
    (∃ e u, (do record env.toGatewayEnv event; return counts : GatewayM SweepCounts).run w =
      .error e u ∧ e.kind ≠ .illegalTransition ∧ Movable u) ∨
    ((do record env.toGatewayEnv event; return counts : GatewayM SweepCounts).run w =
      .ok counts (w.ledgered event) ∧ Ahead orders (w.ledgered event) ∧
        env.record event = .written) := by
  rw [EStateM.run_bind, record_run]
  cases hrecord : env.record event with
  | written => exact .inr ⟨rfl, h.of_books (h.kept.ledgered _) hbooks, rfl⟩
  | lost => exact .inl ⟨_, _, rfl, by simp, h.movable⟩
  | writtenThenRaised => exact .inl ⟨_, _, rfl, by simp, h.movable.of_books hbooks⟩

/-- **A plan** raises no illegal transition, and leaves every order movable if it strands nothing. -/
theorem performAll_movable {actions : List SweepAction} (counts : SweepCounts)
    (h : Ahead (resolves actions) w)
    (hmoves : ∀ order ∈ resolves actions, (ledgeredState view.states order).canMove = true) :
    (¬ StopsAt (ActionPasses policy env view) (ActionStrands env view) actions →
      Movable (finalState ((performAll policy env view counts actions).run w))) ∧
    ∀ e u, (performAll policy env view counts actions).run w = .error e u →
      e.kind ≠ .illegalTransition := by
  induction actions generalizing counts w with
  | nil => exact ⟨fun _ => h.movable, fun e u hrun => by cases hrun⟩
  | cons action rest ih =>
      -- an action passes and leaves the orders of the rest ahead, or it raises
      have hone : (∃ e u, (perform policy env view counts action).run w = .error e u ∧
            e.kind ≠ .illegalTransition ∧ (¬ ActionStrands env view action → Movable u)) ∨
          ∃ more u, (perform policy env view counts action).run w = .ok more u ∧
            Ahead (resolves rest) u ∧ ActionPasses policy env view action := by
        cases action with
        | freeze ticker breach =>
            rcases noted_cases h (freezeEvent_cycleBooks ticker breach w) counts with
              ⟨e, u, hraised, hkind, hu⟩ | hreturned
            · exact .inl ⟨e, u, hraised, hkind, fun _ => hu⟩
            · exact .inr ⟨_, _, hreturned⟩
        | resolve order => exact resolveStale_cases h (hmoves order (.head _)) counts
        | release ticker =>
            rcases noted_cases h (releaseEvent_cycleBooks ticker w) counts with
              ⟨e, u, hraised, hkind, hu⟩ | hreturned
            · exact .inl ⟨e, u, hraised, hkind, fun _ => hu⟩
            · exact .inr ⟨_, _, hreturned⟩
      have hlater : ∀ order ∈ resolves rest, (ledgeredState view.states order).canMove = true := by
        intro order horder
        exact hmoves order (mem_resolves.mpr (.tail _ (mem_resolves.mp horder)))
      rw [performAll, EStateM.run_bind]
      rcases hone with ⟨e, u, hraised, hkind, hu⟩ | ⟨more, u, hreturned, hu, hpasses⟩
      · rw [hraised]
        refine ⟨fun hstrands => hu fun hstops => hstrands (.head hstops), fun e' u' hrun => ?_⟩
        cases hrun
        exact hkind
      · rw [hreturned]
        exact (ih more hu hlater).imp_left fun hmovable hstrands =>
          hmovable fun hstops => hstrands (.tail hpasses hstops)

/-- What a sweep sets out to do is ahead of it. -/
theorem ahead_of_plan (hkept : Bookkept w) (hw : Movable w)
    (frozen : OrderedDict String MoveBreach) :
    Ahead (resolves (sweepPlan policy env w frozen)) w := by
  have hall := ahead_of_tracked hkept hw
  refine ⟨hkept, hw, fun order horder => hall.tracked order ?_, resolves_nodup hall.nodup ..⟩
  rw [resolves_sweepPlan] at horder
  rcases List.mem_append.mp horder with hfrozen | hexpired
  · obtain ⟨breach, -, hin⟩ := List.mem_flatMap.mp hfrozen
    exact (List.mem_filter.mp hin).1
  · exact (List.mem_filter.mp hexpired).1

/-- **A sweep** raises no illegal transition while every order can be moved, and leaves every order
movable if it strands nothing. -/
theorem sweepOnce_movable (hkept : Bookkept w) (hw : Movable w) :
    (¬ SweepStrands policy env w → Movable (finalState ((sweepOnce policy env).run w))) ∧
      ∀ e u, (sweepOnce policy env).run w = .error e u → e.kind ≠ .illegalTransition := by
  rcases sweepOnce_cases policy env w with ⟨view, frozen, hplans⟩ | ⟨e, hraised, hkind⟩
  · have hahead : Ahead (resolves (sweepPlan policy env w frozen)) w := ahead_of_plan hkept hw frozen
    have hmoves : ∀ order ∈ resolves (sweepPlan policy env w frozen),
        (ledgeredState view.states order).canMove = true := fun order horder =>
      hw.ledgered hplans.reads.states (hahead.tracked order horder)
    obtain ⟨hmovable, hlegal⟩ := @performAll_movable policy env view w _ ⟨0, 0, 0⟩ hahead hmoves
    have hstops : ¬ SweepStrands policy env w → ¬ StopsAt (ActionPasses policy env view)
        (ActionStrands env view) (sweepPlan policy env w frozen) := fun hstrands hstops =>
      hstrands ⟨view, frozen, hplans, hstops⟩
    rw [sweepOnce_run hw.keyed hplans, EStateM.run_bind]
    cases hrun : (performAll policy env view ⟨0, 0, 0⟩ (sweepPlan policy env w frozen)).run w with
    | ok counts u =>
        rw [hrun] at hmovable
        refine ⟨fun hstrands => hmovable (hstops hstrands), fun e' u' hlast => ?_⟩
        cases hlast
    | error e u =>
        rw [hrun] at hmovable
        refine ⟨fun hstrands => hmovable (hstops hstrands), fun e' u' hlast => ?_⟩
        cases hlast
        exact hlegal e u hrun
  · rw [hraised]
    refine ⟨fun _ => hw, fun e' u' hlast => ?_⟩
    cases hlast
    exact hkind

end Sweep

/-! ## Every run -/

/-- **The steps that strand an order**: a placement that tracks an order and is not recorded, a
recovery that adopts one the ledger has elsewhere, a cycle that records the end of one and stops. -/
inductive Strands (cfg : GatewayConfig) (w : GatewayWorld) : SystemOp → Prop
  | placing {env intent token ack} (h : PlacingStrands cfg env intent token ack w) :
      Strands cfg w (.activity (.call (.processIntent env intent token)))
  | recovering {env} (h : RecoveryStrands cfg env w) :
      Strands cfg w (.activity (.call (.recover env)))
  | reconciling {env} (h : ReconcileStrands env w) : Strands cfg w (.activity (.reconcile env))
  | sweeping {policy env} (h : SweepStrands policy env w) :
      Strands cfg w (.activity (.sweep policy env))

/-- What is fresh is movable: nothing is tracked. -/
theorem fresh_movable (cfg : GatewayConfig) : Movable (.fresh cfg) where
  keyed k order hk := by cases hk
  folds := ⟨.empty, rfl⟩
  moves k order hk := by cases hk

/-- **A step that strands nothing** leaves every order movable. -/
theorem systemStep_movable {cfg : GatewayConfig} {w : GatewayWorld} {op : SystemOp}
    (hkept : Bookkept w) (hw : Movable w) (h : ¬ Strands cfg w op) :
    Movable (systemStep cfg w op).2 := by
  cases op with
  | restart =>
      refine ⟨fun k order hk => ?_, hw.folds, fun k order hk => ?_⟩
      · cases hk
      · cases hk
  | activity activity =>
      cases activity with
      | call call =>
          cases call with
          | processIntent env intent token =>
              rw [systemStep, activityStep, callStep, settle_snd]
              exact processIntent_movable hkept hw fun ack hstrands => h (.placing hstrands)
          | recover env =>
              rw [systemStep, activityStep, callStep, settle_snd]
              exact recover_movable hkept hw fun hstrands => h (.recovering hstrands)
          | venueMoves openOrders => exact hw.of_books rfl
      | reconcile env =>
          rw [systemStep, activityStep, settle_snd]
          exact (runOnce_movable hkept hw).1 fun hstrands => h (.reconciling hstrands)
      | sweep policy env =>
          rw [systemStep, activityStep, settle_snd]
          exact (sweepOnce_movable hkept hw).1 fun hstrands => h (.sweeping hstrands)
      | cancelAll env =>
          rw [systemStep, activityStep, settle_snd]
          have hbooks : Frames GatewayWorld.cycleBooks (cancelAll env) :=
            cancelAll_moves (fun _ _ => rfl) env
          exact hw.of_books (hbooks w)
      | markHalted => exact hw.of_books rfl

/-- **Along a run in which no step strands an order, every tracked order can be moved.** -/
theorem movable_run {cfg : GatewayConfig} {ops : List SystemOp}
    (h : ∀ t ∈ trace (systemStep cfg) (.fresh cfg) ops, ¬ Strands cfg t.pre t.input) :
    Bookkept (run (systemStep cfg) (.fresh cfg) ops) ∧
      Movable (run (systemStep cfg) (.fresh cfg) ops) :=
  run_invariant_of_guard (I := fun w => Bookkept w ∧ Movable w)
    (G := fun t => ¬ Strands cfg t.pre t.input)
    (fun w op hw hstrands =>
      ⟨systemStep_bookkept cfg w op hw.1, systemStep_movable hw.1 hw.2 hstrands⟩)
    ⟨fresh_bookkept cfg, fresh_movable cfg⟩ h

end OrderGateway

end Windbreak
