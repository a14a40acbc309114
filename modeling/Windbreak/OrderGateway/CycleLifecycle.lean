import Windbreak.OrderGateway.CallLifecycle

/-!
# What a cycle records

A cycle reads the ledger once and then works through the tracked orders.  Each order stands where
the cycle read it to stand until the cycle comes to it, because what moves one order moves no other
and each is tracked once.

* **`pending_step`** — one order of a cycle.
* **`runOnce_onePath`, `sweepOnce_onePath`** — a cycle leaves every order on one path.
-/

namespace Windbreak

namespace OrderGateway

open Effects

/-! ## One order after the other -/

/-- Where the cycle read the ledger, the orders it has not come to yet still stand. -/
def Pending (c : String) (states : OrderedDict String OrderState) (orders : List TrackedOrder)
    (w : GatewayWorld) : Prop :=
  OnePath c w ∧ ∀ order ∈ orders, order.clientOrderId = c → StandsAt c (ledgeredState states order) w

theorem Pending.of_subset {c : String} {states : OrderedDict String OrderState}
    {orders orders' : List TrackedOrder} {w : GatewayWorld} (h : Pending c states orders w)
    (hsub : ∀ order ∈ orders', order ∈ orders) : Pending c states orders' w :=
  ⟨h.1, fun order horder => h.2 order (hsub order horder)⟩

theorem Pending.of_history {c : String} {states : OrderedDict String OrderState}
    {orders : List TrackedOrder} {w w' : GatewayWorld} (h : w'.history c = w.history c)
    (hw : Pending c states orders w) : Pending c states orders w' :=
  ⟨hw.1.of_history h, fun order horder hmine => (hw.2 order horder hmine).of_history h⟩

/-- **One order of a cycle**: what moves it moves no other, and it comes only once. -/
theorem pending_step {α : Type} {c : String} {states : OrderedDict String OrderState}
    {order : TrackedOrder} {rest : List TrackedOrder} {m : GatewayM α}
    (hother : order.clientOrderId ≠ c → Frames (GatewayWorld.history c) m)
    (hself : order.clientOrderId = c → Ensures (StandsAt c (ledgeredState states order)) m
      (fun _ => OnePath c) (OnePath c))
    (hnodup : ((order :: rest).map (·.clientOrderId)).Nodup) {w : GatewayWorld}
    (hw : Pending c states (order :: rest) w) : Pending c states rest (finalState (m.run w)) := by
  by_cases hmine : order.clientOrderId = c
  · refine ⟨(hself hmine).finalState (hw.2 order (.head _) hmine), fun later hlater hsame => ?_⟩
    have hagain : order.clientOrderId ∈ rest.map (·.clientOrderId) :=
      List.mem_map.mpr ⟨later, hlater, hsame.trans hmine.symm⟩
    exact absurd hagain (List.nodup_cons.mp hnodup).1
  · exact (hw.of_subset fun later hlater => List.mem_cons_of_mem _ hlater).of_history
      (hother hmine w)

theorem retired_history {c : String} (w : GatewayWorld) (order : TrackedOrder) :
    (retired order w).history c = w.history c := by
  unfold retired retireInflight
  dsimp only
  split
  · split <;> rfl
  · rfl

theorem retireTrackedOrder_history {c : String} (order : TrackedOrder) :
    Frames (GatewayWorld.history c) (retireTrackedOrder order) :=
  Moves.modify fun w => retired_history w order

theorem cancelOrder_history {c : String} (env : CycleEnv) (orderId : String) :
    Frames (GatewayWorld.history c) (cancelOrder env orderId) :=
  cancelOrder_moves (fun _ _ => rfl) env orderId

/-- What leaves the history alone leaves the order where it stands. -/
theorem standsAt_of_history {α : Type} {c : String} {m : GatewayM α}
    (h : Frames (GatewayWorld.history c) m) (state : OrderState) :
    Ensures (StandsAt c state) m (fun _ => StandsAt c state) (OnePath c) :=
  Ensures.of_keeps (h.mono fun _ _ hw hstands => hstands.of_history hw) fun _ hstands =>
    hstands.onePath

/-! ## The reconciler -/

theorem halt_history {c : String} (env : CycleEnv) (reason ticker orderId coid : String) :
    Frames (GatewayWorld.history c) (Reconciler.halt env reason ticker orderId coid) :=
  Moves.bind (record_history (historyOf_gatewayEvent (by decide)) _) fun _ =>
    Moves.bind (Moves.modify fun w => rfl) fun _ => Moves.pure _

theorem healed_history {c : String} (env : CycleEnv) (order : TrackedOrder) :
    Frames (GatewayWorld.history c) (record env.toGatewayEnv (Reconciler.healedEvent order)) :=
  record_history (historyOf_gatewayEvent (by decide)) _

/-- A heal moves its own order, and that by one edge. -/
theorem heal_pending {c : String} (env : CycleEnv) {states : OrderedDict String OrderState}
    {order : TrackedOrder} {rest : List TrackedOrder}
    (hnodup : ((order :: rest).map (·.clientOrderId)).Nodup) {w : GatewayWorld}
    (hw : Pending c states (order :: rest) w) :
    Pending c states rest (finalState ((Reconciler.heal env states order).run w)) := by
  refine pending_step (fun hother => ?_) (fun hself => ?_) hnodup hw
  · exact Moves.bind (applyAndLedger_history hother _ _ _) fun _ =>
      Moves.bind (healed_history env order) fun _ => retireTrackedOrder_history order
  · unfold Reconciler.heal
    rw [hself]
    refine Ensures.bind (applyAndLedger_ensures (by rfl) _ _ c) fun filled => ?_
    refine Ensures.bind (standsAt_of_history (healed_history env order) filled) fun _ => ?_
    exact (standsAt_of_history (retireTrackedOrder_history order) filled).mono (fun _ h => h)
      (fun _ _ h => h.onePath) fun _ h => h

theorem healEach_onePath {c : String} (env : CycleEnv) (openIds : List String) (fills : List Fill)
    (states : OrderedDict String OrderState) (healed : ℕ) {tracked : List TrackedOrder}
    (hnodup : (tracked.map (·.clientOrderId)).Nodup) {w : GatewayWorld}
    (hw : Pending c states tracked w) :
    OnePath c (finalState ((Reconciler.healEach env openIds fills states healed tracked).run w)) := by
  induction tracked generalizing healed w with
  | nil => exact hw.1
  | cons order rest ih =>
      have hrest := (List.nodup_cons.mp hnodup).2
      rw [Reconciler.healEach]
      split
      · exact ih healed hrest (hw.of_subset fun later hlater => List.mem_cons_of_mem _ hlater)
      · split
        · exact hw.1.of_history (halt_history env _ _ _ _ w)
        · have hone := heal_pending env hnodup hw
          rw [EStateM.run_bind]
          cases hrun : (Reconciler.heal env states order).run w with
          | error e u =>
              rw [hrun] at hone
              exact hone.1
          | ok _ u =>
              rw [hrun] at hone
              exact ih (healed + 1) hrest hone

theorem readAll_run (env : CycleEnv) (w : GatewayWorld) :
    (readAll env).run w = if env.ledgerReadRaises = true then
      .error ⟨.ledger, "ledger read failed"⟩ w else .ok w.ledger w := by
  unfold readAll
  rw [EStateM.run_bind, EStateM.run_get]
  cases env.ledgerReadRaises <;> rfl

theorem getOpenOrders_run (env : CycleEnv) (w : GatewayWorld) :
    (getOpenOrders env).run w = if env.openOrdersRaises = true then
      .error ⟨.source, "open orders read failed"⟩ w else .ok w.openOrders w := by
  unfold getOpenOrders
  rw [EStateM.run_bind, EStateM.run_get]
  cases env.openOrdersRaises <;> rfl

/-- Kept books track each order once. -/
theorem Bookkept.tracked_nodup {w : GatewayWorld} (hw : Bookkept w) :
    (w.tracked.values.map (·.clientOrderId)).Nodup := by
  rw [OrderedDict.values, List.map_map]
  refine (List.Nodup.of_map _ w.tracked.keys_nodup).map_on fun p hp q hq hsame => ?_
  have hp' := OrderedDict.mem_items_iff.mp hp
  have hq' := OrderedDict.mem_items_iff.mp hq
  have hkey := hw.once p.1 q.1 p.2 q.2 hp' hq' hsame
  rw [hkey, hq'] at hp'
  exact Prod.ext hkey (Option.some.inj hp').symm

/-- What is tracked stands where the ledger is read to have it. -/
theorem Bookkept.pending {c : String} {w : GatewayWorld} (hw : Bookkept w) (hpath : OnePath c w)
    {states : OrderedDict String OrderState} (hfold : foldLedgerStates w.ledger = .ok states) :
    Pending c states w.tracked.values w := by
  refine ⟨hpath, fun order horder hmine => ?_⟩
  obtain ⟨state, hstands⟩ := hpath
  obtain ⟨k, hk⟩ := OrderedDict.mem_values_iff.mp horder
  have hheard := hw.cached c (hmine ▸ hw.owned k order hk)
  have hget := foldLedgerStates_get? hfold hstands
  rw [if_neg hheard] at hget
  rw [ledgeredState, hmine, hget]
  exact hstands

/-- **A reconcile cycle** leaves every order on one path. -/
theorem runOnce_onePath (env : CycleEnv) {c : String} {w : GatewayWorld} (hw : Bookkept w)
    (hpath : OnePath c w) : OnePath c (finalState ((Reconciler.runOnce env).run w)) := by
  rw [Reconciler.runOnce, EStateM.run_bind, getOpenOrders_run]
  split_ifs
  · exact hpath
  dsimp only
  rw [EStateM.run_bind]
  cases hfills : env.fills with
  | error text => exact hpath
  | ok fills =>
      rw [reading, EStateM.run_pure]
      dsimp only
      rw [EStateM.run_bind, trackedOrders, EStateM.run_bind, EStateM.run_get]
      dsimp only
      rw [EStateM.run_pure]
      dsimp only
      split
      · exact hpath.of_history (halt_history env _ _ _ _ w)
      · rw [EStateM.run_bind, readAll_run]
        split_ifs
        · exact hpath
        dsimp only
        rw [EStateM.run_bind]
        cases hfold : foldLedgerStates w.ledger with
        | error text => exact hpath
        | ok states =>
            exact healEach_onePath env _ fills states 0 hw.tracked_nodup (hw.pending hpath hfold)

/-! ## The sweep -/

theorem requestCancel_ensures (env : CycleEnv) (state : OrderState) (coid : String) :
    Ensures (StandsAt coid state) (Sweeper.requestCancel env state coid) (StandsAt coid)
      (OnePath coid) := by
  unfold Sweeper.requestCancel
  refine Ensures.ite (fun _ => Ensures.pure fun w h => h) fun _ => ?_
  exact applyAndLedger_ensures (by rfl) _ _ coid

/-- Resolving a stale order moves that order, along one path. -/
theorem resolveStale_pending {c : String} (env : CycleEnv) {view : Sweeper.CycleView}
    (counts : Sweeper.SweepCounts) {order : TrackedOrder} {rest : List TrackedOrder}
    (hnodup : ((order :: rest).map (·.clientOrderId)).Nodup) {w : GatewayWorld}
    (hw : Pending c view.states (order :: rest) w) :
    Pending c view.states rest
      (finalState ((Sweeper.resolveStale env view counts order).run w)) := by
  have hretire := retireTrackedOrder_history (c := c) order
  refine pending_step (fun hother => ?_) (fun hself => ?_) hnodup hw
  · have hedge := applyAndLedger_history hother env.toGatewayEnv
    refine Moves.bind (Moves.ite (fun _ => Moves.pure _) fun _ => hedge _ _) fun state => ?_
    refine Moves.ite (fun _ => ?_) fun _ => Moves.ite (fun _ => ?_) fun _ => Moves.pure _
    · exact Moves.bind (cancelOrder_history env _) fun _ => Moves.bind (hedge _ _) fun _ =>
        Moves.bind hretire fun _ => Moves.pure _
    · exact Moves.bind (hedge _ _) fun _ => Moves.bind hretire fun _ => Moves.pure _
  · have hend : ∀ (state : OrderState) (counts : Sweeper.SweepCounts), Ensures (StandsAt c state)
        (do retireTrackedOrder order; return counts : GatewayM Sweeper.SweepCounts)
        (fun _ => OnePath c) (OnePath c) := fun state counts =>
      Ensures.bind (standsAt_of_history hretire state) fun _ => Ensures.pure fun w h => h.onePath
    unfold Sweeper.resolveStale
    rw [hself]
    refine Ensures.bind (requestCancel_ensures env _ c) fun state => ?_
    refine Ensures.ite (fun _ => ?_) fun _ => Ensures.ite (fun _ => ?_) fun _ => ?_
    · refine Ensures.bind (standsAt_of_history (cancelOrder_history env _) state) fun _ => ?_
      exact Ensures.bind (applyAndLedger_ensures (by rfl) _ _ c) fun cancelled => hend cancelled _
    · exact Ensures.bind (applyAndLedger_ensures (by rfl) _ _ c) fun filled => hend filled _
    · exact Ensures.pure fun w h => h.onePath

theorem resolveEach_pending {c : String} (env : CycleEnv) {view : Sweeper.CycleView}
    (counts : Sweeper.SweepCounts) {orders later : List TrackedOrder}
    (hnodup : ((orders ++ later).map (·.clientOrderId)).Nodup) {w : GatewayWorld}
    (hw : Pending c view.states (orders ++ later) w) :
    Pending c view.states later
      (finalState ((Sweeper.resolveEach env view counts orders).run w)) := by
  induction orders generalizing counts w with
  | nil => exact hw
  | cons order rest ih =>
      have hone := resolveStale_pending env counts hnodup hw
      rw [Sweeper.resolveEach, EStateM.run_bind]
      cases hrun : (Sweeper.resolveStale env view counts order).run w with
      | error e u =>
          rw [hrun] at hone
          exact hone.of_subset fun entry hentry => List.mem_append_right _ hentry
      | ok more u =>
          rw [hrun] at hone
          exact ih more (List.nodup_cons.mp hnodup).2 hone

theorem freezeTicker_pending {c : String} (policy : Sweeper.SweepPolicy) (env : CycleEnv)
    {view : Sweeper.CycleView} (tracked : List TrackedOrder) (counts : Sweeper.SweepCounts)
    (ticker : String) (breach : Sweeper.MoveBreach) {later : List TrackedOrder}
    (hnodup : ((tracked.filter (·.ticker == ticker) ++ later).map (·.clientOrderId)).Nodup)
    {w : GatewayWorld}
    (hw : Pending c view.states (tracked.filter (·.ticker == ticker) ++ later) w) :
    Pending c view.states later
      (finalState ((Sweeper.freezeTicker policy env view tracked counts ticker breach).run w)) := by
  have hfreeze : Frames (GatewayWorld.history c)
      (record env.toGatewayEnv (Sweeper.freezeEvent policy env ticker breach)) :=
    record_history (historyOf_gatewayEvent (by decide)) _
  have hreturn : Frames (GatewayWorld.history c)
      (record env.toGatewayEnv (returnToScreenerEvent ticker "market_freeze" env.clock)) :=
    record_history (historyOf_gatewayEvent (by decide)) _
  have hlater : ∀ order ∈ later, order ∈ tracked.filter (·.ticker == ticker) ++ later :=
    fun order horder => List.mem_append_right _ horder
  rw [Sweeper.freezeTicker, EStateM.run_bind]
  cases hstart : (record env.toGatewayEnv (Sweeper.freezeEvent policy env ticker breach)).run w with
  | error e u => exact (hw.of_subset hlater).of_history (hfreeze.of_error hstart)
  | ok _ u =>
      have hu := resolveEach_pending env counts hnodup (hw.of_history (hfreeze.of_ok hstart))
      dsimp only
      rw [EStateM.run_bind]
      cases hrun : (Sweeper.resolveEach env view counts
          (tracked.filter (·.ticker == ticker))).run u with
      | error e v =>
          rw [hrun] at hu
          exact hu
      | ok more v =>
          rw [hrun] at hu
          have hend : Frames (GatewayWorld.history c) (do
              record env.toGatewayEnv (returnToScreenerEvent ticker "market_freeze" env.clock)
              return more : GatewayM Sweeper.SweepCounts) :=
            Moves.bind hreturn fun _ => Moves.pure _
          exact hu.of_history (hend v)

/-- The orders on the tickers of some breaches. -/
def frozenOrders (tracked : List TrackedOrder) (breaches : List (String × Sweeper.MoveBreach)) :
    List TrackedOrder :=
  breaches.flatMap fun breach => tracked.filter (·.ticker == breach.1)

theorem freezeEach_pending {c : String} (policy : Sweeper.SweepPolicy) (env : CycleEnv)
    {view : Sweeper.CycleView} (tracked : List TrackedOrder) (counts : Sweeper.SweepCounts)
    {breaches : List (String × Sweeper.MoveBreach)} {later : List TrackedOrder}
    (hnodup : ((frozenOrders tracked breaches ++ later).map (·.clientOrderId)).Nodup)
    {w : GatewayWorld} (hw : Pending c view.states (frozenOrders tracked breaches ++ later) w) :
    Pending c view.states later
      (finalState ((Sweeper.freezeEach policy env view tracked counts breaches).run w)) := by
  induction breaches generalizing counts w with
  | nil => exact hw
  | cons entry rest ih =>
      obtain ⟨ticker, breach⟩ := entry
      rw [frozenOrders, List.flatMap_cons, List.append_assoc, ← frozenOrders] at hw hnodup
      have hone := freezeTicker_pending policy env tracked counts ticker breach hnodup hw
      have hrest := (List.nodup_append.mp (List.map_append ▸ hnodup)).2.1
      rw [Sweeper.freezeEach, EStateM.run_bind]
      cases hrun : (Sweeper.freezeTicker policy env view tracked counts ticker breach).run w with
      | error e u =>
          rw [hrun] at hone
          exact hone.of_subset fun order horder => List.mem_append_right _ horder
      | ok more u =>
          rw [hrun] at hone
          exact ih more hrest hone

theorem expireEach_onePath {c : String} (policy : Sweeper.SweepPolicy) (env : CycleEnv)
    {view : Sweeper.CycleView} (frozenTickers : List String) (counts : Sweeper.SweepCounts)
    {tracked : List TrackedOrder} (hnodup : (tracked.map (·.clientOrderId)).Nodup)
    {w : GatewayWorld}
    (hw : Pending c view.states (tracked.filter (decide <| ·.ticker ∉ frozenTickers)) w) :
    OnePath c
      (finalState ((Sweeper.expireEach policy env view frozenTickers counts tracked).run w)) := by
  induction tracked generalizing counts w with
  | nil => exact hw.1
  | cons order rest ih =>
      have hrest := (List.nodup_cons.mp hnodup).2
      rw [Sweeper.expireEach]
      by_cases hfrozen : order.ticker ∈ frozenTickers
      · rw [if_pos hfrozen]
        rw [List.filter_cons_of_neg (by simpa using hfrozen)] at hw
        exact ih counts hrest hw
      · rw [if_neg hfrozen, EStateM.run_bind, EStateM.run_get]
        rw [List.filter_cons_of_pos (by simpa using hfrozen)] at hw
        dsimp only
        split
        · have hsub : (order :: rest.filter (decide <| ·.ticker ∉ frozenTickers)).map
              (·.clientOrderId) |>.Nodup :=
            hnodup.sublist ((List.filter_sublist.cons_cons order).map _)
          have hone := resolveStale_pending env counts hsub hw
          rw [EStateM.run_bind]
          cases hrun : (Sweeper.resolveStale env view counts order).run w with
          | error e u =>
              rw [hrun] at hone
              exact hone.1
          | ok more u =>
              rw [hrun] at hone
              exact ih more hrest hone
        · exact ih counts hrest (hw.of_subset fun entry hentry => List.mem_cons_of_mem _ hentry)

/-- A sweep comes to each tracked order at most once. -/
theorem swept_nodup {key : TrackedOrder → String} {tracked : List TrackedOrder}
    (hnodup : (tracked.map key).Nodup) (frozen : OrderedDict String Sweeper.MoveBreach) :
    ((frozenOrders tracked frozen.items ++
      tracked.filter (decide <| ·.ticker ∉ frozen.keys)).map key).Nodup := by
  have htracked := List.Nodup.of_map _ hnodup
  have hmem : ∀ order ∈ frozenOrders tracked frozen.items,
      order ∈ tracked ∧ order.ticker ∈ frozen.keys := by
    intro order horder
    obtain ⟨breach, hbreach, hfiltered⟩ := List.mem_flatMap.mp horder
    obtain ⟨hin, hticker⟩ := List.mem_filter.mp hfiltered
    exact ⟨hin, List.mem_map.mpr ⟨breach, hbreach, (beq_iff_eq.mp hticker).symm⟩⟩
  refine List.Nodup.map_on ?_ ?_
  · intro order horder order' horder' hsame
    have hin : ∀ entry ∈ frozenOrders tracked frozen.items ++
        tracked.filter (decide <| ·.ticker ∉ frozen.keys), entry ∈ tracked := by
      intro entry hentry
      rcases List.mem_append.mp hentry with hfrozen | hother
      · exact (hmem entry hfrozen).1
      · exact (List.mem_filter.mp hother).1
    exact List.inj_on_of_nodup_map hnodup (hin order horder) (hin order' horder') hsame
  · refine List.Nodup.append ?_ (htracked.filter _) ?_
    · rw [frozenOrders, List.nodup_flatMap]
      refine ⟨fun breach _ => htracked.filter _, ?_⟩
      refine (List.pairwise_map.mp frozen.keys_nodup).imp fun {p q} hne order hp hq => ?_
      have hticker := beq_iff_eq.mp (List.mem_filter.mp hp).2
      have hticker' := beq_iff_eq.mp (List.mem_filter.mp hq).2
      exact hne (hticker.symm.trans hticker')
    · intro order hfrozen hother
      exact (of_decide_eq_true (List.mem_filter.mp hother).2) (hmem order hfrozen).2

/-- **A sweep** leaves every order on one path. -/
theorem sweepOnce_onePath (policy : Sweeper.SweepPolicy) (env : CycleEnv) {c : String}
    {w : GatewayWorld} (hw : Bookkept w) (hpath : OnePath c w) :
    OnePath c (finalState ((Sweeper.sweepOnce policy env).run w)) := by
  rw [Sweeper.sweepOnce, EStateM.run_bind, Sweeper.readCycle, EStateM.run_bind, readAll_run]
  split_ifs
  · exact hpath
  dsimp only
  rw [EStateM.run_bind]
  cases hfold : foldLedgerStates w.ledger with
  | error text => exact hpath
  | ok states =>
    rw [reading, EStateM.run_pure]
    dsimp only
    rw [EStateM.run_bind, getOpenOrders_run]
    split_ifs
    · exact hpath
    dsimp only
    rw [EStateM.run_bind]
    cases hfills : env.fills with
    | error text => exact hpath
    | ok fills =>
      rw [reading, EStateM.run_pure]
      dsimp only
      rw [EStateM.run_pure]
      dsimp only
      rw [EStateM.run_bind, trackedOrders, EStateM.run_bind, EStateM.run_get]
      dsimp only
      rw [EStateM.run_pure]
      dsimp only
      rw [EStateM.run_bind, EStateM.run_get]
      dsimp only
      rw [EStateM.run_bind]
      cases hfrozen : Sweeper.detectFrozen policy env w.restingMeta .empty w.tracked.values with
      | error text => exact hpath
      | ok frozen =>
        have hnodup := swept_nodup hw.tracked_nodup frozen
        let view : Sweeper.CycleView := ⟨states, w.openOrders.map (·.id), fills⟩
        have hpending : Pending c view.states (frozenOrders w.tracked.values frozen.items ++
            w.tracked.values.filter (decide <| ·.ticker ∉ frozen.keys)) w := by
          refine (hw.pending hpath hfold).of_subset fun order horder => ?_
          rcases List.mem_append.mp horder with hfiltered | hfiltered
          · obtain ⟨breach, -, hin⟩ := List.mem_flatMap.mp hfiltered
            exact (List.mem_filter.mp hin).1
          · exact (List.mem_filter.mp hfiltered).1
        have hfroze := freezeEach_pending policy env w.tracked.values ⟨0, 0, 0⟩ hnodup hpending
        rw [reading, EStateM.run_pure]
        dsimp only
        rw [EStateM.run_bind]
        cases hrun : (Sweeper.freezeEach policy env view w.tracked.values ⟨0, 0, 0⟩
            frozen.items).run w with
        | error e u =>
          rw [hrun] at hfroze
          exact hfroze.1
        | ok counts u =>
          rw [hrun] at hfroze
          have hexpired := expireEach_onePath policy env frozen.keys counts hw.tracked_nodup hfroze
          dsimp only
          rw [EStateM.run_bind]
          cases hlast : (Sweeper.expireEach policy env view frozen.keys counts
              w.tracked.values).run u with
          | error e v => simpa [hlast] using hexpired
          | ok counts v => simpa [hlast] using hexpired

end OrderGateway

end Windbreak
