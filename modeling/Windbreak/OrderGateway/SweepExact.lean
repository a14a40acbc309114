import Windbreak.OrderGateway.MovableCycles

/-!
# What a sweep leaves

A sweep whose collaborators all answer carries out its plan.  So what it leaves can be read off the
orders it came to: each is one that was due, and comes once.

* **`Due`** — the orders a sweep comes to: on a ticker whose market moved, or too old.
* **`sweep_exact`** — a sweep ends the due orders that rest or show a new fill, each of them once,
  leaves the other due ones waiting, and touches nothing else.
-/

namespace Windbreak

namespace OrderGateway

open Machine Effects Sweeper

/-! ## The orders that are due -/

/-- The market moved beyond the threshold since an order was placed. -/
def Breaches (policy : SweepPolicy) (env : CycleEnv) (noted : OrderedDict String RestingOrderMeta)
    (order : TrackedOrder) : Prop :=
  ∃ breach, moveBreach policy env (noted.get? order.orderId) order = .ok (some breach)

/-- An order is on a ticker whose market moved, or it is too old. -/
def Due (policy : SweepPolicy) (env : CycleEnv) (w : GatewayWorld) (order : TrackedOrder) : Prop :=
  (∃ other ∈ w.tracked.values, other.ticker = order.ticker ∧
    Breaches policy env w.restingMeta other) ∨
  isTtlStale policy env (w.restingMeta.get? order.orderId) = true

section Plan

variable {policy : SweepPolicy} {env : CycleEnv} {view : CycleView} {w : GatewayWorld}

/-- **A ticker is frozen** exactly when a tracked order on it breaches. -/
theorem detectFrozen_keys {noted : OrderedDict String RestingOrderMeta}
    {frozen frozen' : OrderedDict String MoveBreach} {tracked : List TrackedOrder}
    (h : detectFrozen policy env noted frozen tracked = .ok frozen') (ticker : String) :
    ticker ∈ frozen'.keys ↔ ticker ∈ frozen.keys ∨
      ∃ order ∈ tracked, order.ticker = ticker ∧ Breaches policy env noted order := by
  induction tracked generalizing frozen with
  | nil =>
      cases h
      simp
  | cons order rest ih =>
      rw [detectFrozen] at h
      by_cases hfrozen : order.ticker ∈ frozen.keys
      · rw [if_pos hfrozen] at h
        rw [ih h]
        constructor
        · rintro (hold | ⟨other, hother, hbreach⟩)
          · exact .inl hold
          · exact .inr ⟨other, .tail _ hother, hbreach⟩
        · rintro (hold | ⟨other, hother, rfl, hbreach⟩)
          · exact .inl hold
          · rcases List.mem_cons.mp hother with rfl | hlater
            · exact .inl hfrozen
            · exact .inr ⟨other, hlater, rfl, hbreach⟩
      · rw [if_neg hfrozen] at h
        obtain ⟨found, hfound, hrest⟩ := except_bind_ok.mp h
        cases found with
        | none =>
            have hnot : ¬ Breaches policy env noted order := by
              rintro ⟨breach, hbreach⟩
              rw [hbreach] at hfound
              cases hfound
            rw [ih hrest]
            constructor
            · rintro (hold | ⟨other, hother, hbreach⟩)
              · exact .inl hold
              · exact .inr ⟨other, .tail _ hother, hbreach⟩
            · rintro (hold | ⟨other, hother, hticker, hbreach⟩)
              · exact .inl hold
              · rcases List.mem_cons.mp hother with rfl | hlater
                · exact absurd hbreach hnot
                · exact .inr ⟨other, hlater, hticker, hbreach⟩
        | some breach =>
            rw [ih hrest, OrderedDict.mem_keys_set]
            constructor
            · rintro ((rfl | hold) | ⟨other, hother, hbreach⟩)
              · exact .inr ⟨order, .head _, rfl, breach, hfound⟩
              · exact .inl hold
              · exact .inr ⟨other, .tail _ hother, hbreach⟩
            · rintro (hold | ⟨other, hother, rfl, hbreach⟩)
              · exact .inl (.inr hold)
              · rcases List.mem_cons.mp hother with rfl | hlater
                · exact .inl (.inl rfl)
                · exact .inr ⟨other, hlater, rfl, hbreach⟩

/-- **A sweep comes to the tracked orders that are due**, and to no others. -/
theorem mem_resolves_sweepPlan {frozen : OrderedDict String MoveBreach}
    (h : detectFrozen policy env w.restingMeta .empty w.tracked.values = .ok frozen)
    {order : TrackedOrder} :
    order ∈ resolves (sweepPlan policy env w frozen) ↔
      order ∈ w.tracked.values ∧ Due policy env w order := by
  have hkeys : order.ticker ∈ frozen.keys ↔ ∃ other ∈ w.tracked.values,
      other.ticker = order.ticker ∧ Breaches policy env w.restingMeta other := by
    rw [detectFrozen_keys h]
    simp
  have hfrozen : order ∈ frozenOrders w.tracked.values frozen.items ↔
      order ∈ w.tracked.values ∧ order.ticker ∈ frozen.keys := by
    constructor
    · intro hin
      obtain ⟨breach, hbreach, hfiltered⟩ := List.mem_flatMap.mp hin
      obtain ⟨hmem, hticker⟩ := List.mem_filter.mp hfiltered
      exact ⟨hmem, List.mem_map.mpr ⟨breach, hbreach, (beq_iff_eq.mp hticker).symm⟩⟩
    · rintro ⟨hmem, hticker⟩
      obtain ⟨breach, hbreach, hsame⟩ := List.mem_map.mp hticker
      exact List.mem_flatMap.mpr ⟨breach, hbreach,
        List.mem_filter.mpr ⟨hmem, beq_iff_eq.mpr hsame.symm⟩⟩
  rw [resolves_sweepPlan, List.mem_append, hfrozen, List.mem_filter, isExpired,
    Bool.and_eq_true, decide_eq_true_eq, hkeys, Due]
  generalize (∃ other ∈ w.tracked.values, other.ticker = order.ticker ∧
    Breaches policy env w.restingMeta other) = moved
  tauto

end Plan

/-! ## What resolving one order leaves -/

namespace Sweeper

/-- An order that a sweep comes to and ends. -/
def Ends (view : CycleView) (order : TrackedOrder) : Bool :=
  decide (resolutionOf view order ≠ .unresolved)

section Resolved

variable (view : CycleView) (order : TrackedOrder) (w : GatewayWorld)

theorem ends_iff : Ends view order = true ↔
    order.orderId ∈ view.openIds ∨ 0 < newFillCentis view.fills order := by
  unfold Ends resolutionOf
  rw [decide_eq_true_eq]
  split_ifs with hopen hfill
  · simp [hopen]
  · simp [hfill]
  · simp [hopen, hfill]

theorem retired_restingMeta : (retired order w).restingMeta = w.restingMeta.pop order.orderId := by
  unfold retired retireInflight
  dsimp only
  split
  · split <;> rfl
  · rfl

theorem retired_openOrders : (retired order w).openOrders = w.openOrders := by
  unfold retired retireInflight
  dsimp only
  split
  · split <;> rfl
  · rfl

theorem resolved_tracked : (resolved view order w).tracked =
    if Ends view order then w.tracked.pop order.orderId else w.tracked := by
  unfold resolved Ends
  cases resolutionOf view order with
  | cancelled => exact retired_tracked ..
  | filled => exact retired_tracked ..
  | unresolved => rfl

theorem resolved_restingMeta : (resolved view order w).restingMeta =
    if Ends view order then w.restingMeta.pop order.orderId else w.restingMeta := by
  unfold resolved Ends
  cases resolutionOf view order with
  | cancelled => exact retired_restingMeta ..
  | filled => exact retired_restingMeta ..
  | unresolved => rfl

theorem resolved_openOrders : (resolved view order w).openOrders =
    if order.orderId ∈ view.openIds then w.openOrders.filter (·.id != order.orderId)
    else w.openOrders := by
  unfold resolved
  by_cases hopen : order.orderId ∈ view.openIds
  · have hresolution : resolutionOf view order = .cancelled := if_pos hopen
    rw [hresolution, if_pos hopen]
    exact retired_openOrders ..
  · rw [if_neg hopen, resolutionOf, if_neg hopen]
    split
    · exact retired_openOrders ..
    · rfl

theorem resolved_inflight (ticker : String) : inflightFor (resolved view order w) ticker =
    if Ends view order = true ∧ isClosingAction order.action = true ∧ ticker = order.ticker then
      max (inflightFor w ticker - order.sizeCentis) 0
    else inflightFor w ticker := by
  have hsame : ∀ u : GatewayWorld, inflightFor u ticker = inflightFor w ticker →
      inflightFor (retired order u) ticker =
        if isClosingAction order.action = true ∧ ticker = order.ticker then
          max (inflightFor w ticker - order.sizeCentis) 0
        else inflightFor w ticker := fun u hu => by
    rw [inflightFor_retired, hu]
  unfold resolved Ends
  cases resolutionOf view order with
  | cancelled =>
      simp only [ne_eq, reduceCtorEq, not_false_eq_true, decide_true, true_and]
      exact hsame _ rfl
  | filled =>
      simp only [ne_eq, reduceCtorEq, not_false_eq_true, decide_true, true_and]
      exact hsame _ rfl
  | unresolved => rfl

theorem historyOf_requestRecords {c : String} :
    historyOf c (requestRecords view order) =
      if order.clientOrderId = c then requestRecords view order else [] := by
  unfold requestRecords
  split
  · simp [historyOf]
  · by_cases hmine : order.clientOrderId = c
    · subst hmine
      rw [if_pos rfl, historyOf_edgeEvent]
    · rw [if_neg hmine, historyOf_edgeEvent_other hmine]

theorem historyOf_resolutionRecords {c : String} :
    historyOf c (resolutionRecords view order) =
      if order.clientOrderId = c then resolutionRecords view order else [] := by
  have hrecords : historyOf c ((resolutionOf view order).records order.clientOrderId) =
      if order.clientOrderId = c then (resolutionOf view order).records order.clientOrderId
      else [] := by
    by_cases hmine : order.clientOrderId = c
    · subst hmine
      rw [if_pos rfl]
      cases resolutionOf view order with
      | cancelled => exact historyOf_edgeEvent ..
      | filled => exact historyOf_edgeEvent ..
      | unresolved => rfl
    · rw [if_neg hmine]
      cases resolutionOf view order with
      | cancelled => exact historyOf_edgeEvent_other hmine ..
      | filled => exact historyOf_edgeEvent_other hmine ..
      | unresolved => rfl
  rw [resolutionRecords, historyOf_append, historyOf_requestRecords, hrecords]
  split <;> simp

theorem resolved_history (c : String) : (resolved view order w).history c =
    w.history c ++ if order.clientOrderId = c then resolutionRecords view order else [] := by
  have hledger : (resolved view order w).history c =
      (w.ledgeredAll (resolutionRecords view order)).history c := by
    unfold resolved
    cases resolutionOf view order with
    | cancelled => exact retired_history ..
    | filled => exact retired_history ..
    | unresolved => rfl
  rw [hledger, GatewayWorld.history, GatewayWorld.ledgeredAll_ledger, historyOf_append,
    historyOf_resolutionRecords]

end Resolved

/-! ## What a plan leaves -/

/-- The closes in flight once closes of some sizes are retired in turn. -/
def inflightAfter (inflight : ℤ) (sizes : List ℤ) : ℤ :=
  sizes.foldl (fun left size => max (left - size) 0) inflight

/-- An order whose end gives back headroom on a ticker. -/
def freesOn (ticker : String) (order : TrackedOrder) : Bool :=
  isClosingAction order.action && order.ticker == ticker

section Performed

variable {policy : SweepPolicy} {env : CycleEnv} {view : CycleView} (actions : List SweepAction)
  (w : GatewayWorld)

/-- An action that resolves nothing changes nothing that is read of the orders. -/
theorem performed_eq {τ : Type} {f : GatewayWorld → τ}
    (hledger : ∀ w eventType payload, eventType ≠ "OrderTransitionLedgered" →
      f (w.ledgered (gatewayEvent eventType payload)) = f w) {action : SweepAction}
    (h : action.order? = none) (w : GatewayWorld) : f (performed policy env view w action) = f w := by
  cases action with
  | freeze ticker breach => exact hledger w _ _ (by decide)
  | resolve order => cases h
  | release ticker => exact hledger w _ _ (by decide)

/-- What is read of the orders after a plan is what is read after it has come to each order. -/
theorem foldl_performed {τ : Type} (f : GatewayWorld → τ) (step : τ → TrackedOrder → τ)
    (hledger : ∀ w eventType payload, eventType ≠ "OrderTransitionLedgered" →
      f (w.ledgered (gatewayEvent eventType payload)) = f w)
    (hstep : ∀ order w, f (resolved view order w) = step (f w) order) :
    f (actions.foldl (performed policy env view) w) = (resolves actions).foldl step (f w) := by
  induction actions generalizing w with
  | nil => rfl
  | cons action rest ih =>
      rw [List.foldl_cons, ih]
      cases action with
      | resolve order =>
          show (resolves rest).foldl step (f (resolved view order w)) =
            (resolves rest).foldl step (step (f w) order)
          rw [hstep]
      | freeze ticker breach => rw [performed_eq hledger rfl]; rfl
      | release ticker => rw [performed_eq hledger rfl]; rfl

/-- A dictionary once the keys of the orders that end are removed. -/
theorem foldl_pop {ν : Type} (d : OrderedDict String ν) (orders : List TrackedOrder) (k : String) :
    (orders.foldl (fun d order => if Ends view order then d.pop order.orderId else d) d).get? k =
      if k ∈ (orders.filter (Ends view)).map (·.orderId) then none else d.get? k := by
  induction orders generalizing d with
  | nil => rfl
  | cons order rest ih =>
      rw [List.foldl_cons, ih]
      by_cases hends : Ends view order = true
      · rw [if_pos hends, List.filter_cons_of_pos hends, List.map_cons, OrderedDict.get?_pop]
        by_cases hlater : k ∈ (rest.filter (Ends view)).map (·.orderId)
        · rw [if_pos hlater, if_pos (List.mem_cons_of_mem _ hlater)]
        · rw [if_neg hlater]
          by_cases hmine : k = order.orderId
          · rw [if_pos hmine, if_pos (List.mem_cons.mpr (.inl hmine))]
          · rw [if_neg hmine, if_neg fun hin => (List.mem_cons.mp hin).elim hmine hlater]
      · rw [if_neg hends, List.filter_cons_of_neg hends]

theorem performed_tracked (k : String) :
    (actions.foldl (performed policy env view) w).tracked.get? k =
      if k ∈ ((resolves actions).filter (Ends view)).map (·.orderId) then none
      else w.tracked.get? k := by
  rw [← foldl_pop, foldl_performed actions w GatewayWorld.tracked
    (fun d order => if Ends view order then d.pop order.orderId else d) (fun _ _ _ _ => rfl)
      (resolved_tracked view)]

theorem performed_restingMeta (k : String) :
    (actions.foldl (performed policy env view) w).restingMeta.get? k =
      if k ∈ ((resolves actions).filter (Ends view)).map (·.orderId) then none
      else w.restingMeta.get? k := by
  rw [← foldl_pop, foldl_performed actions w GatewayWorld.restingMeta
    (fun d order => if Ends view order then d.pop order.orderId else d) (fun _ _ _ _ => rfl)
      (resolved_restingMeta view)]

/-- What rests once the resting ones of some orders are cancelled. -/
theorem foldl_withoutOrder {openOrders : List OpenOrder}
    (h : ∀ entry ∈ openOrders, entry.id ∈ view.openIds) (orders : List TrackedOrder) :
    orders.foldl (fun openOrders order => if order.orderId ∈ view.openIds then
        openOrders.filter (·.id != order.orderId) else openOrders) openOrders =
      openOrders.filter fun entry =>
        decide (entry.id ∉ (orders.filter (Ends view)).map (·.orderId)) := by
  induction orders generalizing openOrders with
  | nil => simp
  | cons order rest ih =>
      rw [List.foldl_cons]
      by_cases hopen : order.orderId ∈ view.openIds
      · have hends : Ends view order = true := (ends_iff view order).mpr (.inl hopen)
        rw [if_pos hopen, ih fun entry hentry => h entry (List.mem_filter.mp hentry).1,
          List.filter_filter, List.filter_cons_of_pos hends]
        refine List.filter_congr fun entry _ => ?_
        rw [List.map_cons]
        by_cases hmine : entry.id = order.orderId
        · simp [hmine]
        · simp [hmine]
      · rw [if_neg hopen, ih h]
        refine List.filter_congr fun entry hentry => ?_
        have hne : entry.id ≠ order.orderId := fun hsame => hopen (hsame ▸ h entry hentry)
        by_cases hends : Ends view order = true
        · rw [List.filter_cons_of_pos hends, List.map_cons]
          simp [hne]
        · rw [List.filter_cons_of_neg hends]

theorem performed_openOrders (h : view.openIds = w.openOrders.map (·.id)) :
    (actions.foldl (performed policy env view) w).openOrders = w.openOrders.filter fun entry =>
      decide (entry.id ∉ ((resolves actions).filter (Ends view)).map (·.orderId)) := by
  have hlisted : ∀ entry ∈ w.openOrders, entry.id ∈ view.openIds := fun entry hentry => by
    rw [h]
    exact List.mem_map_of_mem hentry
  rw [← foldl_withoutOrder hlisted, foldl_performed actions w GatewayWorld.openOrders
    (fun openOrders order => if order.orderId ∈ view.openIds then
      openOrders.filter (·.id != order.orderId) else openOrders) (fun _ _ _ _ => rfl)
      (resolved_openOrders view)]

theorem performed_inflight (ticker : String) :
    inflightFor (actions.foldl (performed policy env view) w) ticker =
      inflightAfter (inflightFor w ticker) ((((resolves actions).filter (Ends view)).filter
        (freesOn ticker)).map (·.sizeCentis)) := by
  refine (foldl_performed actions w (fun w => inflightFor w ticker)
    (fun inflight order => if Ends view order = true ∧ isClosingAction order.action = true ∧
      ticker = order.ticker then max (inflight - order.sizeCentis) 0 else inflight)
    (fun _ _ _ _ => rfl) (fun order w => resolved_inflight view order w ticker)).trans ?_
  generalize inflightFor w ticker = inflight
  induction resolves actions generalizing inflight with
  | nil => rfl
  | cons order rest ih =>
      rw [List.foldl_cons, ih]
      by_cases hends : Ends view order = true
      · rw [List.filter_cons_of_pos hends]
        by_cases hfrees : freesOn ticker order = true
        · have hcond : isClosingAction order.action = true ∧ ticker = order.ticker := by
            rw [freesOn, Bool.and_eq_true, beq_iff_eq] at hfrees
            exact ⟨hfrees.1, hfrees.2.symm⟩
          rw [if_pos ⟨hends, hcond⟩, List.filter_cons_of_pos hfrees]
          rfl
        · have hcond : ¬ (Ends view order = true ∧ isClosingAction order.action = true ∧
              ticker = order.ticker) := by
            rintro ⟨-, hclosing, hticker⟩
            rw [freesOn, hclosing, Bool.true_and, beq_iff_eq] at hfrees
            exact hfrees hticker.symm
          rw [if_neg hcond, List.filter_cons_of_neg hfrees]
      · rw [if_neg fun h => hends h.1, List.filter_cons_of_neg hends]

theorem performed_history (c : String) :
    (actions.foldl (performed policy env view) w).history c = w.history c ++
      ((resolves actions).filter (·.clientOrderId == c)).flatMap (resolutionRecords view) := by
  refine (foldl_performed actions w (GatewayWorld.history c)
    (fun history order => history ++ if order.clientOrderId = c then resolutionRecords view order
      else []) (fun w eventType payload h => history_ledgered (historyOf_gatewayEvent h) w)
    (fun order w => resolved_history view order w c)).trans ?_
  generalize w.history c = history
  induction resolves actions generalizing history with
  | nil => simp
  | cons order rest ih =>
      rw [List.foldl_cons, ih]
      by_cases hmine : order.clientOrderId = c
      · rw [if_pos hmine, List.filter_cons_of_pos (by simp [hmine]), List.flatMap_cons,
          List.append_assoc]
      · rw [if_neg hmine, List.filter_cons_of_neg (by simp [hmine]), List.append_nil]

end Performed

end Sweeper

/-! ## A whole sweep -/

/-- **What a sweep leaves** that ended some orders. -/
structure Swept (policy : SweepPolicy) (env : CycleEnv) (view : CycleView)
    (ended : List TrackedOrder) (w w' : GatewayWorld) : Prop where
  once : (ended.map (·.clientOrderId)).Nodup
  /-- The due orders that rest or show a new fill are ended, and no others. -/
  exactly : ∀ order, order ∈ ended ↔ order ∈ w.tracked.values ∧ Due policy env w order ∧
    (order.orderId ∈ w.openOrders.map (·.id) ∨ 0 < newFillCentis view.fills order)
  cancelled : ∀ order ∈ ended, order.orderId ∈ w.openOrders.map (·.id) →
    w'.history order.clientOrderId = w.history order.clientOrderId ++ requestRecords view order ++
      [edgeEvent order.clientOrderId .CANCEL_REQUESTED .CANCEL .CANCELLED]
  filled : ∀ order ∈ ended, order.orderId ∉ w.openOrders.map (·.id) →
    w'.history order.clientOrderId = w.history order.clientOrderId ++ requestRecords view order ++
      [edgeEvent order.clientOrderId .CANCEL_REQUESTED .FILL .FILLED]
  /-- A due order that is gone without a new fill has its cancel requested, and waits. -/
  waiting : ∀ order ∈ w.tracked.values, Due policy env w order → order ∉ ended →
    w'.history order.clientOrderId = w.history order.clientOrderId ++ requestRecords view order
  untouched : ∀ c, (∀ order ∈ w.tracked.values, order.clientOrderId = c →
    ¬ Due policy env w order) → w'.history c = w.history c
  tracked : ∀ k, w'.tracked.get? k =
    if k ∈ ended.map (·.orderId) then none else w.tracked.get? k
  noted : ∀ k, w'.restingMeta.get? k =
    if k ∈ ended.map (·.orderId) then none else w.restingMeta.get? k
  venue : w'.openOrders =
    w.openOrders.filter fun entry => decide (entry.id ∉ ended.map (·.orderId))
  headroom : ∀ ticker, inflightFor w' ticker = inflightAfter (inflightFor w ticker)
    ((ended.filter (freesOn ticker)).map (·.sizeCentis))

theorem filter_eq_singleton {key : TrackedOrder → String} {orders : List TrackedOrder}
    (hnodup : (orders.map key).Nodup) {order : TrackedOrder} (horder : order ∈ orders) :
    orders.filter (key · == key order) = [order] := by
  induction orders with
  | nil => cases horder
  | cons entry rest ih =>
      obtain ⟨hfresh, hrest⟩ := List.nodup_cons.mp hnodup
      rcases List.mem_cons.mp horder with rfl | hlater
      · have hnone : rest.filter (key · == key order) = [] := by
          refine List.filter_eq_nil_iff.mpr fun other hother hsame => hfresh ?_
          exact List.mem_map.mpr ⟨other, hother, beq_iff_eq.mp hsame⟩
        rw [List.filter_cons_of_pos (by simp), hnone]
      · have hne : ¬ (key entry == key order) = true := fun hsame =>
          hfresh (List.mem_map.mpr ⟨order, hlater, (beq_iff_eq.mp hsame).symm⟩)
        rw [List.filter_cons, if_neg hne, ih hrest hlater]

/-- **A sweep whose collaborators all answer**, from where every tracked order can be moved, ends the
due orders it can. -/
theorem sweepOnce_swept {policy : SweepPolicy} {env : CycleEnv} (hanswers : Answers env)
    {w : GatewayWorld} (hkept : Bookkept w) (hw : Movable w) :
    ∃ view outcome ended w', ReadsCycle env w view ∧
      (sweepOnce policy env).run w = .ok outcome w' ∧ Swept policy env view ended w w' := by
  obtain ⟨states, hfold⟩ := hw.folds
  obtain ⟨view, frozen, hplans, -⟩ := @plans_of_answers policy env hanswers w states hfold
  let actions := sweepPlan policy env w frozen
  have hahead : Ahead (resolves actions) w := ahead_of_plan hkept hw frozen
  have hmoves : ∀ order, .resolve order ∈ actions →
      (ledgeredState view.states order).canMove = true := fun order horder =>
    hw.ledgered hplans.reads.states (hahead.tracked order (mem_resolves.mpr horder))
  have hdue : ∀ order, order ∈ resolves actions ↔
      order ∈ w.tracked.values ∧ Due policy env w order := fun order =>
    mem_resolves_sweepPlan hplans.frozen
  have hnodup : ((resolves actions).map (·.clientOrderId)).Nodup :=
    resolves_nodup hkept.tracked_nodup policy env frozen
  let ended := (resolves actions).filter (Ends view)
  have hended : ∀ order, order ∈ ended ↔ order ∈ resolves actions ∧
      (order.orderId ∈ w.openOrders.map (·.id) ∨ 0 < newFillCentis view.fills order) := by
    intro order
    rw [List.mem_filter, ends_iff, hplans.reads.openIds]
  have hhistory : ∀ order ∈ resolves actions,
      (actions.foldl (performed policy env view) w).history order.clientOrderId =
        w.history order.clientOrderId ++ resolutionRecords view order := by
    intro order horder
    rw [performed_history, filter_eq_singleton hnodup horder, List.flatMap_singleton]
  refine ⟨view, ⟨actions.foldl (SweepAction.tally view) ⟨0, 0, 0⟩, frozen.keys⟩, ended,
    actions.foldl (performed policy env view) w, hplans.reads, ?_, ?_⟩
  · rw [sweepOnce_run hw.keyed hplans, EStateM.run_bind,
      performAll_answered hanswers ⟨0, 0, 0⟩ hmoves]
    rfl
  refine ⟨hnodup.sublist (List.filter_sublist.map _), fun order => ?_, fun order horder hopen => ?_,
    fun order horder hgone => ?_, fun order horder hmine hnot => ?_, fun c hnone => ?_,
    performed_tracked actions w, performed_restingMeta actions w,
    performed_openOrders actions w hplans.reads.openIds, performed_inflight actions w⟩
  · rw [hended, hdue, and_assoc]
  · rw [hhistory order ((hended order).mp horder).1, resolutionRecords, resolutionOf,
      hplans.reads.openIds, if_pos hopen, List.append_assoc]
    rfl
  · have hfill := (((hended order).mp horder).2.resolve_left hgone)
    rw [hhistory order ((hended order).mp horder).1, resolutionRecords, resolutionOf,
      hplans.reads.openIds, if_neg hgone, if_pos hfill, List.append_assoc]
    rfl
  · have hcome := (hdue order).mpr ⟨horder, hmine⟩
    have hleft : ¬ (order.orderId ∈ w.openOrders.map (·.id) ∨
        0 < newFillCentis view.fills order) := fun hends => hnot ((hended order).mpr ⟨hcome, hends⟩)
    rw [not_or] at hleft
    rw [hhistory order hcome, resolutionRecords, resolutionOf, hplans.reads.openIds,
      if_neg hleft.1, if_neg hleft.2, Resolution.records, List.append_nil]
  · have hnothing : (resolves actions).filter (·.clientOrderId == c) = [] := by
      refine List.filter_eq_nil_iff.mpr fun order horder hmine => ?_
      obtain ⟨htracked, hdueOrder⟩ := (hdue order).mp horder
      exact hnone order htracked (beq_iff_eq.mp hmine) hdueOrder
    rw [performed_history, hnothing, List.flatMap_nil, List.append_nil]

/-- **Along a run in which no step strands an order, every sweep whose collaborators answer** ends
exactly the due orders that rest or show a new fill, each once, and leaves all others alone. -/
theorem sweep_exact (cfg : GatewayConfig) (ops : List SystemOp)
    (h : ∀ t ∈ trace (systemStep cfg) (.fresh cfg) ops, ¬ Strands cfg t.pre t.input)
    (policy : SweepPolicy) (env : CycleEnv) (hanswers : Answers env) :
    ∃ view outcome ended w',
      ReadsCycle env (run (systemStep cfg) (.fresh cfg) ops) view ∧
      (sweepOnce policy env).run (run (systemStep cfg) (.fresh cfg) ops) = .ok outcome w' ∧
      Swept policy env view ended (run (systemStep cfg) (.fresh cfg) ops) w' := by
  obtain ⟨hkept, hmovable⟩ := movable_run h
  exact sweepOnce_swept hanswers hkept hmovable

/-! ## A sample sweep -/

/-- Every collaborator answers, the books are empty, and nothing has filled. -/
def quietCycle : CycleEnv where
  toGatewayEnv := quietEnv
  fills := .ok []
  priceTickPips := fun _ => .ok 100
  orderBook := fun ticker => .ok ⟨ticker, [], [], 1700000000⟩
  cancel := fun _ => .cancelled

theorem quietCycle_answers : Answers quietCycle where
  ledgerReadable := rfl
  ordersReadable := rfl
  fills := ⟨[], rfl⟩
  books ticker := ⟨⟨ticker, [], [], 1700000000⟩, rfl⟩
  ticks _ := ⟨100, rfl⟩
  cancelled _ := rfl
  recorded _ := rfl

def sampleResting : OpenOrder := ⟨"order-1", "PRES-2028-DEM", "yes", sampleIntent.price⟩

/-- The venue takes the order of an approval, and then these rest. -/
def oneTaken (openOrders : List OpenOrder) : List SystemOp :=
  [.activity (.call (.recover quietEnv)),
    .activity (.call (present sampleGateway
      { quietEnv with placement := .acknowledged ⟨some "order-1", ⟨0⟩⟩ } 1)),
    .activity (.call (.venueMoves openOrders))]

/-- A call whose records are all written strands nothing. -/
theorem written_strands_nothing {cfg : GatewayConfig} {env : GatewayEnv} {intent : OrderIntent}
    {token : SignedApprovalToken} {w : GatewayWorld} (h : ∀ event, env.record event = .written) :
    ¬ Strands cfg w (.activity (.call (.processIntent env intent token))) := by
  rintro ⟨hplacing⟩
  rcases hplacing.unrecorded with hunwritten | hlost
  · exact hunwritten (h _)
  · exact absurd ((h _).symm.trans hlost) (by decide)

/-- The first recovery has nothing to adopt. -/
theorem first_recovery_strands_nothing {cfg : GatewayConfig} {env : GatewayEnv} :
    ¬ Strands cfg (.fresh cfg) (.activity (.call (.recover env))) := by
  intro h
  cases h with
  | recovering h =>
      obtain ⟨_, before, coid, orderId, filled, after, _, _, _, _, -, hwal, -⟩ := h.adopts
      have hnone : walRead cfg (.fresh cfg) = [] := ite_self _
      exact absurd (hnone.symm.trans hwal) (by simp)

theorem oneTaken_strands_nothing (openOrders : List OpenOrder) :
    ∀ t ∈ trace (systemStep sampleGateway) (.fresh sampleGateway) (oneTaken openOrders),
      ¬ Strands sampleGateway t.pre t.input := by
  rw [oneTaken, trace_cons, trace_cons, trace_cons, trace_nil, List.forall_mem_cons,
    List.forall_mem_cons, List.forall_mem_singleton]
  refine ⟨first_recovery_strands_nothing, written_strands_nothing fun _ => rfl, ?_⟩
  intro h
  cases h

/-- The order rests, and is old enough. -/
theorem resting_order_swept :
    (∀ t ∈ trace (systemStep sampleGateway) (.fresh sampleGateway) (oneTaken [sampleResting]),
      ¬ Strands sampleGateway t.pre t.input) ∧
    Answers quietCycle ∧
    ∃ view outcome ended w',
      ReadsCycle quietCycle (run (systemStep sampleGateway) (.fresh sampleGateway)
        (oneTaken [sampleResting])) view ∧
      (sweepOnce ⟨0, 1⟩ quietCycle).run (run (systemStep sampleGateway) (.fresh sampleGateway)
        (oneTaken [sampleResting])) = .ok outcome w' ∧
      Swept ⟨0, 1⟩ quietCycle view ended (run (systemStep sampleGateway) (.fresh sampleGateway)
        (oneTaken [sampleResting])) w' :=
  ⟨oneTaken_strands_nothing _, quietCycle_answers,
    sweep_exact sampleGateway (oneTaken [sampleResting]) (oneTaken_strands_nothing _) ⟨0, 1⟩
      quietCycle quietCycle_answers⟩

/-- **An order that is gone from the venue without a fill** stays tracked, however old it is. -/
theorem vanished_order_stays :
    ¬ ∀ (cfg : GatewayConfig) (ops : List SystemOp) (policy : SweepPolicy) (env : CycleEnv),
      Answers env →
      ∀ order ∈ (run (systemStep cfg) (.fresh cfg) ops).tracked.values,
        Due policy env (run (systemStep cfg) (.fresh cfg) ops) order →
        order ∉ (finalState ((sweepOnce policy env).run
          (run (systemStep cfg) (.fresh cfg) ops))).tracked.values := by
  intro h
  let s := run (systemStep sampleGateway) (.fresh sampleGateway) (oneTaken [])
  obtain ⟨order, htracked, hstale, hstays⟩ : ∃ order ∈ s.tracked.values,
      isTtlStale ⟨0, 1⟩ quietCycle (s.restingMeta.get? order.orderId) = true ∧
      order ∈ (finalState ((sweepOnce ⟨0, 1⟩ quietCycle).run s)).tracked.values := by
    decide +kernel
  exact h sampleGateway (oneTaken []) ⟨0, 1⟩ quietCycle quietCycle_answers order htracked
    (.inr hstale) hstays

end OrderGateway

end Windbreak

/-! ## No cycle breaks off over an order

Both cycles move every tracked order along a legal edge, so neither ever refuses one, provided the
ledger has each of them where an edge leads on.  The one way to lose that is a step that strands an
order.

* **`CyclesMove`** — neither cycle raises over the state of an order, and a sweep cancels what is
  due.
* **`cycles_move_of_none_stranded`** — this holds after every run whose steps strand nothing.
* **`unrecorded_submission_wedges_sweep`** — and fails once the record of a submission is lost.
-/

namespace Windbreak

namespace OrderGateway

open Machine Effects Sweeper

/-- **No cycle breaks off over an order**, whatever its collaborators do; and if they all answer, no
order that a sweep comes to still rests after it. -/
structure CyclesMove (w : GatewayWorld) : Prop where
  reconciles : ∀ env e u, (Reconciler.runOnce env).run w = .error e u →
    e.kind ≠ .illegalTransition
  sweeps : ∀ policy env e u, (sweepOnce policy env).run w = .error e u →
    e.kind ≠ .illegalTransition
  cancels : ∀ policy env, Answers env → ∃ outcome w',
    (sweepOnce policy env).run w = .ok outcome w' ∧
    ∀ order ∈ w.tracked.values, Due policy env w order →
      order.orderId ∉ w'.openOrders.map (·.id)

/-- What a sweep has ended does not rest. -/
theorem Swept.not_resting {policy : SweepPolicy} {env : CycleEnv} {view : CycleView}
    {ended : List TrackedOrder} {w w' : GatewayWorld} (h : Swept policy env view ended w w')
    {order : TrackedOrder} (horder : order ∈ w.tracked.values) (hdue : Due policy env w order) :
    order.orderId ∉ w'.openOrders.map (·.id) := by
  intro hrests
  rw [h.venue] at hrests
  obtain ⟨entry, hentry, hid⟩ := List.mem_map.mp hrests
  obtain ⟨hopen, hleft⟩ := List.mem_filter.mp hentry
  have hended : order ∈ ended :=
    (h.exactly order).mpr ⟨horder, hdue, .inl (List.mem_map.mpr ⟨entry, hopen, hid⟩)⟩
  exact of_decide_eq_true hleft (hid ▸ List.mem_map.mpr ⟨order, hended, rfl⟩)

/-- Cycles move every order where every order can be moved. -/
theorem Movable.cyclesMove {w : GatewayWorld} (hkept : Bookkept w) (hw : Movable w) :
    CyclesMove w where
  reconciles env := (runOnce_movable hkept hw).2
  sweeps policy env := (sweepOnce_movable hkept hw).2
  cancels policy env hanswers := by
    obtain ⟨view, outcome, ended, w', -, hsweep, hswept⟩ :=
      @sweepOnce_swept policy env hanswers w hkept hw
    exact ⟨outcome, w', hsweep, fun order horder hdue => hswept.not_resting horder hdue⟩

/-- **After a run whose steps strand no order**, no cycle breaks off over one. -/
theorem cycles_move_of_none_stranded (cfg : GatewayConfig) (ops : List SystemOp)
    (h : ∀ t ∈ trace (systemStep cfg) (.fresh cfg) ops, ¬ Strands cfg t.pre t.input) :
    CyclesMove (run (systemStep cfg) (.fresh cfg) ops) := by
  obtain ⟨hkept, hmovable⟩ := movable_run h
  exact hmovable.cyclesMove hkept

/-- One order rests, and the ledger has all of it. -/
theorem cycles_move_after_one_taken :
    (∀ t ∈ trace (systemStep sampleGateway) (.fresh sampleGateway) (oneTaken [sampleResting]),
      ¬ Strands sampleGateway t.pre t.input) ∧
    CyclesMove (run (systemStep sampleGateway) (.fresh sampleGateway)
      (oneTaken [sampleResting])) :=
  ⟨oneTaken_strands_nothing _,
    cycles_move_of_none_stranded sampleGateway _ (oneTaken_strands_nothing _)⟩

/-- The venue takes the order of an approval, and the ledger loses the record of the submission. -/
def submissionUnrecorded : List SystemOp :=
  [.activity (.call (.recover quietEnv)),
    .activity (.call (present sampleGateway
      { quietEnv with
        placement := .acknowledged ⟨some "order-1", ⟨0⟩⟩
        record := fun event =>
          if event.str? "to_state" = some OrderState.SUBMITTED.name then .lost else .written } 1)),
    .activity (.call (.venueMoves [sampleResting]))]

/-- **A sweep refuses the order whose submission was not recorded**, and cancels nothing. -/
theorem unrecorded_submission_wedges_sweep :
    ¬ ∀ (cfg : GatewayConfig) (ops : List SystemOp),
      CyclesMove (run (systemStep cfg) (.fresh cfg) ops) := by
  intro h
  let s := run (systemStep sampleGateway) (.fresh sampleGateway) submissionUnrecorded
  have hrefused : (settle ((sweepOnce ⟨0, 1⟩ quietCycle).run s)).1.map (·.kind) =
      some .illegalTransition := by
    decide +kernel
  cases hrun : (sweepOnce ⟨0, 1⟩ quietCycle).run s with
  | ok outcome u =>
      rw [hrun] at hrefused
      cases hrefused
  | error e u =>
      rw [hrun] at hrefused
      exact (h sampleGateway submissionUnrecorded).sweeps ⟨0, 1⟩ quietCycle e u hrun
        (Option.some.inj hrefused)

end OrderGateway

end Windbreak
