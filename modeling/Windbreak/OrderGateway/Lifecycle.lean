import Windbreak.Core.Walks
import Windbreak.OrderGateway.CycleRuns

/-!
# The lifecycle the ledger records

Every component that moves an order records the edge it took.  Read back under one id, the records
should be a walk through the table of legal edges that starts where every order starts and stops at
the latest where its order is done.

* **`LedgeredPath`** — such a walk.
* **`foldLedgerStates_get?`** — over a ledger of such walks the fold finds where each ended.
* **`applyAndLedger_ensures`** — recording an edge from where the walk stands lengthens it.
-/

namespace Windbreak

/-- An order in this state is done: nothing that trades or cancels it may follow. -/
def OrderState.isTerminal : OrderState → Bool
  | .FILLED | .CANCELLED | .EXPIRED | .REJECTED | .RECONCILED | .DISPUTED
  | .SETTLEMENT_REVERSED => true
  | _ => false

/-- An event that trades or cancels; a state that is done has no edge on it. -/
def OrderEvent.isTrading : OrderEvent → Bool
  | .RECONCILE | .DISPUTE | .SETTLEMENT_REVERSE => false
  | _ => true

theorem OrderState.live_of_transition {state target : OrderState} {event : OrderEvent}
    (htrading : event.isTrading = true) (h : state.transition event = some target) :
    state.isTerminal = false := by
  cases state <;> cases event <;> simp_all [OrderState.transition, OrderEvent.isTrading,
    OrderState.isTerminal]

/-- No edge leads back to the start. -/
theorem OrderState.transition_ne_created (state : OrderState) (event : OrderEvent) :
    state.transition event ≠ some .INTENT_CREATED := by
  cases state <;> cases event <;> decide

theorem OrderState.ne_created_of_transition {state target : OrderState} {event : OrderEvent}
    (h : state.transition event = some target) : target ≠ .INTENT_CREATED := by
  rintro rfl
  exact state.transition_ne_created event h

theorem OrderState.name_injective {state target : OrderState} (h : state.name = target.name) :
    state = target := by
  have hfound := congrArg OrderState.ofName? h
  rw [OrderState.ofName?_name, OrderState.ofName?_name] at hfound
  exact Option.some.inj hfound

namespace OrderGateway

open Effects Graphs

/-! ## Walks of one order -/

/-- The transitions recorded for one order. -/
def historyOf (coid : String) (ledger : List Event) : List Event :=
  ledger.filter fun event =>
    event.eventType == "OrderTransitionLedgered" && event.str? "client_order_id" == some coid

/-- The record of a legal edge of an order that is not done. -/
def LedgeredEdge (coid : String) (state : OrderState) (record : Event) (target : OrderState) :
    Prop :=
  ∃ event, state.transition event = some target ∧ state.isTerminal = false ∧
    record = edgeEvent coid state event target

/-- A continuous path through the order lifecycle, as the ledger records it. -/
abbrev LedgeredPath (coid : String) : OrderState → List Event → OrderState → Prop :=
  Walk (LedgeredEdge coid)

/-- The order stands at a state: its records are a path there from the start. -/
def StandsAt (coid : String) (state : OrderState) (w : GatewayWorld) : Prop :=
  LedgeredPath coid .INTENT_CREATED (historyOf coid w.ledger) state

/-- The records of an order are one path. -/
def OnePath (coid : String) (w : GatewayWorld) : Prop := ∃ state, StandsAt coid state w

theorem StandsAt.onePath {coid : String} {state : OrderState} {w : GatewayWorld}
    (h : StandsAt coid state w) : OnePath coid w := ⟨state, h⟩

@[simp] theorem edgeEvent_eventType (coid : String) (state : OrderState) (event : OrderEvent)
    (target : OrderState) :
    (edgeEvent coid state event target).eventType = "OrderTransitionLedgered" := rfl

theorem edgeEvent_clientOrderId (coid : String) (state : OrderState) (event : OrderEvent)
    (target : OrderState) :
    (edgeEvent coid state event target).str? "client_order_id" = some coid := by
  simp [Event.str?, edgeEvent, orderTransitionLedgeredEvent, gatewayEvent, Json.lookup, Json.asStr?]

theorem edgeEvent_fromState (coid : String) (state : OrderState) (event : OrderEvent)
    (target : OrderState) :
    (edgeEvent coid state event target).str? "from_state" = some state.name := by
  simp [Event.str?, edgeEvent, orderTransitionLedgeredEvent, gatewayEvent, Json.lookup, Json.asStr?]

theorem edgeEvent_toState (coid : String) (state : OrderState) (event : OrderEvent)
    (target : OrderState) :
    (edgeEvent coid state event target).str? "to_state" = some target.name := by
  simp [Event.str?, edgeEvent, orderTransitionLedgeredEvent, gatewayEvent, Json.lookup, Json.asStr?]

/-- A record determines both ends of its edge. -/
theorem ledgeredEdge_unique {coid : String} {state target state' target' : OrderState}
    {record : Event} (h : LedgeredEdge coid state record target)
    (h' : LedgeredEdge coid state' record target') : state = state' ∧ target = target' := by
  obtain ⟨event, -, -, rfl⟩ := h
  obtain ⟨event', -, -, heq⟩ := h'
  have hfrom := congrArg (fun e => Event.str? e "from_state") heq
  have hto := congrArg (fun e => Event.str? e "to_state") heq
  simp only [edgeEvent_fromState, edgeEvent_toState, Option.some.injEq] at hfrom hto
  exact ⟨OrderState.name_injective hfrom, OrderState.name_injective hto⟩

/-- An order whose records are not empty has left the start. -/
theorem StandsAt.ne_created {coid : String} {state : OrderState} {w : GatewayWorld}
    (h : StandsAt coid state w) (hne : historyOf coid w.ledger ≠ []) : state ≠ .INTENT_CREATED := by
  refine Walk.ne_of_unreachable ?_ h hne
  rintro s record ⟨event, hedge, -⟩
  exact OrderState.ne_created_of_transition hedge rfl

/-! ## Histories under one more record -/

theorem historyOf_append (coid : String) (ledger records : List Event) :
    historyOf coid (ledger ++ records) = historyOf coid ledger ++ historyOf coid records :=
  List.filter_append ..

theorem historyOf_edgeEvent (coid : String) (state : OrderState) (event : OrderEvent)
    (target : OrderState) :
    historyOf coid [edgeEvent coid state event target] = [edgeEvent coid state event target] := by
  simp [historyOf, edgeEvent_clientOrderId]

theorem historyOf_edgeEvent_other {coid other : String} (h : other ≠ coid) (state : OrderState)
    (event : OrderEvent) (target : OrderState) :
    historyOf coid [edgeEvent other state event target] = [] := by
  simp [historyOf, edgeEvent_clientOrderId, h]

theorem historyOf_gatewayEvent {coid eventType : String} {payload : List (String × Json)}
    (h : eventType ≠ "OrderTransitionLedgered") :
    historyOf coid [gatewayEvent eventType payload] = [] := by
  simp [historyOf, gatewayEvent, h]

/-- The history of one order, read off a world. -/
abbrev GatewayWorld.history (coid : String) (w : GatewayWorld) : List Event :=
  historyOf coid w.ledger

theorem history_ledgered {coid : String} {record : Event} (h : historyOf coid [record] = [])
    (w : GatewayWorld) : (w.ledgered record).history coid = w.history coid := by
  rw [GatewayWorld.history, GatewayWorld.ledgered_ledger, historyOf_append, h, List.append_nil]

theorem OnePath.of_history {coid : String} {w w' : GatewayWorld}
    (h : w'.history coid = w.history coid) (hw : OnePath coid w) : OnePath coid w' := by
  obtain ⟨state, hstate⟩ := hw
  rw [StandsAt, ← GatewayWorld.history, ← h] at hstate
  exact ⟨state, hstate⟩

theorem StandsAt.of_history {coid : String} {state : OrderState} {w w' : GatewayWorld}
    (h : w'.history coid = w.history coid) (hw : StandsAt coid state w) : StandsAt coid state w' := by
  rw [StandsAt, ← GatewayWorld.history] at hw ⊢
  rwa [h]

/-! ## Recording -/

theorem record_history {coid : String} {event : Event} (h : historyOf coid [event] = [])
    (env : GatewayEnv) : Frames (GatewayWorld.history coid) (record env event) := by
  rw [record]
  split
  · exact Moves.modify fun w => history_ledgered h w
  · exact Moves.throw _
  · exact Moves.bind (Moves.modify fun w => history_ledgered h w) fun _ => Moves.throw _

/-- Recording an edge of another order leaves the history alone. -/
theorem applyAndLedger_history {coid other : String} (h : other ≠ coid) (env : GatewayEnv)
    (state : OrderState) (event : OrderEvent) :
    Frames (GatewayWorld.history coid) (applyAndLedger env state event other) := by
  rw [applyAndLedger]
  split
  · exact Moves.throw _
  · exact Moves.bind (record_history (historyOf_edgeEvent_other h _ _ _) env) fun _ => Moves.pure _

/-- **Recording an edge** from where an order stands lengthens its path. -/
theorem applyAndLedger_ensures {event : OrderEvent} (htrading : event.isTrading = true)
    (env : GatewayEnv) (state : OrderState) (coid : String) :
    Ensures (StandsAt coid state) (applyAndLedger env state event coid) (StandsAt coid)
      (OnePath coid) := by
  rw [applyAndLedger]
  cases hedge : state.transition event with
  | none => exact Ensures.throw fun w hw => hw.onePath
  | some target =>
      have hlonger : ∀ w, StandsAt coid state w →
          StandsAt coid target (w.ledgered (edgeEvent coid state event target)) := by
        intro w hw
        rw [StandsAt, GatewayWorld.ledgered_ledger, historyOf_append, historyOf_edgeEvent]
        exact hw.snoc ⟨event, hedge, OrderState.live_of_transition htrading hedge, rfl⟩
      dsimp only
      refine Ensures.bind (Q := fun _ => StandsAt coid target) ?_ fun _ => Ensures.pure fun w hw => hw
      rw [record]
      split
      · exact Ensures.modify hlonger
      · exact Ensures.throw fun w hw => hw.onePath
      · exact Ensures.bind (Q := fun _ => StandsAt coid target) (Ensures.modify hlonger) fun _ =>
          Ensures.throw fun w hw => hw.onePath

/-! ## Reading the ledger back -/

theorem foldLedgerState_other {coid : String} {states states' : OrderedDict String OrderState}
    {event : Event} (h : historyOf coid [event] = [])
    (hfold : foldLedgerState states event = .ok states') :
    states'.get? coid = states.get? coid := by
  unfold foldLedgerState at hfold
  split at hfold
  · cases hfold
    rfl
  · rename_i htype
    split at hfold
    · rename_i other text hid _
      split at hfold
      · cases hfold
        rw [OrderedDict.get?_set, if_neg]
        rintro rfl
        simp [historyOf, not_not.mp htype, hid] at h
      · cases hfold
    · cases hfold

theorem foldLedgerState_edge {coid : String} {states states' : OrderedDict String OrderState}
    {state target : OrderState} {event : OrderEvent}
    (hfold : foldLedgerState states (edgeEvent coid state event target) = .ok states') :
    states'.get? coid = some target := by
  unfold foldLedgerState at hfold
  rw [if_neg (not_not.mpr (edgeEvent_eventType ..)), edgeEvent_clientOrderId, edgeEvent_toState]
    at hfold
  dsimp only at hfold
  rw [OrderState.ofName?_name] at hfold
  cases hfold
  exact OrderedDict.get?_set_self ..

/-- **The fold of a ledger** has an order with records exactly where its path ended. -/
theorem foldLedgerStates_get? {coid : String} {ledger : List Event}
    {states : OrderedDict String OrderState} {state : OrderState}
    (hfold : foldLedgerStates ledger = .ok states)
    (hpath : LedgeredPath coid .INTENT_CREATED (historyOf coid ledger) state) :
    states.get? coid = if historyOf coid ledger = [] then none else some state := by
  induction ledger using List.reverseRecOn generalizing states state with
  | nil =>
      cases hfold
      rfl
  | append_singleton ledger event ih =>
      rw [foldLedgerStates, List.foldlM_append] at hfold
      cases hbefore : ledger.foldlM foldLedgerState .empty with
      | error text => rw [hbefore] at hfold; cases hfold
      | ok before =>
          rw [hbefore] at hfold
          have hone : foldLedgerState before event = .ok states := by
            cases hstep : foldLedgerState before event with
            | error text => simp [hstep, bind, Except.bind] at hfold
            | ok after =>
                simp only [List.foldlM_cons, List.foldlM_nil, hstep, bind, Except.bind, pure,
                  Except.pure, Except.ok.injEq] at hfold
                rw [hfold]
          rw [historyOf_append] at hpath ⊢
          obtain ⟨middle, hpathBefore, hlast⟩ := walk_append.mp hpath
          have hget := ih hbefore hpathBefore
          by_cases hmine : historyOf coid [event] = []
          · rw [hmine] at hlast ⊢
            rw [walk_nil.mp hlast, List.append_nil, foldLedgerState_other hmine hone, hget]
          · have hself : historyOf coid [event] = [event] := by
              unfold historyOf at hmine ⊢
              rw [List.filter_cons] at hmine ⊢
              split
              · rfl
              · rename_i hcond
                rw [if_neg hcond] at hmine
                exact absurd rfl hmine
            rw [hself] at hlast ⊢
            obtain ⟨target, ⟨edge, -, -, rfl⟩, hend⟩ := walk_cons.mp hlast
            rw [walk_nil.mp hend, foldLedgerState_edge hone, if_neg (by simp)]

end OrderGateway

end Windbreak
