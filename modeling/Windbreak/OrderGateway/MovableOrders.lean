import Windbreak.OrderGateway.Closing
import Windbreak.OrderGateway.SweepPlan
import Windbreak.OrderGateway.LifecycleRuns

/-!
# Orders the cycles can move

A cycle goes by what is tracked and by what the ledger folds to.  It can move a tracked order that the
ledger has in a state with an edge for it, and a step that stops between tracking an order and
recording it, or between recording its end and ceasing to track it, leaves one that it cannot.

* **`Movable`** — every tracked order stands in the ledger where it can be filled or cancelled.
* **`Strands`** — the steps that leave an order behind.
* **`movable_run`** — along a run without such a step every tracked order can be moved.
-/

namespace Windbreak

namespace OrderGateway

open Machine Effects

/-! ## What the ledger folds to -/

theorem foldLedgerStates_concat (ledger : List Event) (event : Event) :
    foldLedgerStates (ledger ++ [event]) =
      (foldLedgerStates ledger).bind fun states => foldLedgerState states event := by
  unfold foldLedgerStates
  rw [List.foldlM_append]
  cases ledger.foldlM foldLedgerState .empty with
  | error text => rfl
  | ok states =>
      show List.foldlM foldLedgerState states [event] = foldLedgerState states event
      rw [List.foldlM_cons]
      cases foldLedgerState states event <;> rfl

/-- What a cycle goes by. -/
def GatewayWorld.cycleBooks (w : GatewayWorld) :
    Except String (OrderedDict String OrderState) × OrderedDict String TrackedOrder :=
  (foldLedgerStates w.ledger, w.tracked)

/-- A record that is no transition changes nothing a cycle goes by. -/
theorem cycleBooks_ledgered {event : Event} (h : event.eventType ≠ "OrderTransitionLedgered")
    (w : GatewayWorld) : (w.ledgered event).cycleBooks = w.cycleBooks := by
  have hfold : foldLedgerStates (w.ledger ++ [event]) = foldLedgerStates w.ledger := by
    rw [foldLedgerStates_concat]
    cases foldLedgerStates w.ledger with
    | error text => rfl
    | ok states =>
        show foldLedgerState states event = .ok states
        rw [foldLedgerState, if_pos h]
  rw [GatewayWorld.cycleBooks, GatewayWorld.ledgered_ledger, hfold]
  rfl

theorem record_cycleBooks {eventType : String} (h : eventType ≠ "OrderTransitionLedgered")
    (payload : List (String × Json)) (env : GatewayEnv) :
    Frames GatewayWorld.cycleBooks (record env (gatewayEvent eventType payload)) :=
  record_moves_one (cycleBooks_ledgered h) env

theorem fold_ledgered_edge {w : GatewayWorld} {states : OrderedDict String OrderState}
    (h : foldLedgerStates w.ledger = .ok states) (coid : String) (state : OrderState)
    (event : OrderEvent) (target : OrderState) :
    foldLedgerStates (w.ledgered (edgeEvent coid state event target)).ledger =
      .ok (states.set coid target) := by
  rw [GatewayWorld.ledgered_ledger, foldLedgerStates_concat, h]
  show foldLedgerState states (edgeEvent coid state event target) = .ok (states.set coid target)
  rw [foldLedgerState, if_neg (not_not.mpr (edgeEvent_eventType ..)), edgeEvent_clientOrderId,
    edgeEvent_toState]
  dsimp only
  rw [OrderState.ofName?_name]

/-! ## Steps that concern one order -/

/-- At most edges of one order are recorded, and what is tracked stays. -/
structure RecordsOf (coid : String) (w w' : GatewayWorld) : Prop where
  tracked : w'.tracked = w.tracked
  states : ∀ states, foldLedgerStates w.ledger = .ok states →
    ∃ states', foldLedgerStates w'.ledger = .ok states' ∧
      ∀ c, c ≠ coid → states'.get? c = states.get? c

instance recordsOfPreorder (coid : String) : IsPreorder GatewayWorld (RecordsOf coid) where
  refl w := ⟨rfl, fun states h => ⟨states, h, fun _ _ => rfl⟩⟩
  trans u v w h h' := by
    refine ⟨h'.tracked.trans h.tracked, fun states hstates => ?_⟩
    obtain ⟨states', hstates', hsame⟩ := h.states states hstates
    obtain ⟨states'', hstates'', hsame'⟩ := h'.states states' hstates'
    exact ⟨states'', hstates'', fun c hc => (hsame' c hc).trans (hsame c hc)⟩

theorem RecordsOf.of_books {coid : String} {w w' : GatewayWorld}
    (h : w'.cycleBooks = w.cycleBooks) : RecordsOf coid w w' := by
  obtain ⟨hfold, htracked⟩ := Prod.mk.inj h
  exact ⟨htracked, fun states hstates => ⟨states, hfold.trans hstates, fun _ _ => rfl⟩⟩

theorem recordsOf_edge (coid : String) (state : OrderState) (event : OrderEvent)
    (target : OrderState) (w : GatewayWorld) :
    RecordsOf coid w (w.ledgered (edgeEvent coid state event target)) := by
  refine ⟨rfl, fun states hstates => ⟨_, fold_ledgered_edge hstates coid state event target, ?_⟩⟩
  intro c hc
  rw [OrderedDict.get?_set, if_neg hc]

theorem applyAndLedger_recordsOf (env : GatewayEnv) (state : OrderState) (event : OrderEvent)
    (coid : String) : Moves (RecordsOf coid) (applyAndLedger env state event coid) := by
  rw [applyAndLedger]
  split
  · exact Moves.throw _
  · exact Moves.bind (record_moves_one (recordsOf_edge coid state event _) env) fun _ =>
      Moves.pure _

/-! ## Orders that can be moved -/

/-- The ledger has an order where it can be filled or cancelled. -/
def CanMove (coid : String) (w : GatewayWorld) : Prop :=
  ∃ states state, foldLedgerStates w.ledger = .ok states ∧ states.get? coid = some state ∧
    state.canMove = true

/-- No tracked order has this id. -/
def Untracked (coid : String) (w : GatewayWorld) : Prop :=
  ∀ k order, w.tracked.get? k = some order → order.clientOrderId ≠ coid

/-- **Every tracked order can be moved**, those under one id aside. -/
structure MovableBut (coid : String) (w : GatewayWorld) : Prop where
  keyed : TrackedById w
  folds : ∃ states, foldLedgerStates w.ledger = .ok states
  moves : ∀ k order, w.tracked.get? k = some order → order.clientOrderId ≠ coid →
    CanMove order.clientOrderId w

/-- **Every tracked order can be moved.** -/
structure Movable (w : GatewayWorld) : Prop where
  keyed : TrackedById w
  folds : ∃ states, foldLedgerStates w.ledger = .ok states
  moves : ∀ k order, w.tracked.get? k = some order → CanMove order.clientOrderId w

/-- An order the gateway does not track yet. -/
structure Fresh (coid : String) (w : GatewayWorld) : Prop where
  movable : Movable w
  untracked : Untracked coid w

section Movable

variable {coid : String} {w w' : GatewayWorld}

theorem Movable.but (h : Movable w) (coid : String) : MovableBut coid w :=
  ⟨h.keyed, h.folds, fun k order hk _ => h.moves k order hk⟩

theorem MovableBut.movable (h : MovableBut coid w) (hcoid : Untracked coid w ∨ CanMove coid w) :
    Movable w := by
  refine ⟨h.keyed, h.folds, fun k order hk => ?_⟩
  by_cases hmine : order.clientOrderId = coid
  · rcases hcoid with huntracked | hmove
    · exact absurd hmine (huntracked k order hk)
    · rw [hmine]
      exact hmove
  · exact h.moves k order hk hmine

theorem RecordsOf.but (hrecords : RecordsOf coid w w') (h : MovableBut coid w) :
    MovableBut coid w' := by
  obtain ⟨states, hstates⟩ := h.folds
  obtain ⟨states', hstates', hsame⟩ := hrecords.states states hstates
  refine ⟨fun k order hk => h.keyed k order (hrecords.tracked ▸ hk), ⟨states', hstates'⟩,
    fun k order hk hne => ?_⟩
  obtain ⟨found, state, hfound, hget, hmove⟩ := h.moves k order (hrecords.tracked ▸ hk) hne
  rw [hstates] at hfound
  cases hfound
  exact ⟨states', state, hstates', (hsame _ hne).trans hget, hmove⟩

theorem RecordsOf.untracked (hrecords : RecordsOf coid w w') (h : Untracked coid w) :
    Untracked coid w' := fun k order hk => h k order (hrecords.tracked ▸ hk)

theorem RecordsOf.fresh (hrecords : RecordsOf coid w w') (h : Fresh coid w) : Fresh coid w' :=
  have huntracked := hrecords.untracked h.untracked
  ⟨(hrecords.but (h.movable.but coid)).movable (.inl huntracked), huntracked⟩

theorem CanMove.of_books (h : CanMove coid w) (hbooks : w'.cycleBooks = w.cycleBooks) :
    CanMove coid w' := by
  obtain ⟨states, state, hstates, hget, hmove⟩ := h
  exact ⟨states, state, (Prod.mk.inj hbooks).1.trans hstates, hget, hmove⟩

theorem Movable.of_books (h : Movable w) (hbooks : w'.cycleBooks = w.cycleBooks) : Movable w' := by
  obtain ⟨states, hstates⟩ := h.folds
  have htracked := (Prod.mk.inj hbooks).2
  refine ⟨fun k order hk => h.keyed k order (htracked ▸ hk),
    ⟨states, (Prod.mk.inj hbooks).1.trans hstates⟩, fun k order hk => ?_⟩
  exact (h.moves k order (htracked ▸ hk)).of_books hbooks

theorem canMove_edge (hfolds : ∃ states, foldLedgerStates w.ledger = .ok states)
    {state target : OrderState} {event : OrderEvent} (h : target.canMove = true) :
    CanMove coid (w.ledgered (edgeEvent coid state event target)) := by
  obtain ⟨states, hstates⟩ := hfolds
  exact ⟨_, target, fold_ledgered_edge hstates coid state event target,
    OrderedDict.get?_set_self .., h⟩

/-- To retire an order leaves the others where they are. -/
theorem MovableBut.retired (h : MovableBut coid w) (order : TrackedOrder) :
    MovableBut coid (retired order w) := by
  have hledger : (OrderGateway.retired order w).ledger = w.ledger := by
    unfold OrderGateway.retired retireInflight
    dsimp only
    split
    · split <;> rfl
    · rfl
  have hwas : ∀ k entry, (OrderGateway.retired order w).tracked.get? k = some entry →
      w.tracked.get? k = some entry := by
    intro k entry hk
    rw [retired_tracked, OrderedDict.get?_pop] at hk
    split at hk
    · cases hk
    · exact hk
  obtain ⟨states, hstates⟩ := h.folds
  refine ⟨fun k entry hk => h.keyed k entry (hwas k entry hk),
    ⟨states, (congrArg foldLedgerStates hledger).trans hstates⟩, fun k entry hk hne => ?_⟩
  obtain ⟨found, state, hfound, hget, hmove⟩ := h.moves k entry (hwas k entry hk) hne
  exact ⟨found, state, (congrArg foldLedgerStates hledger).trans hfound, hget, hmove⟩

/-- A retired order is not tracked any more. -/
theorem untracked_retired (hkept : Bookkept w) {order : TrackedOrder}
    (horder : w.tracked.get? order.orderId = some order) :
    Untracked order.clientOrderId (retired order w) := by
  intro k entry hk hsame
  rw [retired_tracked, OrderedDict.get?_pop] at hk
  split at hk
  · cases hk
  · rename_i hne
    exact hne (hkept.once k order.orderId entry order hk horder hsame)

/-- To track an order leaves the others where they are. -/
theorem MovableBut.withTracked (h : MovableBut coid w) {order : TrackedOrder}
    (horder : order.clientOrderId = coid) (noted : RestingOrderMeta) :
    MovableBut coid (w.withTracked order noted) := by
  have hwas : ∀ k entry, (w.withTracked order noted).tracked.get? k = some entry →
      (k = order.orderId ∧ entry = order) ∨ w.tracked.get? k = some entry := by
    intro k entry hk
    rw [GatewayWorld.withTracked_tracked, OrderedDict.get?_set] at hk
    split at hk
    · cases hk
      exact .inl ⟨‹_›, rfl⟩
    · exact .inr hk
  refine ⟨fun k entry hk => ?_, h.folds, fun k entry hk hne => ?_⟩
  · rcases hwas k entry hk with ⟨rfl, rfl⟩ | hold
    · rfl
    · exact h.keyed k entry hold
  · rcases hwas k entry hk with ⟨rfl, rfl⟩ | hold
    · exact absurd horder hne
    · exact h.moves k entry hold hne

end Movable

/-! ## A placement -/

/-- A call that tracks its order, and stops before the ledger has the order acknowledged. -/
structure PlacingStrands (cfg : GatewayConfig) (env : GatewayEnv) (intent : OrderIntent)
    (token : SignedApprovalToken) (ack : SubmissionAck) (w : GatewayWorld) : Prop where
  places : Places cfg env intent token w
  acknowledged : env.placement = .acknowledged ack
  rests : ack.orderId.isSome = true
  journalled : cfg.hasWal = true → env.walAck = .written
  routed : ∃ side, outcomeToSide intent.outcome = .ok side
  unrecorded :
    env.record (edgeEvent (clientOrderId cfg.sha256 intent) .SUBMISSION_REQUESTED .SUBMIT
      .SUBMITTED) ≠ .written ∨
    env.record (edgeEvent (clientOrderId cfg.sha256 intent) .SUBMITTED .ACK .ACKED) = .lost

theorem applyAndLedger_run {state target : OrderState} {event : OrderEvent}
    (hedge : state.transition event = some target) (env : GatewayEnv) (coid : String)
    (w : GatewayWorld) :
    (applyAndLedger env state event coid).run w =
      match env.record (edgeEvent coid state event target) with
      | .written => .ok target (w.ledgered (edgeEvent coid state event target))
      | .lost => .error ⟨.ledger, "ledger append failed"⟩ w
      | .writtenThenRaised => .error ⟨.ledger, "ledger append failed"⟩
          (w.ledgered (edgeEvent coid state event target)) := by
  rw [applyAndLedger, hedge]
  dsimp only
  rw [EStateM.run_bind, record_run, ← edgeEvent]
  cases env.record (edgeEvent coid state event target) <;> rfl

theorem recordCloseFill_cycleBooks (cfg : GatewayConfig) (env : GatewayEnv) (intent : OrderIntent)
    (coid : String) (ack : SubmissionAck) :
    Frames GatewayWorld.cycleBooks (recordCloseFill cfg env intent coid ack) :=
  recordCloseFill_moves (fun _ => record_cycleBooks (by decide) _ env) (fun _ _ _ => rfl)
    fun _ => rfl

theorem walAppend_cycleBooks (outcome : WalAppend) (walRecord : WalRecord) :
    Frames GatewayWorld.cycleBooks (walAppend outcome walRecord) :=
  walAppend_moves (fun _ => rfl) fun _ => rfl

/-- What follows the tracking of a placement. -/
def acknowledge (cfg : GatewayConfig) (env : GatewayEnv) (intent : OrderIntent) (coid : String)
    (ack : SubmissionAck) : GatewayM GatewayResult := do
  let state ← applyAndLedger env .SUBMISSION_REQUESTED .SUBMIT coid
  let state ← applyAndLedger env state .ACK coid
  if isClosingAction intent.action then recordCloseFill cfg env intent coid ack else pure ()
  return ⟨some .OK, state, some ack, .ACKED, none, coid, none⟩

section Placing

variable {cfg : GatewayConfig} {env : GatewayEnv} {intent : OrderIntent} {coid : String}
  {ack : SubmissionAck}

theorem acknowledge_recordsOf :
    Moves (RecordsOf coid) (acknowledge cfg env intent coid ack) := by
  have hclose : Moves (RecordsOf coid) (recordCloseFill cfg env intent coid ack) :=
    (recordCloseFill_cycleBooks cfg env intent coid ack).mono fun _ _ => RecordsOf.of_books
  refine Moves.bind (applyAndLedger_recordsOf _ _ _ _) fun _ =>
    Moves.bind (applyAndLedger_recordsOf _ _ _ _) fun _ => ?_
  exact Moves.ite (fun _ => Moves.bind hclose fun _ => Moves.pure _) fun _ => Moves.pure _

/-- **An order whose acknowledgement the ledger has** can be moved, whatever follows. -/
theorem acknowledge_movable
    (hsubmit : env.record (edgeEvent coid .SUBMISSION_REQUESTED .SUBMIT .SUBMITTED) = .written)
    (hack : env.record (edgeEvent coid .SUBMITTED .ACK .ACKED) ≠ .lost) {w : GatewayWorld}
    (hw : MovableBut coid w) :
    Movable (finalState ((acknowledge cfg env intent coid ack).run w)) := by
  have hsubmitted : RecordsOf coid w
      (w.ledgered (edgeEvent coid .SUBMISSION_REQUESTED .SUBMIT .SUBMITTED)) := recordsOf_edge ..
  have hacked : Movable ((w.ledgered
      (edgeEvent coid .SUBMISSION_REQUESTED .SUBMIT .SUBMITTED)).ledgered
        (edgeEvent coid .SUBMITTED .ACK .ACKED)) := by
    have hbut := hsubmitted.but hw
    exact ((recordsOf_edge ..).but hbut).movable (.inr (canMove_edge hbut.folds rfl))
  rw [acknowledge, EStateM.run_bind, applyAndLedger_written rfl hsubmit]
  dsimp only
  rw [EStateM.run_bind, applyAndLedger_run rfl]
  cases hrecord : env.record (edgeEvent coid .SUBMITTED .ACK .ACKED) with
  | lost => exact absurd hrecord hack
  | writtenThenRaised => exact hacked
  | written =>
      have hrest : Frames GatewayWorld.cycleBooks (do
          if isClosingAction intent.action then recordCloseFill cfg env intent coid ack
          else pure ()
          return ⟨some .OK, .ACKED, some ack, .ACKED, none, coid, none⟩ :
            GatewayM GatewayResult) :=
        Moves.ite (fun _ => Moves.bind (recordCloseFill_cycleBooks cfg env intent coid ack)
          fun _ => Moves.pure _) fun _ => Moves.pure _
      exact hacked.of_books (hrest _)

/-- An acknowledgement that rests, when all before its tracking goes well, is recorded. -/
def Lands (cfg : GatewayConfig) (env : GatewayEnv) (intent : OrderIntent) (coid : String)
    (ack : SubmissionAck) : Prop :=
  ack.orderId.isSome = true → (cfg.hasWal = true → env.walAck = .written) →
    (∃ side, outcomeToSide intent.outcome = .ok side) →
      env.record (edgeEvent coid .SUBMISSION_REQUESTED .SUBMIT .SUBMITTED) = .written ∧
        env.record (edgeEvent coid .SUBMITTED .ACK .ACKED) ≠ .lost

/-- What follows a placement leaves every order movable, if its own is recorded. -/
theorem settlePlacement_movable (hlands : Lands cfg env intent coid ack) {w : GatewayWorld}
    (hw : Fresh coid w) :
    Movable (finalState ((settlePlacement cfg env intent coid .SUBMISSION_REQUESTED ack).run w)) := by
  have hjournal : Frames GatewayWorld.cycleBooks (walAppendAck cfg env coid ack) :=
    Moves.ite (fun _ => walAppend_cycleBooks _ _) fun _ => Moves.pure _
  rw [settlePlacement, EStateM.run_bind]
  cases hwal : (walAppendAck cfg env coid ack).run w with
  | error e u => exact hw.movable.of_books (hjournal.of_error hwal)
  | ok _ u =>
    have hjournalled : u.cycleBooks = w.cycleBooks := hjournal.of_ok hwal
    have hbooks : (u.withAck coid ack).cycleBooks = w.cycleBooks := hjournalled
    have hu : Fresh coid (u.withAck coid ack) := (RecordsOf.of_books hbooks).fresh hw
    dsimp only
    rw [EStateM.run_bind, EStateM.run_modify]
    dsimp only
    rw [EStateM.run_bind, trackIfResting]
    cases hid : ack.orderId with
    | none => exact ((acknowledge_recordsOf _).fresh hu).movable
    | some orderId =>
      cases hside : outcomeToSide intent.outcome with
      | error text => exact hu.movable
      | ok side =>
        obtain ⟨hsubmit, hack⟩ := hlands (by simp [hid]) (walAppendAck_ok hwal) ⟨side, hside⟩
        exact acknowledge_movable hsubmit hack ((hu.movable.but coid).withTracked rfl _)

theorem placeAndSettle_movable
    (hlands : ∀ ack, env.placement = .acknowledged ack → Lands cfg env intent coid ack)
    (token : SignedApprovalToken) {w : GatewayWorld} (hw : Fresh coid w) :
    Movable (finalState ((placeAndSettle cfg env intent token coid).run w)) := by
  rw [placeAndSettle, EStateM.run_bind, place, EStateM.run_bind, EStateM.run_modify]
  cases hplacement : env.placement with
  | refused text => exact hw.movable.of_books rfl
  | takenThenRaised restingId text => exact hw.movable.of_books rfl
  | acknowledged ack =>
      dsimp only
      rw [EStateM.run_bind, EStateM.run_modify]
      dsimp only
      rw [EStateM.run_pure]
      refine settlePlacement_movable (hlands ack hplacement) ?_
      exact (RecordsOf.of_books (w := w) (by rfl)).fresh hw

/-- A submission leaves every order movable, if its own is recorded once it is tracked. -/
theorem submitNew_movable
    (hlands : Prepared cfg env coid → ∀ ack, env.placement = .acknowledged ack →
      Lands cfg env intent coid ack)
    (token : SignedApprovalToken) {w : GatewayWorld} (hw : Fresh coid w) :
    Movable (finalState ((submitNew cfg env intent token coid).run w)) := by
  have hjournal : Frames GatewayWorld.cycleBooks (walAppendIntent cfg env intent coid) :=
    Moves.ite (fun _ => walAppend_cycleBooks _ _) fun _ => Moves.pure _
  have hedge : ∀ state event, Moves (RecordsOf coid) (applyAndLedger env state event coid) :=
    fun state event => applyAndLedger_recordsOf env state event coid
  rw [submitNew, EStateM.run_bind]
  cases hwal : (walAppendIntent cfg env intent coid).run w with
  | error e u => exact hw.movable.of_books (hjournal.of_error hwal)
  | ok _ u =>
    have hjournalled : cfg.hasWal = true → env.walIntent = .written := by
      intro hwired
      by_contra hlost
      obtain ⟨e, v, hraised⟩ := walAppendIntent_not_written hwired hlost intent coid w
      rw [hraised] at hwal
      cases hwal
    have hrecords : RecordsOf coid w u := RecordsOf.of_books (hjournal.of_ok hwal)
    have hu := hrecords.fresh hw
    dsimp only
    rw [EStateM.run_bind]
    cases happrove : (applyAndLedger env .INTENT_CREATED .APPROVE coid).run u with
    | error e v => exact (((hedge _ _).of_error happrove).fresh hu).movable
    | ok approved v =>
      obtain ⟨rfl, happroved, -⟩ := applyAndLedger_ok rfl happrove
      have hv := ((hedge _ _).of_ok happrove).fresh hu
      dsimp only
      rw [EStateM.run_bind]
      cases hrequest : (applyAndLedger env .APPROVED .REQUEST_SUBMISSION coid).run v with
      | error e x => exact (((hedge _ _).of_error hrequest).fresh hv).movable
      | ok requested x =>
        obtain ⟨rfl, hrequested, -⟩ := applyAndLedger_ok rfl hrequest
        exact placeAndSettle_movable (hlands ⟨hjournalled, happroved, hrequested⟩) token
          (((hedge _ _).of_ok hrequest).fresh hv)

/-- **A call that strands nothing** leaves every order movable. -/
theorem processIntent_movable {token : SignedApprovalToken} {w : GatewayWorld} (hkept : Bookkept w)
    (hw : Movable w) (h : ∀ ack, ¬ PlacingStrands cfg env intent token ack w) :
    Movable (finalState ((processIntent cfg env intent token).run w)) := by
  by_cases hverified : Verified cfg env intent token w
  · rw [processIntent_of_verified hverified]
    cases hcached : w.acks.get? (clientOrderId cfg.sha256 intent) with
    | some ack => exact hw.of_books rfl
    | none =>
        have hnew := OrderedDict.get?_eq_none_iff.mp hcached
        have huntracked : Untracked (clientOrderId cfg.sha256 intent) w := fun k order hk hsame =>
          hnew (hsame ▸ hkept.owned k order hk)
        have hfresh : Fresh (clientOrderId cfg.sha256 intent) (w.consuming cfg token) :=
          ⟨hw.of_books rfl, huntracked⟩
        refine submitNew_movable (fun hprepared ack hack hrests hjournalled hrouted => ?_) token
          hfresh
        by_contra hunrecorded
        refine h ack ⟨⟨hverified, hnew, hprepared⟩, hack, hrests, hjournalled, hrouted, ?_⟩
        by_contra hrecorded
        rw [not_or, not_not] at hrecorded
        exact hunrecorded hrecorded
  · have hrefused : ∀ (w : GatewayWorld) coid reason,
        (w.ledgered (submissionRefusedEvent coid reason)).cycleBooks = w.cycleBooks :=
      fun w coid reason => cycleBooks_ledgered
        (by decide : "SubmissionRefused" ≠ "OrderTransitionLedgered") w
    have hreduced : ∀ (w : GatewayWorld) coid ticker held inflight requested reason,
        (w.ledgered (reduceOnlyRefusedEvent coid ticker held inflight requested reason)).cycleBooks =
          w.cycleBooks :=
      fun w coid ticker held inflight requested reason => cycleBooks_ledgered
        (by decide : "ReduceOnlyRefused" ≠ "OrderTransitionLedgered") w
    exact hw.of_books
      (processIntent_of_not_verified hrefused hreduced (fun w registry => rfl) hverified)

end Placing

/-! ## A recovery -/

/-- The ledger has an order where it can be moved, or where a recovery that reads the ledger goes on
to its acknowledgement. -/
def Adoptable (cfg : GatewayConfig) (coid : String) (w : GatewayWorld) : Prop :=
  ∃ states state, foldLedgerStates w.ledger = .ok states ∧ states.get? coid = some state ∧
    (state.canMove = true ∨
      (cfg.hasLedgerReader = true ∧ (state = .SUBMISSION_REQUESTED ∨ state = .SUBMITTED)))

/-- A recovery that comes to a resting order it adopts, which the ledger has elsewhere. -/
structure RecoveryStrands (cfg : GatewayConfig) (env : GatewayEnv) (w : GatewayWorld) : Prop where
  wired : cfg.recoveryWired = true
  ledgerReadable : cfg.hasLedgerReader = true → env.ledgerReadRaises = false
  noHalt : ledgerShowsHalt (ledgerRead cfg w) = false
  walReadable : cfg.hasWal = true → w.wal.torn = false
  ordersReadable : cfg.hasReconciliationSource = true → env.openOrdersRaises = false
  adopts : ∃ states before coid orderId filled after n u intent side,
    foldLedgerStates (ledgerRead cfg w) = .ok states ∧
    walRead cfg w = before ++ .ack coid (some orderId) filled :: after ∧
    (rehydrateEach env (journalledIntent (walRead cfg w)) ((venueRead cfg w).map (·.id)) states
      before).run w = .ok n u ∧
    coid ∉ u.acks.keys ∧ orderId ∈ (venueRead cfg w).map (·.id) ∧
    journalledIntent (walRead cfg w) coid = some intent ∧
    outcomeToSide intent.outcome = .ok side ∧ ¬ Adoptable cfg coid w

/-- Partway through a rehydration: what is tracked is cached and movable, and of an order that is not
cached the ledger says what it said at the start. -/
structure Rehydrating (start w : GatewayWorld) : Prop where
  movable : Movable w
  owned : ∀ k order, w.tracked.get? k = some order → order.clientOrderId ∈ w.acks.keys
  unheard : ∀ c, c ∉ w.acks.keys → ∀ states, foldLedgerStates start.ledger = .ok states →
    ∃ states', foldLedgerStates w.ledger = .ok states' ∧ states'.get? c = states.get? c

/-- The states a recovery goes by: the fold of the ledger if it can read it, and none otherwise. -/
def StatesRead (cfg : GatewayConfig) (start : GatewayWorld)
    (states : OrderedDict String OrderState) : Prop :=
  (cfg.hasLedgerReader = true → foldLedgerStates start.ledger = .ok states) ∧
    (cfg.hasLedgerReader = false → states = .empty)

section Recovery

variable {cfg : GatewayConfig} {env : GatewayEnv} {start w : GatewayWorld} {coid : String}
  {states : OrderedDict String OrderState}

theorem applyAndLedger_canMove {state target r : OrderState} {event : OrderEvent}
    (hedge : state.transition event = some target) (hmove : target.canMove = true)
    {w u : GatewayWorld} (hfolds : ∃ states, foldLedgerStates w.ledger = .ok states)
    (h : (applyAndLedger env state event coid).run w = .ok r u) : CanMove coid u := by
  obtain ⟨-, -, rfl⟩ := applyAndLedger_ok hedge h
  exact canMove_edge hfolds hmove

/-- **An adoptable order can be moved** once its lifecycle is completed. -/
theorem completeLedgerToAcked_canMove (hread : StatesRead cfg start states)
    (hadoptable : Adoptable cfg coid start)
    (hsame : ∀ states, foldLedgerStates start.ledger = .ok states →
      ∃ states', foldLedgerStates w.ledger = .ok states' ∧ states'.get? coid = states.get? coid)
    {u : GatewayWorld}
    (h : (completeLedgerToAcked env coid (states.get? coid)).run w = .ok () u) :
    CanMove coid u := by
  obtain ⟨found, state, hfound, hget, hcan⟩ := hadoptable
  obtain ⟨states', hstates', hget'⟩ := hsame found hfound
  have hstays : state.canMove = true → CanMove coid w := fun hmove =>
    ⟨states', state, hstates', hget'.trans hget, hmove⟩
  have hfolds : ∃ states, foldLedgerStates w.ledger = .ok states := ⟨states', hstates'⟩
  cases hreader : cfg.hasLedgerReader with
  | false =>
      have hmove : state.canMove = true := by
        rcases hcan with hmove | ⟨hwired, -⟩
        · exact hmove
        · rw [hreader] at hwired
          cases hwired
      rw [hread.2 hreader, OrderedDict.get?_empty] at h
      cases h
      exact hstays hmove
  | true =>
      have hsame : found = states := Except.ok.inj (hfound.symm.trans (hread.1 hreader))
      rw [← hsame, hget] at h
      by_cases hrequested : state = .SUBMISSION_REQUESTED
      · rw [hrequested, completeLedgerToAcked] at h
        obtain ⟨submitted, v, hsubmit, hrest⟩ := run_bind_ok.mp h
        obtain ⟨rfl, -, rfl⟩ := applyAndLedger_ok rfl hsubmit
        obtain ⟨acked, x, hack, hlast⟩ := run_bind_ok.mp hrest
        cases hlast
        exact applyAndLedger_canMove rfl rfl
          ⟨_, fold_ledgered_edge hstates' coid .SUBMISSION_REQUESTED .SUBMIT .SUBMITTED⟩ hack
      · by_cases hsubmitted : state = .SUBMITTED
        · rw [hsubmitted, completeLedgerToAcked] at h
          obtain ⟨acked, x, hack, hlast⟩ := run_bind_ok.mp h
          cases hlast
          exact applyAndLedger_canMove rfl rfl hfolds hack
        · have hmove : state.canMove = true := by
            rcases hcan with hmove | ⟨-, hrequest | hsubmit⟩
            · exact hmove
            · exact absurd hrequest hrequested
            · exact absurd hsubmit hsubmitted
          cases state with
          | SUBMISSION_REQUESTED => exact absurd rfl hrequested
          | SUBMITTED => exact absurd rfl hsubmitted
          | _ =>
              cases h
              exact hstays hmove

/-- **To adopt an order** tracks at most that order, and leaves every order movable if it can be. -/
theorem adoptIfOpen_movable {openIds : List String} {orderId : Option String}
    {intent : Option OrderIntent} (filled : ContractCentis) (hw : Fresh coid w)
    (hmoves : ∀ id journalled side, orderId = some id → id ∈ openIds → intent = some journalled →
      outcomeToSide journalled.outcome = .ok side → CanMove coid w) :
    Movable (finalState ((adoptIfOpen env openIds coid filled orderId intent).run w)) ∧
    (finalState ((adoptIfOpen env openIds coid filled orderId intent).run w)).ledger = w.ledger ∧
    ∀ k order, (finalState ((adoptIfOpen env openIds coid filled orderId intent).run w)).tracked.get? k
        = some order → order.clientOrderId = coid ∨ w.tracked.get? k = some order := by
  have hstays : Movable w ∧ w.ledger = w.ledger ∧ ∀ k order, w.tracked.get? k = some order →
      order.clientOrderId = coid ∨ w.tracked.get? k = some order :=
    ⟨hw.movable, rfl, fun k order hk => .inr hk⟩
  unfold adoptIfOpen
  cases orderId with
  | none => exact hstays
  | some id =>
    cases intent with
    | none => exact hstays
    | some journalled =>
      dsimp only
      by_cases hopen : id ∈ openIds
      · rw [if_pos hopen, trackRecoveredOrder, EStateM.run_bind]
        cases hside : outcomeToSide journalled.outcome with
        | error text => exact hstays
        | ok side =>
          have hmove := hmoves id journalled side rfl hopen rfl hside
          let order := trackedOrder coid id side journalled filled
          have hadopted : Movable (w.withTracked order (restingOrderMeta env id journalled)) :=
            ((hw.movable.but coid).withTracked rfl _).movable (.inr hmove)
          have htracked : ∀ k entry,
              (w.withTracked order (restingOrderMeta env id journalled)).tracked.get? k = some entry →
                entry.clientOrderId = coid ∨ w.tracked.get? k = some entry := by
            intro k entry hk
            rw [GatewayWorld.withTracked_tracked, OrderedDict.get?_set] at hk
            split at hk
            · cases hk
              exact .inl rfl
            · exact .inr hk
          rw [reading, EStateM.run_pure]
          dsimp only
          rw [EStateM.run_bind, EStateM.run_modify]
          dsimp only
          split
          · exact ⟨hadopted.of_books rfl, rfl, htracked⟩
          · exact ⟨hadopted, rfl, htracked⟩
      · rw [if_neg hopen]
        exact hstays

/-- **Rehydrating one acknowledgement** leaves every order movable, if an order that is adopted can
be. -/
theorem rehydrateAck_movable {intents : String → Option OrderIntent} {openIds : List String}
    {orderId : Option String} (filled : ContractCentis) (hread : StatesRead cfg start states)
    (hw : Rehydrating start w) (hnew : coid ∉ w.acks.keys)
    (hadopts : ∀ id intent side, orderId = some id → id ∈ openIds → intents coid = some intent →
      outcomeToSide intent.outcome = .ok side → Adoptable cfg coid start) :
    Rehydrating start
      (finalState ((rehydrateAck env intents openIds states coid orderId filled).run w)) := by
  have hfresh : Fresh coid (w.withAck coid ⟨orderId, filled⟩) :=
    ⟨hw.movable.of_books rfl, fun k order hk hsame => hnew (hsame ▸ hw.owned k order hk)⟩
  have hacks : (finalState ((rehydrateAck env intents openIds states coid orderId filled).run
      w)).acks = w.acks.set coid ⟨orderId, filled⟩ := congrArg Standing.acks
    (rehydrateAck_standing env intents openIds states coid orderId filled w)
  have hcomplete : Moves (RecordsOf coid) (completeLedgerToAcked env coid (states.get? coid)) :=
    completeLedgerToAcked_moves (fun state event => applyAndLedger_recordsOf _ state event _) _
  -- it is enough to know what became of the orders, and that no other order was recorded or tracked
  suffices h : ∀ u, u = finalState
      ((rehydrateAck env intents openIds states coid orderId filled).run w) → Movable u ∧
        (∀ k order, u.tracked.get? k = some order →
          order.clientOrderId = coid ∨ w.tracked.get? k = some order) ∧
        ∃ v, RecordsOf coid w v ∧ u.ledger = v.ledger by
    obtain ⟨hmovable, htracked, v, hrecords, hledger⟩ := h _ rfl
    refine ⟨hmovable, fun k order hk => ?_, fun c hc found hfound => ?_⟩
    · rw [hacks, OrderedDict.mem_keys_set]
      exact (htracked k order hk).imp_right (hw.owned k order)
    · rw [hacks, OrderedDict.mem_keys_set, not_or] at hc
      obtain ⟨states', hstates', hget⟩ := hw.unheard c hc.2 found hfound
      obtain ⟨states'', hstates'', hsame⟩ := hrecords.states states' hstates'
      exact ⟨states'', (congrArg foldLedgerStates hledger).trans hstates'',
        (hsame c hc.1).trans hget⟩
  rintro u rfl
  rw [rehydrateAck, EStateM.run_bind, EStateM.run_modify]
  dsimp only
  rw [EStateM.run_bind]
  cases hrun : (completeLedgerToAcked env coid (states.get? coid)).run
      (w.withAck coid ⟨orderId, filled⟩) with
  | error e u =>
      have hrecords := hcomplete.of_error hrun
      have hwas : ∀ k order, u.tracked.get? k = some order → w.tracked.get? k = some order :=
        fun k order hk => by rwa [hrecords.tracked] at hk
      exact ⟨(hrecords.fresh hfresh).movable, fun k order hk => .inr (hwas k order hk), u,
        ⟨hrecords.tracked, hrecords.states⟩, rfl⟩
  | ok _ u =>
      have hrecords := hcomplete.of_ok hrun
      have hwas : ∀ k order, u.tracked.get? k = some order → w.tracked.get? k = some order :=
        fun k order hk => by rwa [hrecords.tracked] at hk
      have hmoves : ∀ id intent side, orderId = some id → id ∈ openIds →
          intents coid = some intent → outcomeToSide intent.outcome = .ok side → CanMove coid u := by
        intro id intent side hid hopen hintent hside
        have hsame : ∀ states, foldLedgerStates start.ledger = .ok states → ∃ states',
            foldLedgerStates (w.withAck coid ⟨orderId, filled⟩).ledger = .ok states' ∧
              states'.get? coid = states.get? coid := hw.unheard coid hnew
        exact completeLedgerToAcked_canMove hread (hadopts id intent side hid hopen hintent hside)
          hsame hrun
      have hadopted := @adoptIfOpen_movable env u coid openIds orderId (intents coid) filled
        (hrecords.fresh hfresh) hmoves
      obtain ⟨hmovable, hledger, htracked⟩ := hadopted
      exact ⟨hmovable, fun k order hk => (htracked k order hk).imp_right (hwas k order), u,
        ⟨hrecords.tracked, hrecords.states⟩, hledger⟩

/-- **A rehydration** leaves every order movable, if each that it comes to adopt can be. -/
theorem rehydrateEach_movable {intents : String → Option OrderIntent} {openIds : List String}
    {records : List WalRecord} (hread : StatesRead cfg start states) (hw : Rehydrating start w)
    (hadopts : ∀ before coid orderId filled after n u intent side,
      records = before ++ .ack coid (some orderId) filled :: after →
      (rehydrateEach env intents openIds states before).run w = .ok n u → coid ∉ u.acks.keys →
      orderId ∈ openIds → intents coid = some intent → outcomeToSide intent.outcome = .ok side →
        Adoptable cfg coid start) :
    Movable (finalState ((rehydrateEach env intents openIds states records).run w)) := by
  induction records generalizing w with
  | nil => exact hw.movable
  | cons walRecord rest ih =>
      cases walRecord with
      | intent coid intent =>
          refine ih hw fun before c orderId filled after n u entry side hsplit hrun => ?_
          exact hadopts (.intent coid intent :: before) c orderId filled after n u entry side
            (by rw [hsplit, List.cons_append]) hrun
      | ack coid orderId filled =>
          unfold rehydrateEach
          rw [EStateM.run_bind, EStateM.run_get]
          dsimp only
          by_cases hcached : coid ∈ w.acks.keys
          · rw [if_pos hcached]
            refine ih hw fun before c id amount after n u entry side hsplit hrun => ?_
            refine hadopts (.ack coid orderId filled :: before) c id amount after n u entry side
              (by rw [hsplit, List.cons_append]) ?_
            unfold rehydrateEach
            rw [EStateM.run_bind, EStateM.run_get]
            dsimp only
            rw [if_pos hcached]
            exact hrun
          · have hadopt : ∀ id intent side, orderId = some id → id ∈ openIds →
                intents coid = some intent → outcomeToSide intent.outcome = .ok side →
                  Adoptable cfg coid start := fun id intent side hid hopen hintent hside =>
              hadopts [] coid id filled rest 0 w intent side (by rw [hid]; rfl) rfl hcached hopen
                hintent hside
            have hone : Rehydrating start (finalState
                ((rehydrateAck env intents openIds states coid orderId filled).run w)) :=
              rehydrateAck_movable filled hread hw hcached hadopt
            rw [if_neg hcached, EStateM.run_bind]
            cases hrun : (rehydrateAck env intents openIds states coid orderId filled).run w with
            | error e u =>
                rw [hrun] at hone
                exact hone.movable
            | ok _ u =>
                rw [hrun] at hone
                have hrest : Movable (finalState
                    ((rehydrateEach env intents openIds states rest).run u)) := by
                  refine ih hone fun before c id amount after n v entry side hsplit hprefix => ?_
                  refine hadopts (.ack coid orderId filled :: before) c id amount after (n + 1) v
                    entry side (by rw [hsplit, List.cons_append]) ?_
                  unfold rehydrateEach
                  rw [EStateM.run_bind, EStateM.run_get]
                  dsimp only
                  rw [if_neg hcached, EStateM.run_bind, hrun]
                  dsimp only
                  rw [EStateM.run_bind, hprefix]
                  rfl
                dsimp only
                rw [EStateM.run_bind]
                cases hnext : (rehydrateEach env intents openIds states rest).run u with
                | error e v => simpa [hnext] using hrest
                | ok n v => simpa [hnext] using hrest

theorem eventType_of_unaccounted {openOrders : List OpenOrder} {trackedIds : List String}
    {intents : List OrderIntent} {halt : Event}
    (h : buildUnaccountedHalt openOrders trackedIds intents = some halt) :
    halt.eventType = "ReconciliationHalted" := by
  obtain ⟨order, -, rfl⟩ := Option.map_eq_some_iff.mp h
  rfl

theorem openOrHalt_cycleBooks (walRecords : List WalRecord) (openOrders : List OpenOrder)
    (reconciled : ℕ) :
    Frames GatewayWorld.cycleBooks (openOrHalt env walRecords openOrders reconciled) := by
  have hthen : ∀ (event : Event) (f : GatewayWorld → GatewayWorld) (report : RecoveryReport),
      event.eventType ≠ "OrderTransitionLedgered" → (∀ w, (f w).cycleBooks = w.cycleBooks) →
        Frames GatewayWorld.cycleBooks
          (do record env event; modify f; return report : GatewayM RecoveryReport) :=
    fun event f report hevent hf => Moves.bind (record_moves_one (cycleBooks_ledgered hevent) env)
      fun _ => Moves.bind (Moves.modify hf) fun _ => Moves.pure _
  refine Moves.get_bind fun w => ?_
  split
  · rename_i halt hhalt
    refine hthen halt GatewayWorld.markedHalted _ ?_ (fun w => rfl) w
    rw [eventType_of_unaccounted hhalt]
    decide
  · exact hthen _ GatewayWorld.opened _
      (by decide : "RecoveryCompleted" ≠ "OrderTransitionLedgered") (fun w => rfl) w

/-- **A recovery that strands nothing** leaves every order movable. -/
theorem recover_movable (hkept : Bookkept w) (hw : Movable w) (h : ¬ RecoveryStrands cfg env w) :
    Movable (finalState ((recover cfg env).run w)) := by
  rw [recover]
  by_cases hwired : cfg.recoveryWired = false
  · rw [if_pos hwired]
    exact hw
  rw [if_neg hwired, EStateM.run_bind, readLedger_run]
  by_cases hledger : cfg.hasLedgerReader = true ∧ env.ledgerReadRaises = true
  · rw [if_pos hledger]
    exact hw
  rw [if_neg hledger]
  dsimp only
  by_cases hhalted : ledgerShowsHalt (ledgerRead cfg w) = true
  · rw [if_pos hhalted]
    exact hw.of_books rfl
  rw [if_neg hhalted, EStateM.run_bind, readWal_run]
  by_cases hwal : cfg.hasWal = true ∧ w.wal.torn = true
  · rw [if_pos hwal]
    exact hw
  rw [if_neg hwal]
  dsimp only
  rw [EStateM.run_bind, readOpenOrders_run]
  by_cases horders : cfg.hasReconciliationSource = true ∧ env.openOrdersRaises = true
  · rw [if_pos horders]
    exact hw
  rw [if_neg horders]
  dsimp only
  have hrehydrated : Movable (finalState ((rehydrateFromWal env (ledgerRead cfg w) (walRead cfg w)
      (venueRead cfg w)).run w)) := by
    rw [rehydrateFromWal, EStateM.run_bind]
    cases hfold : foldLedgerStates (ledgerRead cfg w) with
    | error text => exact hw
    | ok states =>
        have hread : StatesRead cfg w states := by
          refine ⟨fun hreader => ?_, fun hreader => ?_⟩
          · rwa [ledgerRead, if_pos hreader] at hfold
          · rw [ledgerRead, if_neg (by simp [hreader])] at hfold
            cases hfold
            rfl
        have hstart : Rehydrating w w :=
          ⟨hw, hkept.owned, fun c _ states hstates => ⟨states, hstates, rfl⟩⟩
        refine rehydrateEach_movable hread hstart ?_
        intro before coid orderId filled after n u intent side hsplit hrun hnew hopen hintent hside
        by_contra hstranded
        refine h ⟨by simpa using hwired, fun hreader => ?_, by simpa using hhalted,
          fun hjournal => ?_, fun hsource => ?_, states, before, coid, orderId, filled, after, n, u,
          intent, side, hfold, hsplit, hrun, hnew, hopen, hintent, hside, hstranded⟩
        · simpa [hreader] using hledger
        · simpa [hjournal] using hwal
        · simpa [hsource] using horders
  rw [EStateM.run_bind]
  cases hrun : (rehydrateFromWal env (ledgerRead cfg w) (walRead cfg w) (venueRead cfg w)).run w with
  | error e u =>
      rw [hrun] at hrehydrated
      exact hrehydrated
  | ok n u =>
      rw [hrun] at hrehydrated
      exact hrehydrated.of_books (openOrHalt_cycleBooks _ _ _ u)

end Recovery

end OrderGateway

end Windbreak
