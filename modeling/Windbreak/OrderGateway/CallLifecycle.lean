import Windbreak.OrderGateway.Bookkeeping

/-!
# What a call and a recovery record

A recovery goes on from where the ledger has an order.  A call begins at the start, and so leaves
the order on one path only if the ledger had not heard of it.

* **`processIntent_onePath`** — a call that starts nothing over leaves every order on one path.
* **`processIntent_of_startsOver`** — a call that starts an order over breaks its path.
* **`recover_onePath`** — a recovery leaves every order on one path.
-/

namespace Windbreak

namespace OrderGateway

open Machine Effects Graphs

/-! ## A call about another order -/

section Other

variable {c : String}

theorem refused_history (w : GatewayWorld) (coid reason : String) :
    (w.ledgered (submissionRefusedEvent coid reason)).history c = w.history c :=
  history_ledgered (historyOf_gatewayEvent (by decide)) w

theorem reduced_history (w : GatewayWorld) (coid ticker : String) (held inflight requested : ℤ)
    (reason : String) :
    (w.ledgered (reduceOnlyRefusedEvent coid ticker held inflight requested reason)).history c =
      w.history c :=
  history_ledgered (historyOf_gatewayEvent (by decide)) w

theorem walAppend_history (outcome : WalAppend) (walRecord : WalRecord) :
    Frames (GatewayWorld.history c) (walAppend outcome walRecord) :=
  walAppend_moves (fun _ => rfl) fun _ => rfl

theorem walAppendIntent_history (cfg : GatewayConfig) (env : GatewayEnv) (intent : OrderIntent)
    (coid : String) : Frames (GatewayWorld.history c) (walAppendIntent cfg env intent coid) :=
  Moves.ite (fun _ => walAppend_history _ _) fun _ => Moves.pure _

theorem walAppendAck_history (cfg : GatewayConfig) (env : GatewayEnv) (coid : String)
    (ack : SubmissionAck) : Frames (GatewayWorld.history c) (walAppendAck cfg env coid ack) :=
  Moves.ite (fun _ => walAppend_history _ _) fun _ => Moves.pure _

theorem place_history (cfg : GatewayConfig) (env : GatewayEnv) (intent : OrderIntent)
    (token : SignedApprovalToken) (coid : String) (closing : Bool) :
    Frames (GatewayWorld.history c) (place cfg env intent token coid closing) := by
  refine Moves.bind (Moves.modify fun w => rfl) fun _ => ?_
  split
  · exact Moves.throw _
  · exact Moves.bind (Moves.modify fun w => rfl) fun _ => Moves.pure _
  · exact Moves.bind (Moves.modify fun w => rfl) fun _ => Moves.throw _

theorem trackIfResting_history (env : GatewayEnv) (coid : String) (intent : OrderIntent)
    (ack : SubmissionAck) :
    Frames (GatewayWorld.history c) (trackIfResting env coid intent ack) := by
  rw [trackIfResting]
  split
  · exact Moves.pure _
  · exact Moves.bind (reading_moves _ _) fun side => Moves.modify fun w => rfl

theorem recordCloseFill_history (cfg : GatewayConfig) (env : GatewayEnv) (intent : OrderIntent)
    (coid : String) (ack : SubmissionAck) :
    Frames (GatewayWorld.history c) (recordCloseFill cfg env intent coid ack) :=
  recordCloseFill_moves (fun _ => record_history (historyOf_gatewayEvent (by decide)) env)
    (fun _ _ _ => rfl) fun _ => rfl

/-- A submission of another order leaves the history alone. -/
theorem submitNew_history {coid : String} (h : coid ≠ c) (cfg : GatewayConfig) (env : GatewayEnv)
    (intent : OrderIntent) (token : SignedApprovalToken) :
    Frames (GatewayWorld.history c) (submitNew cfg env intent token coid) := by
  have hedge : ∀ state event,
      Frames (GatewayWorld.history c) (applyAndLedger env state event coid) :=
    applyAndLedger_history h env
  have hclose := recordCloseFill_history (c := c) cfg env intent coid
  refine Moves.bind (walAppendIntent_history cfg env intent coid) fun _ =>
    Moves.bind (hedge _ _) fun _ => Moves.bind (hedge _ _) fun _ =>
      Moves.bind (place_history cfg env intent token coid _) fun ack => ?_
  refine Moves.bind (walAppendAck_history cfg env coid ack) fun _ =>
    Moves.bind (Moves.modify fun w => rfl) fun _ =>
      Moves.bind (trackIfResting_history env coid intent ack) fun _ =>
        Moves.bind (hedge _ _) fun _ => Moves.bind (hedge _ _) fun _ => ?_
  exact Moves.ite (fun _ => Moves.bind (hclose ack) fun _ => Moves.pure _) fun _ => Moves.pure _

/-- A call about another order leaves the history alone. -/
theorem processIntent_history {cfg : GatewayConfig} {intent : OrderIntent}
    (h : clientOrderId cfg.sha256 intent ≠ c) (env : GatewayEnv) (token : SignedApprovalToken) :
    Frames (GatewayWorld.history c) (processIntent cfg env intent token) := by
  intro w
  by_cases hverified : Verified cfg env intent token w
  · rw [processIntent_of_verified hverified]
    split
    · rfl
    · exact submitNew_history h cfg env intent token (w.consuming cfg token)
  · exact processIntent_of_not_verified refused_history reduced_history (fun _ _ => rfl) hverified

end Other

/-! ## A call about the order itself -/

/-- **A submission of a new order** records one path, wherever it stops. -/
theorem submitNew_onePath (cfg : GatewayConfig) (env : GatewayEnv) (intent : OrderIntent)
    (token : SignedApprovalToken) (coid : String) :
    Ensures (StandsAt coid .INTENT_CREATED) (submitNew cfg env intent token coid)
      (fun _ => OnePath coid) (OnePath coid) := by
  have hkeeps : ∀ {α : Type} {m : GatewayM α} (state : OrderState),
      Frames (GatewayWorld.history coid) m →
        Ensures (StandsAt coid state) m (fun _ => StandsAt coid state) (OnePath coid) :=
    fun state hm => Ensures.of_keeps (hm.mono fun _ _ hw h => h.of_history hw)
      fun _ h => h.onePath
  have hedge : ∀ state event, event.isTrading = true → Ensures (StandsAt coid state)
      (applyAndLedger env state event coid) (StandsAt coid) (OnePath coid) :=
    fun state event htrading => applyAndLedger_ensures htrading env state coid
  have hclose := recordCloseFill_history (c := coid) cfg env intent coid
  refine Ensures.bind (hkeeps _ (walAppendIntent_history cfg env intent coid)) fun _ => ?_
  refine Ensures.bind (hedge _ .APPROVE rfl) fun approved => ?_
  refine Ensures.bind (hedge approved .REQUEST_SUBMISSION rfl) fun requested => ?_
  refine Ensures.bind (hkeeps requested (place_history cfg env intent token coid _)) fun ack => ?_
  refine Ensures.bind (hkeeps requested (walAppendAck_history cfg env coid ack)) fun _ => ?_
  refine Ensures.bind (hkeeps requested (Moves.modify fun w => rfl)) fun _ => ?_
  refine Ensures.bind (hkeeps requested (trackIfResting_history env coid intent ack)) fun _ => ?_
  refine Ensures.bind (hedge requested .SUBMIT rfl) fun submitted => ?_
  refine Ensures.bind (hedge submitted .ACK rfl) fun acked => ?_
  refine (hkeeps acked ?_).mono (fun _ h => h) (fun _ _ h => h.onePath) fun _ h => h
  exact Moves.ite (fun _ => Moves.bind (hclose ack) fun _ => Moves.pure _) fun _ => Moves.pure _

/-- What a submission records first may fail before the ledger hears of the order. -/
structure Unheard (cfg : GatewayConfig) (env : GatewayEnv) (coid : String) : Prop where
  stops : (cfg.hasWal = true ∧ env.walIntent ≠ .written) ∨
    env.record (edgeEvent coid .INTENT_CREATED .APPROVE .APPROVED) = .lost

/-- A submission the ledger does not hear of leaves the history alone. -/
theorem submitNew_unheard {cfg : GatewayConfig} {env : GatewayEnv} {coid : String}
    (h : Unheard cfg env coid) (intent : OrderIntent) (token : SignedApprovalToken)
    (w : GatewayWorld) :
    (finalState ((submitNew cfg env intent token coid).run w)).history coid = w.history coid := by
  have hstart := walAppendIntent_history (c := coid) cfg env intent coid
  rw [submitNew, EStateM.run_bind]
  by_cases hjournal : cfg.hasWal = true ∧ env.walIntent ≠ .written
  · obtain ⟨e, u, hraised⟩ := walAppendIntent_not_written hjournal.1 hjournal.2 intent coid w
    rw [hraised]
    exact hstart.of_error hraised
  · have hlost := h.stops.resolve_left hjournal
    cases hwal : (walAppendIntent cfg env intent coid).run w with
    | error e u => exact hstart.of_error hwal
    | ok _ u =>
        have hu := hstart.of_ok hwal
        rw [edgeEvent] at hlost
        dsimp only
        rw [EStateM.run_bind, applyAndLedger, OrderState.transition]
        dsimp only
        rw [EStateM.run_bind, record_run, hlost]
        exact hu

/-- A call that starts an order over: its token verifies, nothing is cached under its id, its first
record reaches the ledger, and the ledger had heard of the order before. -/
structure StartsOver (cfg : GatewayConfig) (env : GatewayEnv) (intent : OrderIntent)
    (token : SignedApprovalToken) (w : GatewayWorld) : Prop where
  verified : Verified cfg env intent token w
  fresh : clientOrderId cfg.sha256 intent ∉ w.acks.keys
  journalled : cfg.hasWal = true → env.walIntent = .written
  recorded : env.record (edgeEvent (clientOrderId cfg.sha256 intent)
    .INTENT_CREATED .APPROVE .APPROVED) ≠ .lost
  heard : w.history (clientOrderId cfg.sha256 intent) ≠ []

/-- **A call that starts nothing over** leaves every order on one path. -/
theorem processIntent_onePath {cfg : GatewayConfig} {env : GatewayEnv} {intent : OrderIntent}
    {token : SignedApprovalToken} {w : GatewayWorld} (h : ¬ StartsOver cfg env intent token w)
    {c : String} (hw : OnePath c w) :
    OnePath c (finalState ((processIntent cfg env intent token).run w)) := by
  by_cases hmine : clientOrderId cfg.sha256 intent = c
  · subst hmine
    by_cases hverified : Verified cfg env intent token w
    · rw [processIntent_of_verified hverified]
      cases hcached : w.acks.get? (clientOrderId cfg.sha256 intent) with
      | some ack => exact hw
      | none =>
          have hnew := OrderedDict.get?_eq_none_iff.mp hcached
          dsimp only
          by_cases hempty : w.history (clientOrderId cfg.sha256 intent) = []
          · refine (submitNew_onePath cfg env intent token _).finalState (s := w.consuming cfg token) ?_
            rw [StandsAt, ← GatewayWorld.history]
            have hsame : (w.consuming cfg token).history (clientOrderId cfg.sha256 intent) = [] :=
              hempty
            rw [hsame]
            exact .nil _
          · have hunheard : Unheard cfg env (clientOrderId cfg.sha256 intent) := by
              refine ⟨or_iff_not_imp_left.mpr fun hjournal => ?_⟩
              by_contra hrecorded
              refine h ⟨hverified, hnew, fun hwired => ?_, hrecorded, hempty⟩
              by_contra hlost
              exact hjournal ⟨hwired, hlost⟩
            exact hw.of_history (submitNew_unheard hunheard intent token _)
    · exact hw.of_history
        (processIntent_of_not_verified refused_history reduced_history (fun _ _ => rfl) hverified)
  · exact hw.of_history (processIntent_history hmine env token w)

/-- The records of the order are not one path, and no later record mends that. -/
theorem broken_ledgered {c : String} (w : GatewayWorld) (event : Event) :
    Keeps (fun w => ¬ OnePath c w) w (w.ledgered event) := by
  rintro hbroken ⟨state, hstands⟩
  rw [StandsAt, GatewayWorld.ledgered_ledger, historyOf_append] at hstands
  obtain ⟨middle, hmiddle, -⟩ := walk_append.mp hstands
  exact hbroken ⟨middle, hmiddle⟩

/-- What follows the first record of a submission. -/
def afterApproval (cfg : GatewayConfig) (env : GatewayEnv) (intent : OrderIntent)
    (token : SignedApprovalToken) (coid : String) (state : OrderState) :
    GatewayM GatewayResult := do
  let state ← applyAndLedger env state .REQUEST_SUBMISSION coid
  let ack ← place cfg env intent token coid (isClosingAction intent.action)
  settlePlacement cfg env intent coid state ack

theorem afterApproval_broken {c : String} (cfg : GatewayConfig) (env : GatewayEnv)
    (intent : OrderIntent) (token : SignedApprovalToken) (coid : String) (state : OrderState) :
    Moves (Keeps fun w => ¬ OnePath c w) (afterApproval cfg env intent token coid state) := by
  have hkeeps : ∀ {α : Type} {m : GatewayM α}, Frames (GatewayWorld.history c) m →
      Moves (Keeps fun w => ¬ OnePath c w) m := fun hm =>
    hm.mono fun _ _ hw hbroken hpath => hbroken (hpath.of_history hw.symm)
  have hedge : ∀ state event, Moves (Keeps fun w => ¬ OnePath c w)
      (applyAndLedger env state event coid) := fun state event =>
    applyAndLedger_moves broken_ledgered env state event coid
  refine Moves.bind (hedge _ _) fun _ =>
    Moves.bind (hkeeps (place_history cfg env intent token coid _)) fun ack => ?_
  refine Moves.bind (hkeeps (walAppendAck_history cfg env coid ack)) fun _ =>
    Moves.bind (hkeeps (Moves.modify fun w => rfl)) fun _ =>
      Moves.bind (hkeeps (trackIfResting_history env coid intent ack)) fun _ =>
        Moves.bind (hedge _ _) fun _ => Moves.bind (hedge _ _) fun _ => ?_
  refine Moves.ite (fun _ => Moves.bind (hkeeps ?_) fun _ => Moves.pure _) fun _ => Moves.pure _
  exact recordCloseFill_history cfg env intent coid ack

/-- A second start breaks the path. -/
theorem approved_again_broken {coid : String} {w : GatewayWorld} (hheard : w.history coid ≠ []) :
    ¬ OnePath coid (w.ledgered (edgeEvent coid .INTENT_CREATED .APPROVE .APPROVED)) := by
  rintro ⟨state, hstands⟩
  rw [StandsAt, GatewayWorld.ledgered_ledger, historyOf_append, historyOf_edgeEvent] at hstands
  obtain ⟨middle, hmiddle, hlast⟩ := walk_append.mp hstands
  obtain ⟨target, hedge, -⟩ := walk_cons.mp hlast
  have hfirst : LedgeredEdge coid .INTENT_CREATED
      (edgeEvent coid .INTENT_CREATED .APPROVE .APPROVED) .APPROVED := ⟨.APPROVE, rfl, rfl, rfl⟩
  exact StandsAt.ne_created hmiddle hheard (ledgeredEdge_unique hedge hfirst).1

/-- **A call that starts an order over** breaks its path. -/
theorem processIntent_of_startsOver {cfg : GatewayConfig} {env : GatewayEnv} {intent : OrderIntent}
    {token : SignedApprovalToken} {w : GatewayWorld} (h : StartsOver cfg env intent token w) :
    ¬ OnePath (clientOrderId cfg.sha256 intent)
      (finalState ((processIntent cfg env intent token).run w)) := by
  set coid := clientOrderId cfg.sha256 intent with hcoid
  rw [processIntent_of_verified h.verified, OrderedDict.get?_eq_none_iff.mpr h.fresh]
  dsimp only
  set u := (w.consuming cfg token).intentJournalled cfg intent coid with hu
  have hsame : u.history coid = w.history coid := by
    rw [hu]
    unfold GatewayWorld.intentJournalled
    split <;> rfl
  have hbroken := approved_again_broken (hsame ▸ h.heard)
  rw [submitNew, EStateM.run_bind, walAppendIntent_written h.journalled]
  dsimp only
  rw [EStateM.run_bind, applyAndLedger, OrderState.transition]
  dsimp only
  rw [EStateM.run_bind, record_run]
  have hrecorded := h.recorded
  rw [edgeEvent] at hrecorded hbroken
  cases hrecord : env.record (orderTransitionLedgeredEvent coid OrderState.INTENT_CREATED.name
      OrderEvent.APPROVE.name OrderState.APPROVED.name) with
  | lost => exact absurd hrecord hrecorded
  | writtenThenRaised => exact hbroken
  | written => exact afterApproval_broken cfg env intent token coid .APPROVED _ hbroken

/-! ## A recovery -/

/-- Where the ledger was read, the order still stands, unless it has been rehydrated since. -/
def Rehydratable (c : String) (states : OrderedDict String OrderState) (w : GatewayWorld) : Prop :=
  OnePath c w ∧ (c ∉ w.acks.keys → ∀ state, states.get? c = some state → StandsAt c state w)

/-- Completing an order's lifecycle from where the ledger has it lengthens its path. -/
theorem completeLedgerToAcked_onePath {coid : String} {state : Option OrderState}
    {w : GatewayWorld} (env : GatewayEnv) (hw : OnePath coid w)
    (h : ∀ s, state = some s → StandsAt coid s w) :
    OnePath coid (finalState ((completeLedgerToAcked env coid state).run w)) := by
  have hedge : ∀ s event, event.isTrading = true → Ensures (StandsAt coid s)
      (applyAndLedger env s event coid) (StandsAt coid) (OnePath coid) :=
    fun s event htrading => applyAndLedger_ensures htrading env s coid
  have hdone : ∀ s, Ensures (StandsAt coid s) (pure () : GatewayM Unit) (fun _ => OnePath coid)
      (OnePath coid) := fun s => Ensures.pure fun u hu => hu.onePath
  unfold completeLedgerToAcked
  split
  · exact (Ensures.bind (hedge _ .SUBMIT rfl) fun submitted =>
      Ensures.bind (hedge submitted .ACK rfl) hdone).finalState (h _ rfl)
  · exact (Ensures.bind (hedge _ .ACK rfl) hdone).finalState (h _ rfl)
  · exact hw

theorem rehydrateAck_onePath {c : String} (env : GatewayEnv)
    (intents : String → Option OrderIntent) (openIds : List String)
    (states : OrderedDict String OrderState) (coid : String) (orderId : Option String)
    (filled : ContractCentis) {w : GatewayWorld} (hnew : coid ∉ w.acks.keys)
    (hw : Rehydratable c states w) :
    Rehydratable c states
      (finalState ((rehydrateAck env intents openIds states coid orderId filled).run w)) := by
  have hadopt : Frames (GatewayWorld.history c)
      (adoptIfOpen env openIds coid filled orderId (intents coid)) :=
    adoptIfOpen_moves (fun _ _ _ => rfl) fun _ _ _ => rfl
  have hacks : (finalState ((rehydrateAck env intents openIds states coid orderId filled).run
      w)).acks = w.acks.set coid ⟨orderId, filled⟩ := congrArg Standing.acks
    (rehydrateAck_standing env intents openIds states coid orderId filled w)
  by_cases hmine : coid = c
  · subst hmine
    refine ⟨?_, fun hfresh => absurd ?_ hfresh⟩
    · have hpath := completeLedgerToAcked_onePath (w := w.withAck coid ⟨orderId, filled⟩) env
        hw.1 (hw.2 hnew)
      rw [rehydrateAck, EStateM.run_bind, EStateM.run_modify]
      dsimp only
      rw [EStateM.run_bind]
      cases hrun : (completeLedgerToAcked env coid (states.get? coid)).run
          (w.withAck coid ⟨orderId, filled⟩) with
      | error e u => simpa [hrun] using hpath
      | ok _ u =>
          rw [hrun] at hpath
          exact hpath.of_history (hadopt u)
    · rw [hacks]
      simp
  · have hframe : Frames (GatewayWorld.history c)
        (rehydrateAck env intents openIds states coid orderId filled) :=
      Moves.bind (Moves.modify fun w => rfl) fun _ =>
        Moves.bind (completeLedgerToAcked_moves (applyAndLedger_history hmine env) _)
          fun _ => hadopt
    refine ⟨hw.1.of_history (hframe w), fun hfresh state hstate => ?_⟩
    refine (hw.2 (fun hc => hfresh ?_) state hstate).of_history (hframe w)
    rw [hacks]
    simp [hc]

theorem rehydrateEach_onePath {c : String} (env : GatewayEnv)
    (intents : String → Option OrderIntent) (openIds : List String)
    (states : OrderedDict String OrderState) (records : List WalRecord) :
    Moves (Keeps (Rehydratable c states)) (rehydrateEach env intents openIds states records) := by
  induction records with
  | nil => exact Moves.pure _
  | cons walRecord rest ih =>
      cases walRecord with
      | intent coid intent => exact ih
      | ack coid orderId filled =>
          unfold rehydrateEach
          refine Moves.get_bind fun w => ?_
          split
          · exact ih w
          · rename_i hnew
            intro hw
            have hone := rehydrateAck_onePath env intents openIds states coid orderId filled hnew hw
            rw [EStateM.run_bind]
            cases hrun : (rehydrateAck env intents openIds states coid orderId filled).run w with
            | error e u => simpa [hrun] using hone
            | ok _ u =>
                rw [hrun] at hone
                have hboth : Moves (Keeps (Rehydratable c states)) (do
                    let reconciled ← rehydrateEach env intents openIds states rest
                    return reconciled + 1) := Moves.bind ih fun _ => Moves.pure _
                exact hboth u hone

/-- **A recovery** leaves every order on one path. -/
theorem recover_onePath (cfg : GatewayConfig) (env : GatewayEnv) {c : String} {w : GatewayWorld}
    (hw : OnePath c w) : OnePath c (finalState ((recover cfg env).run w)) := by
  rw [recover]
  split
  · exact hw
  rw [EStateM.run_bind, readLedger_run]
  split_ifs
  · exact hw
  dsimp only
  split
  · exact hw
  rw [EStateM.run_bind, readWal_run]
  split_ifs
  · exact hw
  dsimp only
  rw [EStateM.run_bind, readOpenOrders_run]
  split_ifs
  · exact hw
  dsimp only
  have hopen : ∀ n, Frames (GatewayWorld.history c)
      (openOrHalt env (walRead cfg w) (venueRead cfg w) n) := by
    intro n
    refine Moves.get_bind fun u => ?_
    have hthen : ∀ (event : Event) (f : GatewayWorld → GatewayWorld) (report : RecoveryReport),
        historyOf c [event] = [] → (∀ w, (f w).history c = w.history c) →
          Frames (GatewayWorld.history c)
            (do record env event; modify f; return report : GatewayM RecoveryReport) :=
      fun event f report hevent hf => Moves.bind (record_history hevent env) fun _ =>
        Moves.bind (Moves.modify hf) fun _ => Moves.pure _
    split
    · rename_i halt hhalt
      obtain ⟨order, -, rfl⟩ := Option.map_eq_some_iff.mp hhalt
      exact hthen _ GatewayWorld.markedHalted _ (historyOf_gatewayEvent (by decide)) (fun _ => rfl) u
    · exact hthen _ GatewayWorld.opened _ (historyOf_gatewayEvent (by decide)) (fun _ => rfl) u
  have hrehydrated : OnePath c (finalState
      ((rehydrateFromWal env (ledgerRead cfg w) (walRead cfg w) (venueRead cfg w)).run w)) := by
    rw [rehydrateFromWal, EStateM.run_bind]
    cases hfold : foldLedgerStates (ledgerRead cfg w) with
    | error text => exact hw
    | ok states =>
        refine (rehydrateEach_onePath env _ _ states _ w ⟨hw, fun _ state hstate => ?_⟩).1
        obtain ⟨stands, hstands⟩ := hw
        unfold ledgerRead at hfold
        split at hfold
        · rw [foldLedgerStates_get? hfold hstands] at hstate
          split at hstate
          · cases hstate
          · cases hstate
            exact hstands
        · cases hfold
          cases hstate
  rw [EStateM.run_bind]
  cases hrun : (rehydrateFromWal env (ledgerRead cfg w) (walRead cfg w) (venueRead cfg w)).run w with
  | error e u => simpa [hrun] using hrehydrated
  | ok n u =>
      rw [hrun] at hrehydrated
      exact hrehydrated.of_history (hopen n u)

end OrderGateway

end Windbreak
