import Windbreak.OrderGateway.Cycles
import Windbreak.OrderGateway.Settlement

/-!
# Runs with the cycles in them

What a cycle and a recovery can do to the gateway they work beside, and the machine whose steps are
the calls, the cycles, the cancel-all and the seam that halts.

* **`runOnce_moves`, `sweepOnce_moves`, `cancelAll_moves`** — a cycle is made of records, retired
  orders and cancels, and a reconciler may latch the gateway.
* **`recover_of_opens`, `recover_of_not_opens`** — exactly when a recovery lets the gateway accept.
-/

namespace Windbreak

namespace OrderGateway

open Machine Effects

/-! ## What a cycle is made of -/

section Cycles

variable {R : GatewayWorld → GatewayWorld → Prop} [IsPreorder GatewayWorld R]

theorem readAll_moves (env : CycleEnv) : Moves R (readAll env) := by
  refine Moves.get_bind fun w => ?_
  split
  · exact Std.Refl.refl w
  · exact Std.Refl.refl w

theorem getOpenOrders_moves (env : CycleEnv) : Moves R (getOpenOrders env) := by
  refine Moves.get_bind fun w => ?_
  split
  · exact Std.Refl.refl w
  · exact Std.Refl.refl w

theorem trackedOrders_moves : Moves R trackedOrders := fun w => Std.Refl.refl w

theorem cancelOrder_moves (hcancel : ∀ w id, R w (withoutOrder id w)) (env : CycleEnv)
    (orderId : String) : Moves R (cancelOrder env orderId) := by
  rw [cancelOrder]
  split
  · exact Moves.modify fun w => hcancel w orderId
  · exact Moves.throw _
  · exact Moves.bind (Moves.modify fun w => hcancel w orderId) fun _ => Moves.throw _

theorem heal_moves (hledger : ∀ w event, R w (w.ledgered event))
    (hretire : ∀ w order, R w (retired order w)) (env : CycleEnv)
    (states : OrderedDict String OrderState) (order : TrackedOrder) :
    Moves R (Reconciler.heal env states order) :=
  Moves.bind (applyAndLedger_moves hledger _ _ _ _) fun _ =>
    Moves.bind (record_moves hledger _ _) fun _ => Moves.modify fun w => hretire w order

theorem halt_moves (hledger : ∀ w event, R w (w.ledgered event))
    (hhalt : ∀ w : GatewayWorld, R w w.markedHalted) (env : CycleEnv)
    (reason ticker orderId coid : String) :
    Moves R (Reconciler.halt env reason ticker orderId coid) :=
  Moves.bind (record_moves hledger _ _) fun _ =>
    Moves.bind (Moves.modify hhalt) fun _ => Moves.pure _

theorem healEach_moves (hledger : ∀ w event, R w (w.ledgered event))
    (hretire : ∀ w order, R w (retired order w)) (hhalt : ∀ w : GatewayWorld, R w w.markedHalted)
    (env : CycleEnv) (openIds : List String) (fills : List Fill)
    (states : OrderedDict String OrderState) (healed : ℕ) (tracked : List TrackedOrder) :
    Moves R (Reconciler.healEach env openIds fills states healed tracked) := by
  induction tracked generalizing healed with
  | nil => exact Moves.pure _
  | cons order rest ih =>
      refine Moves.ite (fun _ => ih healed) fun _ => Moves.ite (fun _ => ?_) fun _ => ?_
      · exact halt_moves hledger hhalt env _ _ _ _
      · exact Moves.bind (heal_moves hledger hretire env states order) fun _ => ih (healed + 1)

/-- **A reconcile cycle** records, retires and halts. -/
theorem runOnce_moves (hledger : ∀ w event, R w (w.ledgered event))
    (hretire : ∀ w order, R w (retired order w)) (hhalt : ∀ w : GatewayWorld, R w w.markedHalted)
    (env : CycleEnv) : Moves R (Reconciler.runOnce env) := by
  refine Moves.bind (getOpenOrders_moves env) fun openOrders => ?_
  refine Moves.bind (reading_moves _ _) fun fills => ?_
  refine Moves.bind trackedOrders_moves fun tracked => ?_
  split
  · exact halt_moves hledger hhalt env _ _ _ _
  · exact Moves.bind (readAll_moves env) fun records => Moves.bind (reading_moves _ _) fun states =>
      healEach_moves hledger hretire hhalt env _ fills states 0 tracked

theorem resolveStale_moves (hledger : ∀ w event, R w (w.ledgered event))
    (hretire : ∀ w order, R w (retired order w)) (hcancel : ∀ w id, R w (withoutOrder id w))
    (env : CycleEnv) (view : Sweeper.CycleView) (counts : Sweeper.SweepCounts)
    (order : TrackedOrder) : Moves R (Sweeper.resolveStale env view counts order) := by
  have hedge : ∀ state event coid, Moves R (applyAndLedger env.toGatewayEnv state event coid) :=
    fun state event coid => applyAndLedger_moves hledger _ state event coid
  have hdone : Moves R (retireTrackedOrder order) := Moves.modify fun w => hretire w order
  refine Moves.bind (Moves.ite (fun _ => Moves.pure _) fun _ => hedge _ _ _) fun state => ?_
  refine Moves.ite (fun _ => ?_) fun _ => Moves.ite (fun _ => ?_) fun _ => Moves.pure _
  · exact Moves.bind (cancelOrder_moves hcancel env _) fun _ =>
      Moves.bind (hedge _ _ _) fun _ => Moves.bind hdone fun _ => Moves.pure _
  · exact Moves.bind (hedge _ _ _) fun _ => Moves.bind hdone fun _ => Moves.pure _

theorem resolveEach_moves (hledger : ∀ w event, R w (w.ledgered event))
    (hretire : ∀ w order, R w (retired order w)) (hcancel : ∀ w id, R w (withoutOrder id w))
    (env : CycleEnv) (view : Sweeper.CycleView) (counts : Sweeper.SweepCounts)
    (orders : List TrackedOrder) : Moves R (Sweeper.resolveEach env view counts orders) := by
  induction orders generalizing counts with
  | nil => exact Moves.pure _
  | cons order rest ih =>
      exact Moves.bind (resolveStale_moves hledger hretire hcancel env view counts order) ih

theorem freezeEach_moves (hledger : ∀ w event, R w (w.ledgered event))
    (hretire : ∀ w order, R w (retired order w)) (hcancel : ∀ w id, R w (withoutOrder id w))
    (policy : Sweeper.SweepPolicy) (env : CycleEnv) (view : Sweeper.CycleView)
    (tracked : List TrackedOrder) (counts : Sweeper.SweepCounts)
    (breaches : List (String × Sweeper.MoveBreach)) :
    Moves R (Sweeper.freezeEach policy env view tracked counts breaches) := by
  induction breaches generalizing counts with
  | nil => exact Moves.pure _
  | cons entry rest ih =>
      have hfreeze : Moves R (Sweeper.freezeTicker policy env view tracked counts entry.1 entry.2) :=
        Moves.bind (record_moves hledger _ _) fun _ =>
          Moves.bind (resolveEach_moves hledger hretire hcancel env view counts _) fun _ =>
            Moves.bind (record_moves hledger _ _) fun _ => Moves.pure _
      exact Moves.bind hfreeze ih

theorem expireEach_moves (hledger : ∀ w event, R w (w.ledgered event))
    (hretire : ∀ w order, R w (retired order w)) (hcancel : ∀ w id, R w (withoutOrder id w))
    (policy : Sweeper.SweepPolicy) (env : CycleEnv) (view : Sweeper.CycleView)
    (frozenTickers : List String) (counts : Sweeper.SweepCounts) (tracked : List TrackedOrder) :
    Moves R (Sweeper.expireEach policy env view frozenTickers counts tracked) := by
  induction tracked generalizing counts with
  | nil => exact Moves.pure _
  | cons order rest ih =>
      refine Moves.ite (fun _ => ih counts) fun _ => Moves.get_bind fun w => ?_
      have hresolve := Moves.bind
        (resolveStale_moves hledger hretire hcancel env view counts order) ih
      exact Moves.ite (fun _ => hresolve) (fun _ => ih counts) w

/-- **A sweep** records, retires and cancels. -/
theorem sweepOnce_moves (hledger : ∀ w event, R w (w.ledgered event))
    (hretire : ∀ w order, R w (retired order w)) (hcancel : ∀ w id, R w (withoutOrder id w))
    (policy : Sweeper.SweepPolicy) (env : CycleEnv) : Moves R (Sweeper.sweepOnce policy env) := by
  have hread : Moves R (Sweeper.readCycle env) :=
    Moves.bind (readAll_moves env) fun records => Moves.bind (reading_moves _ _) fun states =>
      Moves.bind (getOpenOrders_moves env) fun openOrders =>
        Moves.bind (reading_moves _ _) fun fills => Moves.pure _
  refine Moves.bind hread fun view => Moves.bind trackedOrders_moves fun tracked => ?_
  refine Moves.get_bind fun w => ?_
  have hrest := fun frozen : OrderedDict String Sweeper.MoveBreach =>
    Moves.bind (freezeEach_moves hledger hretire hcancel policy env view tracked ⟨0, 0, 0⟩
      frozen.items) fun counts =>
        Moves.bind (expireEach_moves hledger hretire hcancel policy env view frozen.keys counts
          tracked) fun counts => Moves.pure (⟨counts, frozen.keys⟩ : Sweeper.SweepOutcome)
  exact Moves.bind (reading_moves _ _) hrest w

theorem cancelEach_moves (hcancel : ∀ w id, R w (withoutOrder id w)) (env : CycleEnv)
    (orders : List OpenOrder) : Moves R (cancelEach env orders) := by
  induction orders with
  | nil => exact Moves.pure _
  | cons order rest ih =>
      have hone : Moves R (do cancelOrder env order.id; return 1 : GatewayM ℕ) :=
        Moves.bind (cancelOrder_moves hcancel env order.id) fun _ => Moves.pure _
      exact Moves.bind (Moves.tryCatch hone fun _ => Moves.pure _) fun _ =>
        Moves.bind ih fun _ => Moves.pure _

/-- **A cancel-all** only cancels. -/
theorem cancelAll_moves (hcancel : ∀ w id, R w (withoutOrder id w)) (env : CycleEnv) :
    Moves R (cancelAll env) := by
  refine Moves.tryCatch ?_ fun _ => Moves.pure _
  exact Moves.bind (getOpenOrders_moves env) fun openOrders =>
    Moves.bind (cancelEach_moves hcancel env openOrders) fun _ => Moves.pure _

end Cycles

/-! ## When a recovery opens -/

/-- The ledger as a recovery reads it. -/
def ledgerRead (cfg : GatewayConfig) (w : GatewayWorld) : List Event :=
  if cfg.hasLedgerReader then w.ledger else []

/-- The journal as a recovery reads it. -/
def walRead (cfg : GatewayConfig) (w : GatewayWorld) : List WalRecord :=
  if cfg.hasWal then w.wal.records else []

/-- The resting orders as a recovery reads them. -/
def venueRead (cfg : GatewayConfig) (w : GatewayWorld) : List OpenOrder :=
  if cfg.hasReconciliationSource then w.openOrders else []

/-- A recovery that ends by opening the gateway: everything it reads can be read, the ledger it reads
shows no halt, the journal rehydrates, every resting order is then tracked, and the completion is
recorded. -/
structure Opens (cfg : GatewayConfig) (env : GatewayEnv) (w : GatewayWorld) : Prop where
  wired : cfg.recoveryWired = true
  ledgerReadable : cfg.hasLedgerReader = true → env.ledgerReadRaises = false
  noHalt : ledgerShowsHalt (ledgerRead cfg w) = false
  walReadable : cfg.hasWal = true → w.wal.torn = false
  ordersReadable : cfg.hasReconciliationSource = true → env.openOrdersRaises = false
  clean : ∃ n u, (rehydrateFromWal env (ledgerRead cfg w) (walRead cfg w)
      (venueRead cfg w)).run w = .ok n u ∧
    (∀ order ∈ venueRead cfg w, order.id ∈ u.tracked.keys) ∧
    env.record (recoveryCompletedEvent n false) = .written

theorem readLedger_run (cfg : GatewayConfig) (env : GatewayEnv) (w : GatewayWorld) :
    (readLedger cfg env).run w =
      if cfg.hasLedgerReader = true ∧ env.ledgerReadRaises = true then
        .error ⟨.ledger, "ledger read failed"⟩ w
      else .ok (ledgerRead cfg w) w := by
  unfold readLedger ledgerRead
  rw [EStateM.run_bind, EStateM.run_get]
  cases cfg.hasLedgerReader <;> cases env.ledgerReadRaises <;> rfl

theorem readWal_run (cfg : GatewayConfig) (w : GatewayWorld) :
    (readWal cfg).run w =
      if cfg.hasWal = true ∧ w.wal.torn = true then
        .error ⟨.journal, "write-ahead log corrupt"⟩ w
      else .ok (walRead cfg w) w := by
  unfold readWal walRead WriteAheadLog.readAll
  rw [EStateM.run_bind, EStateM.run_get]
  dsimp only
  cases cfg.hasWal with
  | false => rfl
  | true => cases w.wal.torn <;> rfl

theorem readOpenOrders_run (cfg : GatewayConfig) (env : GatewayEnv) (w : GatewayWorld) :
    (readOpenOrders cfg env).run w =
      if cfg.hasReconciliationSource = true ∧ env.openOrdersRaises = true then
        .error ⟨.source, "open orders read failed"⟩ w
      else .ok (venueRead cfg w) w := by
  unfold readOpenOrders venueRead
  rw [EStateM.run_bind, EStateM.run_get]
  cases cfg.hasReconciliationSource <;> cases env.openOrdersRaises <;> rfl

/-- The halt latch and the approvals flag. -/
def GatewayWorld.flags (w : GatewayWorld) : Bool × Bool := (w.halted, w.acceptingApprovals)

theorem rehydrateEach_flags (env : GatewayEnv) (intents : String → Option OrderIntent)
    (openIds : List String) (states : OrderedDict String OrderState) (records : List WalRecord) :
    Frames GatewayWorld.flags (rehydrateEach env intents openIds states records) := by
  have hedge : ∀ state event coid, Frames GatewayWorld.flags (applyAndLedger env state event coid) :=
    fun state event coid => applyAndLedger_moves (fun _ _ => rfl) env state event coid
  have hcomplete : ∀ coid state, Frames GatewayWorld.flags (completeLedgerToAcked env coid state) :=
    fun coid => completeLedgerToAcked_moves fun state event => hedge state event coid
  have hadopt : ∀ coid filled orderId intent,
      Frames GatewayWorld.flags (adoptIfOpen env openIds coid filled orderId intent) :=
    fun _ _ _ _ => adoptIfOpen_moves (fun _ _ _ => rfl) fun _ _ _ => rfl
  induction records with
  | nil => exact Moves.pure _
  | cons walRecord rest ih =>
      cases walRecord with
      | intent coid intent => exact ih
      | ack coid orderId filled =>
          have hone : Frames GatewayWorld.flags
              (rehydrateAck env intents openIds states coid orderId filled) :=
            Moves.bind (Moves.modify fun w => rfl) fun _ =>
              Moves.bind (hcomplete _ _) fun _ => hadopt _ _ _ _
          have hboth := Moves.bind hone fun _ => Moves.bind ih fun reconciled =>
            Moves.pure (reconciled + 1)
          unfold rehydrateEach
          exact Moves.get_bind fun w => Moves.ite (fun _ => ih) (fun _ => hboth) w

theorem rehydrateFromWal_flags (env : GatewayEnv) (records : List Event)
    (walRecords : List WalRecord) (openOrders : List OpenOrder) :
    Frames GatewayWorld.flags (rehydrateFromWal env records walRecords openOrders) :=
  Moves.bind (reading_moves _ _) fun states => rehydrateEach_flags env _ _ states _

/-- The flags are left alone, or the gateway is latched and shut. -/
def Closes (w w' : GatewayWorld) : Prop := w'.flags = w.flags ∨ w'.flags = (true, false)

instance closesPreorder : IsPreorder GatewayWorld Closes where
  refl w := .inl rfl
  trans u v w h h' := by
    rcases h' with h' | h'
    · rcases h with h | h
      · exact .inl (h'.trans h)
      · exact .inr (h'.trans h)
    · exact .inr h'

/-- **A recovery that opens** leaves the latch alone and accepts approvals. -/
theorem recover_of_opens {cfg : GatewayConfig} {env : GatewayEnv} {w : GatewayWorld}
    (h : Opens cfg env w) :
    (finalState ((recover cfg env).run w)).flags = (w.halted, true) := by
  obtain ⟨n, u, hrun, htracked, hrecorded⟩ := h.clean
  have hledger : ¬ (cfg.hasLedgerReader = true ∧ env.ledgerReadRaises = true) := fun hraises => by
    simp [h.ledgerReadable hraises.1] at hraises
  have hwal : ¬ (cfg.hasWal = true ∧ w.wal.torn = true) := fun htorn => by
    simp [h.walReadable htorn.1] at htorn
  have horders : ¬ (cfg.hasReconciliationSource = true ∧ env.openOrdersRaises = true) :=
    fun hraises => by simp [h.ordersReadable hraises.1] at hraises
  have hflags := (rehydrateFromWal_flags env _ _ _).of_ok hrun
  have hwired : ¬ cfg.recoveryWired = false := by simp [h.wired]
  have hshown : ¬ ledgerShowsHalt (ledgerRead cfg w) = true := by simp [h.noHalt]
  rw [recover, if_neg hwired, EStateM.run_bind, readLedger_run, if_neg hledger]
  dsimp only
  rw [if_neg hshown, EStateM.run_bind, readWal_run, if_neg hwal]
  dsimp only
  rw [EStateM.run_bind, readOpenOrders_run, if_neg horders]
  dsimp only
  rw [EStateM.run_bind, hrun]
  dsimp only
  rw [openOrHalt, EStateM.run_bind, EStateM.run_get]
  dsimp only
  rw [buildUnaccountedHalt_eq_none.mpr htracked]
  dsimp only
  rw [EStateM.run_bind, record_run, hrecorded]
  exact congrArg (fun flags => (flags.1, true)) hflags

/-- **Any other recovery** leaves the flags alone, or latches the gateway and shuts it. -/
theorem recover_of_not_opens {cfg : GatewayConfig} {env : GatewayEnv} {w : GatewayWorld}
    (h : ¬ Opens cfg env w) : Closes w (finalState ((recover cfg env).run w)) := by
  by_cases hwired : cfg.recoveryWired = false
  · rw [recover, if_pos hwired]
    exact .inl rfl
  rw [recover, if_neg hwired, EStateM.run_bind, readLedger_run]
  by_cases hledger : cfg.hasLedgerReader = true ∧ env.ledgerReadRaises = true
  · rw [if_pos hledger]
    exact .inl rfl
  rw [if_neg hledger]
  dsimp only
  by_cases hshown : ledgerShowsHalt (ledgerRead cfg w) = true
  · rw [if_pos hshown]
    exact .inr rfl
  rw [if_neg hshown, EStateM.run_bind, readWal_run]
  by_cases hwal : cfg.hasWal = true ∧ w.wal.torn = true
  · rw [if_pos hwal]
    exact .inl rfl
  rw [if_neg hwal]
  dsimp only
  rw [EStateM.run_bind, readOpenOrders_run]
  by_cases horders : cfg.hasReconciliationSource = true ∧ env.openOrdersRaises = true
  · rw [if_pos horders]
    exact .inl rfl
  rw [if_neg horders]
  dsimp only
  rw [EStateM.run_bind]
  have hframe := rehydrateFromWal_flags env (ledgerRead cfg w) (walRead cfg w) (venueRead cfg w)
  cases hrun : (rehydrateFromWal env (ledgerRead cfg w) (walRead cfg w) (venueRead cfg w)).run w with
  | error e u => exact .inl (hframe.of_error hrun)
  | ok n u =>
      have hflags := hframe.of_ok hrun
      dsimp only
      rw [openOrHalt, EStateM.run_bind, EStateM.run_get]
      dsimp only
      cases hhalt : buildUnaccountedHalt (venueRead cfg w) u.tracked.keys
          (pendingIntents (walRead cfg w)) with
      | some halt =>
          dsimp only
          rw [EStateM.run_bind, record_run]
          cases env.record halt with
          | written => exact .inr rfl
          | lost => exact .inl hflags
          | writtenThenRaised => exact .inl hflags
      | none =>
          dsimp only
          rw [EStateM.run_bind, record_run]
          cases hrecord : env.record (recoveryCompletedEvent n false) with
          | written =>
              refine absurd ⟨by simpa using hwired, fun hreader => ?_, by simpa using hshown,
                fun hjournal => ?_, fun hsource => ?_, n, u, hrun,
                buildUnaccountedHalt_eq_none.mp hhalt, hrecord⟩ h
              · simpa [hreader] using hledger
              · simpa [hjournal] using hwal
              · simpa [hsource] using horders
          | lost => exact .inl hflags
          | writtenThenRaised => exact .inl hflags

/-! ## The machine -/

/-- A call to the gateway, a cycle that runs beside it, a cancel-all, or the seam that halts it. -/
inductive Activity where
  | call (call : GatewayCall)
  | reconcile (env : CycleEnv)
  | sweep (policy : Sweeper.SweepPolicy) (env : CycleEnv)
  | cancelAll (env : CycleEnv)
  | markHalted

/-- One activity of one gateway. -/
def activityStep (cfg : GatewayConfig) (w : GatewayWorld) :
    Activity → Option GatewayError × GatewayWorld
  | .call call => callStep cfg w call
  | .reconcile env => settle ((Reconciler.runOnce env).run w)
  | .sweep policy env => settle ((Sweeper.sweepOnce policy env).run w)
  | .cancelAll env => settle ((cancelAll env).run w)
  | .markHalted => settle (markHalted.run w)

/-- The transitions of one gateway with its cycles. -/
abbrev ActivityTransition := Transition GatewayWorld Activity (Option GatewayError)

end OrderGateway

end Windbreak
