import Windbreak.OrderGateway.Lifecycle

/-!
# What the gateway keeps books of

An acknowledgement is cached or journalled only for an order the ledger has already heard of, and
no order is tracked that is not cached.  So the cycles, which go by what is tracked, and a recovery,
which goes by what is journalled, always find the order in the ledger, and find it once.

* **`Bookkept`** — the three books, one against the other.
* **`processIntent_bookkept`, `recover_bookkept`** and the cycles keep it, whatever raises.
-/

namespace Windbreak

namespace OrderGateway

open Machine Effects

/-- Cached and journalled acknowledgements are of orders the ledger has heard of; tracked orders are
cached ones, each tracked once. -/
structure Bookkept (w : GatewayWorld) : Prop where
  cached : ∀ c ∈ w.acks.keys, w.history c ≠ []
  journalled : ∀ c ∈ w.wal.ackedIds, w.history c ≠ []
  owned : ∀ k order, w.tracked.get? k = some order → order.clientOrderId ∈ w.acks.keys
  once : ∀ k k' order order', w.tracked.get? k = some order → w.tracked.get? k' = some order' →
    order.clientOrderId = order'.clientOrderId → k = k'

/-- An order about to be cached: the ledger has heard of it, the cache has not. -/
structure Cacheable (coid : String) (w : GatewayWorld) : Prop where
  kept : Bookkept w
  fresh : coid ∉ w.acks.keys
  heard : w.history coid ≠ []

/-- An order about to be tracked: cached, and not tracked. -/
structure Trackable (coid : String) (w : GatewayWorld) : Prop where
  kept : Bookkept w
  cached : coid ∈ w.acks.keys
  untracked : ∀ k order, w.tracked.get? k = some order → order.clientOrderId ≠ coid

theorem history_ledgered_ne_nil {coid : String} {w : GatewayWorld} (h : w.history coid ≠ [])
    (event : Event) : (w.ledgered event).history coid ≠ [] := by
  rw [GatewayWorld.history, GatewayWorld.ledgered_ledger, historyOf_append]
  exact List.append_ne_nil_of_left_ne_nil h _

/-! ## Newly built gateways -/

theorem fresh_bookkept (cfg : GatewayConfig) : Bookkept (.fresh cfg) where
  cached c hc := absurd hc List.not_mem_nil
  journalled c hc := absurd hc List.not_mem_nil
  owned k order hk := by cases hk
  once k k' order order' hk := by cases hk

theorem rebuilt_bookkept {w : GatewayWorld} (hw : Bookkept w) (cfg : GatewayConfig) :
    Bookkept (w.rebuilt cfg) where
  cached c hc := absurd hc List.not_mem_nil
  journalled := hw.journalled
  owned k order hk := by cases hk
  once k k' order order' hk := by cases hk

/-! ## Updates that keep the books -/

namespace Bookkept

variable {w w' : GatewayWorld}

/-- What the books are about, the ledger aside. -/
theorem of_eq (hw : Bookkept w) (hacks : w'.acks = w.acks) (hids : w'.wal.ackedIds = w.wal.ackedIds)
    (htracked : w'.tracked = w.tracked) (hledger : w'.ledger = w.ledger) : Bookkept w' where
  cached c hc := by
    rw [GatewayWorld.history, hledger]
    exact hw.cached c (hacks ▸ hc)
  journalled c hc := by
    rw [GatewayWorld.history, hledger]
    exact hw.journalled c (hids ▸ hc)
  owned k order hk := by
    rw [hacks]
    exact hw.owned k order (htracked ▸ hk)
  once k k' order order' hk hk' := hw.once k k' order order' (htracked ▸ hk) (htracked ▸ hk')

theorem ledgered (hw : Bookkept w) (event : Event) : Bookkept (w.ledgered event) where
  cached c hc := history_ledgered_ne_nil (hw.cached c hc) event
  journalled c hc := history_ledgered_ne_nil (hw.journalled c hc) event
  owned := hw.owned
  once := hw.once

theorem untracked (hw : Bookkept w) (orderId : String) : Bookkept (w.untracked orderId) where
  cached := hw.cached
  journalled := hw.journalled
  owned k order hk := by
    rw [GatewayWorld.untracked_tracked, OrderedDict.get?_pop] at hk
    split at hk
    · cases hk
    · exact hw.owned k order hk
  once k k' order order' hk hk' hsame := by
    rw [GatewayWorld.untracked_tracked, OrderedDict.get?_pop] at hk hk'
    split at hk
    · cases hk
    · split at hk'
      · cases hk'
      · exact hw.once k k' order order' hk hk' hsame

theorem retired (hw : Bookkept w) (order : TrackedOrder) : Bookkept (retired order w) := by
  have huntracked := hw.untracked order.orderId
  unfold OrderGateway.retired retireInflight
  dsimp only
  split
  · split
    · exact huntracked.of_eq rfl rfl rfl rfl
    · exact huntracked.of_eq rfl rfl rfl rfl
  · exact huntracked

end Bookkept

theorem Cacheable.withAck {coid : String} {w : GatewayWorld} (h : Cacheable coid w)
    (ack : SubmissionAck) : Trackable coid (w.withAck coid ack) where
  kept :=
    { cached := fun c hc => by
        rcases OrderedDict.mem_keys_set.mp hc with rfl | hc
        · exact h.heard
        · exact h.kept.cached c hc
      journalled := h.kept.journalled
      owned := fun k order hk => OrderedDict.mem_keys_set.mpr (.inr (h.kept.owned k order hk))
      once := h.kept.once }
  cached := by simp
  untracked k order hk := by
    rintro rfl
    exact h.fresh (h.kept.owned k order hk)

theorem Trackable.withTracked {coid : String} {w : GatewayWorld} (h : Trackable coid w)
    {order : TrackedOrder} (horder : order.clientOrderId = coid) (noted : RestingOrderMeta) :
    Bookkept (w.withTracked order noted) where
  cached := h.kept.cached
  journalled := h.kept.journalled
  owned k entry hk := by
    rw [GatewayWorld.withTracked_tracked, OrderedDict.get?_set] at hk
    split at hk
    · cases hk
      rw [horder]
      exact h.cached
    · exact h.kept.owned k entry hk
  once k k' entry entry' hk hk' hsame := by
    rw [GatewayWorld.withTracked_tracked, OrderedDict.get?_set] at hk hk'
    split at hk
    · rename_i hnew
      split at hk'
      · rename_i hnew'
        exact hnew.trans hnew'.symm
      · cases hk
        exact absurd (hsame.symm.trans horder) (h.untracked k' entry' hk')
    · split at hk'
      · cases hk'
        exact absurd (hsame.trans horder) (h.untracked k entry hk)
      · exact h.kept.once k k' entry entry' hk hk' hsame

theorem Cacheable.of_eq {coid : String} {w w' : GatewayWorld} (h : Cacheable coid w)
    (hacks : w'.acks = w.acks) (hids : w'.wal.ackedIds = w.wal.ackedIds)
    (htracked : w'.tracked = w.tracked) (hledger : w'.ledger = w.ledger) : Cacheable coid w' where
  kept := h.kept.of_eq hacks hids htracked hledger
  fresh := by
    rw [hacks]
    exact h.fresh
  heard := by
    rw [GatewayWorld.history, hledger]
    exact h.heard

theorem cacheable_ledgered (coid : String) (w : GatewayWorld) (event : Event) :
    Keeps (Cacheable coid) w (w.ledgered event) := fun h =>
  ⟨h.kept.ledgered event, h.fresh, history_ledgered_ne_nil h.heard event⟩

theorem trackable_ledgered (coid : String) (w : GatewayWorld) (event : Event) :
    Keeps (Trackable coid) w (w.ledgered event) := fun h =>
  ⟨h.kept.ledgered event, h.cached, h.untracked⟩

theorem bookkept_ledgered (w : GatewayWorld) (event : Event) :
    Keeps Bookkept w (w.ledgered event) := fun h => h.ledgered event

/-! ## The cycles -/

theorem runOnce_bookkept (env : CycleEnv) : Moves (Keeps Bookkept) (Reconciler.runOnce env) :=
  runOnce_moves bookkept_ledgered (fun _ order h => h.retired order)
    (fun _ h => h.of_eq rfl rfl rfl rfl) env

theorem sweepOnce_bookkept (policy : Sweeper.SweepPolicy) (env : CycleEnv) :
    Moves (Keeps Bookkept) (Sweeper.sweepOnce policy env) :=
  sweepOnce_moves bookkept_ledgered (fun _ order h => h.retired order)
    (fun _ _ h => h.of_eq rfl rfl rfl rfl) policy env

theorem cancelAll_bookkept (env : CycleEnv) : Moves (Keeps Bookkept) (cancelAll env) :=
  cancelAll_moves (fun _ _ h => h.of_eq rfl rfl rfl rfl) env

/-! ## A call -/

theorem recordCloseFill_bookkept (cfg : GatewayConfig) (env : GatewayEnv) (intent : OrderIntent)
    (coid : String) (ack : SubmissionAck) :
    Moves (Keeps Bookkept) (recordCloseFill cfg env intent coid ack) :=
  recordCloseFill_moves (fun _ => record_moves bookkept_ledgered env _)
    (fun _ _ _ h => h.of_eq rfl rfl rfl rfl) fun _ h => h.of_eq rfl rfl rfl rfl

/-- Tracking an order, or not. -/
theorem trackIfResting_ensures (env : GatewayEnv) (coid : String) (intent : OrderIntent)
    (ack : SubmissionAck) :
    Ensures (Trackable coid) (trackIfResting env coid intent ack) (fun _ => Bookkept) Bookkept := by
  rw [trackIfResting]
  split
  · exact Ensures.pure fun w h => h.kept
  · exact Ensures.bind (Ensures.of_keeps (reading_moves _ _) fun w h => h.kept) fun side =>
      Ensures.modify fun w h => h.withTracked rfl _

theorem walAppendAck_cacheable (cfg : GatewayConfig) (env : GatewayEnv) (coid : String)
    (ack : SubmissionAck) : Moves (Keeps (Cacheable coid)) (walAppendAck cfg env coid ack) := by
  have happend : ∀ w : GatewayWorld, Keeps (Cacheable coid) w
      (w.withWal (w.wal.append (.ack coid ack.orderId ack.filled))) := by
    intro w h
    refine ⟨⟨h.kept.cached, fun c hc => ?_, h.kept.owned, h.kept.once⟩, h.fresh, h.heard⟩
    have hids : c ∈ w.wal.ackedIds ++ [coid] := by
      simpa [WalRecord.ackedId?] using hc
    rcases List.mem_append.mp hids with hold | hnew
    · exact h.kept.journalled c hold
    · rw [List.mem_singleton.mp hnew]
      exact h.heard
  exact Moves.ite (fun _ => walAppend_moves happend fun _ h => h.of_eq rfl rfl rfl rfl)
    fun _ => Moves.pure _

/-- What follows a placement keeps the books. -/
theorem settlePlacement_bookkept (cfg : GatewayConfig) (env : GatewayEnv) (intent : OrderIntent)
    (coid : String) (state : OrderState) (ack : SubmissionAck) :
    Ensures (Cacheable coid) (settlePlacement cfg env intent coid state ack) (fun _ => Bookkept)
      Bookkept := by
  have hedge : ∀ state event, Moves (Keeps Bookkept) (applyAndLedger env state event coid) :=
    fun state event => applyAndLedger_moves bookkept_ledgered env state event coid
  have hclose := recordCloseFill_bookkept cfg env intent coid ack
  refine Ensures.bind (Ensures.of_keeps (walAppendAck_cacheable cfg env coid ack)
    fun w h => h.kept) fun _ => ?_
  refine Ensures.bind (Q := fun _ => Trackable coid) (Ensures.modify fun w h => h.withAck ack)
    fun _ => ?_
  refine Ensures.bind (trackIfResting_ensures env coid intent ack) fun _ => ?_
  refine Ensures.of_keeps (P := Bookkept) ?_ fun w h => h
  refine Moves.bind (hedge _ _) fun _ => Moves.bind (hedge _ _) fun _ => ?_
  exact Moves.ite (fun _ => Moves.bind hclose fun _ => Moves.pure _) fun _ => Moves.pure _

theorem place_cacheable (cfg : GatewayConfig) (env : GatewayEnv) (intent : OrderIntent)
    (token : SignedApprovalToken) (coid : String) (closing : Bool) :
    Moves (Keeps (Cacheable coid)) (place cfg env intent token coid closing) := by
  refine Moves.bind (Moves.modify fun w h => h.of_eq rfl rfl rfl rfl) fun _ => ?_
  split
  · exact Moves.throw _
  · exact Moves.bind (Moves.modify fun w h => h.of_eq rfl rfl rfl rfl) fun _ => Moves.pure _
  · exact Moves.bind (Moves.modify fun w h => h.of_eq rfl rfl rfl rfl) fun _ => Moves.throw _

/-- An order the cache does not know. -/
structure Uncached (coid : String) (w : GatewayWorld) : Prop where
  kept : Bookkept w
  fresh : coid ∉ w.acks.keys

theorem walAppendIntent_uncached (cfg : GatewayConfig) (env : GatewayEnv) (intent : OrderIntent)
    (coid : String) : Moves (Keeps (Uncached coid)) (walAppendIntent cfg env intent coid) := by
  have happend : ∀ w : GatewayWorld, Keeps (Uncached coid) w
      (w.withWal (w.wal.append (.intent coid intent))) := by
    intro w h
    refine ⟨h.kept.of_eq rfl ?_ rfl rfl, h.fresh⟩
    simp [WalRecord.ackedId?]
  exact Moves.ite (fun _ => walAppend_moves happend
    fun _ h => ⟨h.kept.of_eq rfl rfl rfl rfl, h.fresh⟩) fun _ => Moves.pure _

/-- The first record of a submission makes the ledger hear of the order. -/
theorem approve_ensures (env : GatewayEnv) (coid : String) :
    Ensures (Uncached coid) (applyAndLedger env .INTENT_CREATED .APPROVE coid)
      (fun _ => Cacheable coid) Bookkept := by
  have hheard : ∀ w, Uncached coid w →
      Cacheable coid (w.ledgered (edgeEvent coid .INTENT_CREATED .APPROVE .APPROVED)) := by
    intro w h
    refine ⟨h.kept.ledgered _, h.fresh, ?_⟩
    rw [GatewayWorld.history, GatewayWorld.ledgered_ledger, historyOf_append, historyOf_edgeEvent]
    simp
  intro w h
  constructor
  · intro target u hrun
    obtain ⟨-, -, rfl⟩ := applyAndLedger_ok (by rfl) hrun
    exact hheard w h
  · intro e u hrun
    exact (applyAndLedger_moves bookkept_ledgered env _ _ _).of_error hrun h.kept

/-- **A submission keeps the books**, wherever it stops. -/
theorem submitNew_bookkept (cfg : GatewayConfig) (env : GatewayEnv) (intent : OrderIntent)
    (token : SignedApprovalToken) (coid : String) :
    Ensures (Uncached coid) (submitNew cfg env intent token coid) (fun _ => Bookkept) Bookkept := by
  refine Ensures.bind (Ensures.of_keeps (walAppendIntent_uncached cfg env intent coid)
    fun w h => h.kept) fun _ => ?_
  refine Ensures.bind (approve_ensures env coid) fun state => ?_
  refine Ensures.bind (Ensures.of_keeps (applyAndLedger_moves (cacheable_ledgered coid) env _ _ _)
    fun w h => h.kept) fun state => ?_
  refine Ensures.bind (Ensures.of_keeps (place_cacheable cfg env intent token coid _)
    fun w h => h.kept) fun ack => ?_
  exact settlePlacement_bookkept cfg env intent coid state ack

theorem verifyAndSubmit_bookkept (cfg : GatewayConfig) (env : GatewayEnv) (intent : OrderIntent)
    (token : SignedApprovalToken) (coid : String) :
    Moves (Keeps Bookkept) (verifyAndSubmit cfg env intent token coid) := by
  have hverify : Moves (Keeps Bookkept) (verify cfg env intent token) := fun w h =>
    h.of_eq rfl rfl rfl rfl
  refine Moves.bind hverify fun verdict => Moves.ite (fun _ => Moves.pure _) fun _ => ?_
  refine Moves.get_bind fun w => ?_
  split
  · exact fun h => h
  · rename_i hnew
    exact fun h => (submitNew_bookkept cfg env intent token coid).finalState
      ⟨h, OrderedDict.get?_eq_none_iff.mp hnew⟩

/-- **A call keeps the books.** -/
theorem processIntent_bookkept (cfg : GatewayConfig) (env : GatewayEnv) (intent : OrderIntent)
    (token : SignedApprovalToken) : Moves (Keeps Bookkept) (processIntent cfg env intent token) := by
  refine Moves.get_bind fun w => ?_
  refine Moves.ite (fun _ => Moves.throw _) (fun _ => ?_) w
  refine Moves.bind (gateBeforeVerify_moves (fun w _ _ => bookkept_ledgered w _)
    (fun w _ _ _ _ _ _ => bookkept_ledgered w _) cfg env intent _) fun refused => ?_
  split
  · exact Moves.pure _
  · exact verifyAndSubmit_bookkept cfg env intent token _

/-! ## A recovery -/

theorem adoptIfOpen_bookkept (env : GatewayEnv) (openIds : List String) (coid : String)
    (filled : ContractCentis) (orderId : Option String) (intent : Option OrderIntent) :
    Ensures (Trackable coid) (adoptIfOpen env openIds coid filled orderId intent)
      (fun _ => Bookkept) Bookkept := by
  unfold adoptIfOpen
  split
  · refine Ensures.ite (fun _ => ?_) fun _ => Ensures.pure fun w h => h.kept
    refine Ensures.bind (Ensures.of_keeps (reading_moves _ _) fun w h => h.kept) fun side => ?_
    refine Ensures.bind (Q := fun _ => Bookkept) (Ensures.modify fun w h => h.withTracked rfl _)
      fun _ => ?_
    exact Ensures.ite (fun _ => Ensures.modify fun w h => h.of_eq rfl rfl rfl rfl) fun _ =>
      Ensures.pure fun w h => h
  · exact Ensures.pure fun w h => h.kept

/-- Rehydrating one acknowledgement keeps the books. -/
theorem rehydrateAck_bookkept (env : GatewayEnv) (intents : String → Option OrderIntent)
    (openIds : List String) (states : OrderedDict String OrderState) (coid : String)
    (orderId : Option String) (filled : ContractCentis) :
    Ensures (Cacheable coid) (rehydrateAck env intents openIds states coid orderId filled)
      (fun _ => Bookkept) Bookkept := by
  refine Ensures.bind (Q := fun _ => Trackable coid) (Ensures.modify fun w h => h.withAck _)
    fun _ => ?_
  refine Ensures.bind (Ensures.of_keeps
    (completeLedgerToAcked_moves (fun state event =>
      applyAndLedger_moves (trackable_ledgered coid) env state event coid) _) fun w h => h.kept)
    fun _ => ?_
  exact adoptIfOpen_bookkept env openIds coid filled orderId _

theorem rehydrateEach_bookkept (env : GatewayEnv) (intents : String → Option OrderIntent)
    (openIds : List String) (states : OrderedDict String OrderState) {records : List WalRecord}
    {w : GatewayWorld} (hw : Bookkept w) (h : ∀ c ∈ ackedIn records, c ∈ w.wal.ackedIds) :
    Bookkept (finalState ((rehydrateEach env intents openIds states records).run w)) := by
  induction records generalizing w with
  | nil => exact hw
  | cons walRecord rest ih =>
      cases walRecord with
      | intent coid intent => exact ih hw h
      | ack coid orderId filled =>
          have hrest : ∀ c ∈ ackedIn rest, c ∈ w.wal.ackedIds := fun c hc => h c (.tail _ hc)
          unfold rehydrateEach
          rw [EStateM.run_bind, EStateM.run_get]
          dsimp only
          split
          · exact ih hw hrest
          · rename_i hnew
            have hcacheable : Cacheable coid w := ⟨hw, hnew, hw.journalled coid (h coid (.head _))⟩
            have hone := rehydrateAck_bookkept env intents openIds states coid orderId filled
            have hids := rehydrateAck_standing env intents openIds states coid orderId filled w
            rw [EStateM.run_bind]
            cases hrun : (rehydrateAck env intents openIds states coid orderId filled).run w with
            | error e u => exact (hone w hcacheable).2 e u hrun
            | ok _ u =>
                rw [hrun] at hids
                have hsame : u.wal.ackedIds = w.wal.ackedIds := congrArg Standing.ackedIds hids
                have hu := ih ((hone w hcacheable).1 _ u hrun) fun c hc => hsame ▸ hrest c hc
                dsimp only
                rw [EStateM.run_bind]
                cases hnext : (rehydrateEach env intents openIds states rest).run u with
                | error e v => simpa [hnext] using hu
                | ok n v => simpa [hnext] using hu

theorem rehydrateFromWal_bookkept (env : GatewayEnv) (records : List Event)
    {walRecords : List WalRecord} (openOrders : List OpenOrder) {w : GatewayWorld}
    (hw : Bookkept w) (h : ∀ c ∈ ackedIn walRecords, c ∈ w.wal.ackedIds) :
    Bookkept (finalState ((rehydrateFromWal env records walRecords openOrders).run w)) := by
  rw [rehydrateFromWal, EStateM.run_bind]
  cases hfold : foldLedgerStates records with
  | error text => exact hw
  | ok states => exact rehydrateEach_bookkept env _ _ states hw h

theorem openOrHalt_bookkept (env : GatewayEnv) (walRecords : List WalRecord)
    (openOrders : List OpenOrder) (reconciled : ℕ) :
    Moves (Keeps Bookkept) (openOrHalt env walRecords openOrders reconciled) := by
  refine Moves.get_bind fun w => ?_
  have hthen : ∀ (event : Event) (f : GatewayWorld → GatewayWorld) (report : RecoveryReport),
      (∀ w, Keeps Bookkept w (f w)) → Moves (Keeps Bookkept)
        (do record env event; modify f; return report : GatewayM RecoveryReport) :=
    fun event f report hf => Moves.bind (record_moves bookkept_ledgered env event) fun _ =>
      Moves.bind (Moves.modify hf) fun _ => Moves.pure _
  split
  · exact hthen _ GatewayWorld.markedHalted _ (fun w h => h.of_eq rfl rfl rfl rfl) w
  · exact hthen _ GatewayWorld.opened _ (fun w h => h.of_eq rfl rfl rfl rfl) w

/-- **A recovery keeps the books.** -/
theorem recover_bookkept (cfg : GatewayConfig) (env : GatewayEnv) :
    Moves (Keeps Bookkept) (recover cfg env) := by
  intro w hw
  rw [recover]
  split
  · exact hw
  rw [EStateM.run_bind, readLedger_run]
  split_ifs
  · exact hw
  dsimp only
  split
  · exact hw.of_eq rfl rfl rfl rfl
  rw [EStateM.run_bind, readWal_run]
  split_ifs
  · exact hw
  dsimp only
  rw [EStateM.run_bind, readOpenOrders_run]
  split_ifs
  · exact hw
  dsimp only
  have hwithin : ∀ c ∈ ackedIn (walRead cfg w), c ∈ w.wal.ackedIds := by
    intro c hc
    unfold walRead at hc
    split at hc
    · exact hc
    · exact absurd hc List.not_mem_nil
  have hrehydrated := rehydrateFromWal_bookkept env (ledgerRead cfg w) (venueRead cfg w) hw hwithin
  rw [EStateM.run_bind]
  cases hrun : (rehydrateFromWal env (ledgerRead cfg w) (walRead cfg w) (venueRead cfg w)).run w with
  | error e u =>
      rw [hrun] at hrehydrated
      exact hrehydrated
  | ok n u =>
      rw [hrun] at hrehydrated
      exact openOrHalt_bookkept env _ _ n u hrehydrated

end OrderGateway

end Windbreak
