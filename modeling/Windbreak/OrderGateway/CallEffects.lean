import Windbreak.OrderGateway.Gateway

/-!
# What a submission leaves

Of the state of a gateway, `Standing` keeps what later calls decide by and what has been done.  The
lemmas here say what the parts of a call leave of it, whatever the collaborators do.

* **`gateBeforeVerify_none`** — the gates let an intent through exactly when it passes.
* **`submitNew_standing`** — a submission whose records are written is its placement.
* **`submitNew_of_not_prepared`** — any other raises before it calls the submitter.
-/

namespace Windbreak

namespace OrderGateway

open Effects

/-! ## What matters later -/

/-- What later calls decide by, the halt aside, and what was done so far. -/
@[ext]
structure Standing where
  registry : InMemorySingleUseRegistry
  acks : OrderedDict String SubmissionAck
  acceptingApprovals : Bool
  ackedIds : List String
  submissions : List Submission
  accepted : List String

def GatewayWorld.standing (w : GatewayWorld) : Standing where
  registry := w.registry
  acks := w.acks
  acceptingApprovals := w.acceptingApprovals
  ackedIds := w.wal.ackedIds
  submissions := w.submissions
  accepted := w.accepted

/-! ## Primitive effects -/

section Primitive

variable {R : GatewayWorld → GatewayWorld → Prop} [IsPreorder GatewayWorld R]

theorem record_moves_one {event : Event} (hledger : ∀ w, R w (w.ledgered event))
    (env : GatewayEnv) : Moves R (record env event) := by
  rw [record]
  split
  · exact Moves.modify hledger
  · exact Moves.throw _
  · exact Moves.bind (Moves.modify hledger) fun _ => Moves.throw _

theorem record_moves (hledger : ∀ w event, R w (w.ledgered event)) (env : GatewayEnv)
    (event : Event) : Moves R (record env event) := record_moves_one (fun w => hledger w event) env

theorem reading_moves {α : Type} (kind : GatewayErrorKind) (x : Except String α) :
    Moves R (reading kind x) := by
  cases x with
  | ok a => exact Moves.pure a
  | error text => exact Moves.throw _

theorem applyAndLedger_moves (hledger : ∀ w event, R w (w.ledgered event)) (env : GatewayEnv)
    (state : OrderState) (event : OrderEvent) (coid : String) :
    Moves R (applyAndLedger env state event coid) := by
  rw [applyAndLedger]
  split
  · exact Moves.throw _
  · exact Moves.bind (record_moves hledger env _) fun _ => Moves.pure _

/-- An append moves the journal, or tears its last line. -/
theorem walAppend_moves {outcome : WalAppend} {walRecord : WalRecord}
    (happend : ∀ w : GatewayWorld, R w (w.withWal (w.wal.append walRecord)))
    (htear : ∀ w : GatewayWorld, R w (w.withWal w.wal.tear)) :
    Moves R (walAppend outcome walRecord) := by
  unfold walAppend
  split
  · exact Moves.modify happend
  · exact Moves.throw _
  · exact Moves.bind (Moves.modify htear) fun _ => Moves.throw _
  · exact Moves.bind (Moves.modify happend) fun _ => Moves.throw _

/-- A close moves what is in flight, and its fill may latch the halt. -/
theorem recordCloseFill_moves {cfg : GatewayConfig} {env : GatewayEnv} {intent : OrderIntent}
    {coid : String} {ack : SubmissionAck}
    (hrecord : ∀ held : ℤ, Moves R (record env (reduceOnlyViolationEvent coid intent.marketTicker
      held ack.filled.value (held - ack.filled.value))))
    (hinflight : ∀ (w : GatewayWorld) ticker size, R w (w.withInflight ticker size))
    (hlatch : ∀ w : GatewayWorld, R w w.latchedHalted) :
    Moves R (recordCloseFill cfg env intent coid ack) := by
  have hhalt : ∀ held, Moves R (haltOnViolation env intent coid ack held) := fun held =>
    Moves.bind (hrecord held) fun _ => Moves.bind (Moves.modify hlatch) fun _ => Moves.throw _
  refine Moves.bind (Moves.modify fun w => hinflight w _ _) fun _ => ?_
  refine Moves.ite (fun _ => Moves.bind (reading_moves _ _) fun positions => ?_)
    fun _ => Moves.pure _
  exact Moves.ite (fun _ => hhalt _) fun _ => Moves.pure _

/-- Completing a lifecycle takes edges. -/
theorem completeLedgerToAcked_moves {env : GatewayEnv} {coid : String}
    (hedge : ∀ state event, Moves R (applyAndLedger env state event coid))
    (state : Option OrderState) : Moves R (completeLedgerToAcked env coid state) := by
  unfold completeLedgerToAcked
  split
  · exact Moves.bind (hedge _ _) fun _ => Moves.bind (hedge _ _) fun _ => Moves.pure _
  · exact Moves.bind (hedge _ _) fun _ => Moves.pure _
  · exact Moves.pure _

/-- Adopting an order tracks it, and what it closes is in flight. -/
theorem adoptIfOpen_moves {env : GatewayEnv} {openIds : List String} {coid : String}
    {filled : ContractCentis} {orderId : Option String} {intent : Option OrderIntent}
    (htrack : ∀ (w : GatewayWorld) order noted, R w (w.withTracked order noted))
    (hinflight : ∀ (w : GatewayWorld) ticker size, R w (w.withInflight ticker size)) :
    Moves R (adoptIfOpen env openIds coid filled orderId intent) := by
  unfold adoptIfOpen
  split
  · refine Moves.ite (fun _ => ?_) fun _ => Moves.pure _
    refine Moves.bind (reading_moves _ _) fun side =>
      Moves.bind (Moves.modify fun w => htrack w _ _) fun _ => ?_
    exact Moves.ite (fun _ => Moves.modify fun w => hinflight w _ _) fun _ => Moves.pure _
  · exact Moves.pure _

end Primitive

theorem record_run (env : GatewayEnv) (event : Event) (w : GatewayWorld) :
    (record env event).run w =
      match env.record event with
      | .written => .ok () (w.ledgered event)
      | .lost => .error ⟨.ledger, "ledger append failed"⟩ w
      | .writtenThenRaised => .error ⟨.ledger, "ledger append failed"⟩ (w.ledgered event) := by
  rw [record]
  cases env.record event with
  | written => rfl
  | lost => rfl
  | writtenThenRaised => rfl

/-- The record of an edge, in the words of the ledger. -/
def edgeEvent (coid : String) (state : OrderState) (event : OrderEvent) (target : OrderState) :
    Event :=
  orderTransitionLedgeredEvent coid state.name event.name target.name

theorem applyAndLedger_written {env : GatewayEnv} {state target : OrderState} {event : OrderEvent}
    {coid : String} (hedge : state.transition event = some target)
    (h : env.record (edgeEvent coid state event target) = .written) (w : GatewayWorld) :
    (applyAndLedger env state event coid).run w =
      .ok target (w.ledgered (edgeEvent coid state event target)) := by
  rw [applyAndLedger, hedge]
  dsimp only
  rw [EStateM.run_bind, record_run]
  rw [edgeEvent] at h ⊢
  rw [h]
  rfl

theorem applyAndLedger_not_written {env : GatewayEnv} {state target : OrderState}
    {event : OrderEvent} {coid : String} (hedge : state.transition event = some target)
    (h : env.record (edgeEvent coid state event target) ≠ .written) (w : GatewayWorld) :
    ∃ e w', (applyAndLedger env state event coid).run w = .error e w' := by
  rw [applyAndLedger, hedge]
  dsimp only
  rw [EStateM.run_bind, record_run]
  rw [edgeEvent] at h
  cases houtcome : env.record
      (orderTransitionLedgeredEvent coid state.name event.name target.name) with
  | written => exact absurd houtcome h
  | lost => exact ⟨_, _, rfl⟩
  | writtenThenRaised => exact ⟨_, _, rfl⟩

/-! ## The gates -/

/-- The gates before verification let an intent through: a cached one when the gateway runs and
accepts approvals, any other when the exchange is open and a close fits as well. -/
structure Passes (cfg : GatewayConfig) (env : GatewayEnv) (intent : OrderIntent)
    (w : GatewayWorld) : Prop where
  running : w.halted = false
  accepting : w.acceptingApprovals = true
  status : clientOrderId cfg.sha256 intent ∉ w.acks.keys → cfg.hasStatusSource = true →
    env.status = .ok (some "open")
  closeFits : clientOrderId cfg.sha256 intent ∉ w.acks.keys → cfg.hasPositionSource = true →
    isClosingAction intent.action = true →
    ∃ positions, env.positions = .ok positions ∧
      (positionSnapshot w intent positions).admits = true

section Refusals

variable {R : GatewayWorld → GatewayWorld → Prop} [IsPreorder GatewayWorld R]

theorem statusGate_moves
    (hrefused : ∀ w coid reason, R w (w.ledgered (submissionRefusedEvent coid reason)))
    (cfg : GatewayConfig) (env : GatewayEnv) (coid : String) :
    Moves R (statusGate cfg env coid) := by
  refine Moves.ite (fun _ => Moves.pure _) fun _ => Moves.bind (reading_moves _ _) fun status => ?_
  refine Moves.ite (fun _ => Moves.pure _) fun _ => Moves.map ?_
  exact Moves.bind (record_moves_one (fun w => hrefused w _ _) env) fun _ => Moves.pure _

theorem reduceOnlyGate_moves
    (hreduced : ∀ w coid ticker held inflight requested reason,
      R w (w.ledgered (reduceOnlyRefusedEvent coid ticker held inflight requested reason)))
    (cfg : GatewayConfig) (env : GatewayEnv) (intent : OrderIntent) (coid : String) :
    Moves R (reduceOnlyGate cfg env intent coid) := by
  have hrefuse : ∀ snapshot, Moves R (refuseReduceOnly env coid snapshot) := fun snapshot =>
    Moves.bind (record_moves_one (fun w => hreduced w _ _ _ _ _ _) env) fun _ => Moves.pure _
  exact Moves.ite (fun _ => Moves.pure _) fun _ =>
    Moves.bind (reading_moves _ _) fun positions => Moves.get_bind fun w =>
      Moves.ite (fun _ => Moves.pure _) (fun _ => Moves.map (hrefuse _)) w

/-- The gates before verification leave at most a refusal. -/
theorem gateBeforeVerify_moves
    (hrefused : ∀ w coid reason, R w (w.ledgered (submissionRefusedEvent coid reason)))
    (hreduced : ∀ w coid ticker held inflight requested reason,
      R w (w.ledgered (reduceOnlyRefusedEvent coid ticker held inflight requested reason)))
    (cfg : GatewayConfig) (env : GatewayEnv) (intent : OrderIntent) (coid : String) :
    Moves R (gateBeforeVerify cfg env intent coid) := by
  have hrefuse : Moves R (refuseRecoveryPending env coid) :=
    Moves.bind (record_moves_one (fun w => hrefused w _ _) env) fun _ => Moves.pure _
  refine Moves.get_bind fun w => ?_
  refine Moves.ite (fun _ => Moves.map hrefuse) (fun _ => ?_) w
  refine Moves.ite (fun _ => Moves.pure _) fun _ =>
    Moves.bind (statusGate_moves hrefused cfg env coid) ?_
  rintro (_ | result)
  · exact reduceOnlyGate_moves hreduced cfg env intent coid
  · exact Moves.pure _

end Refusals

theorem some_map_ne_none {α : Type} {m : GatewayM α} {w w' : GatewayWorld} :
    (some <$> m).run w ≠ .ok none w' := by
  rw [run_map]
  cases m.run w with
  | ok a t => simp
  | error e t => simp

theorem statusGate_none {cfg : GatewayConfig} {env : GatewayEnv} {coid : String}
    {w w' : GatewayWorld} :
    (statusGate cfg env coid).run w = .ok none w' ↔
      w' = w ∧ (cfg.hasStatusSource = true → env.status = .ok (some "open")) := by
  rw [statusGate]
  cases cfg.hasStatusSource with
  | false => simp [eq_comm]
  | true =>
      rw [if_neg (by simp), EStateM.run_bind]
      cases hstatus : env.status with
      | error text => simp [reading]
      | ok status =>
          rw [reading, EStateM.run_pure]
          dsimp only
          by_cases hopen : status = some "open"
          · simp [hopen, eq_comm]
          · rw [if_neg hopen]
            refine iff_of_false some_map_ne_none fun h => hopen ?_
            exact Except.ok.inj (h.2 rfl)

theorem reduceOnlyGate_none {cfg : GatewayConfig} {env : GatewayEnv} {intent : OrderIntent}
    {coid : String} {w w' : GatewayWorld} :
    (reduceOnlyGate cfg env intent coid).run w = .ok none w' ↔
      w' = w ∧ (cfg.hasPositionSource = true → isClosingAction intent.action = true →
        ∃ positions, env.positions = .ok positions ∧
          (positionSnapshot w intent positions).admits = true) := by
  rw [reduceOnlyGate]
  by_cases hoff : cfg.hasPositionSource = false ∨ isClosingAction intent.action = false
  · rw [if_pos hoff, EStateM.run_pure]
    have hvacuous : cfg.hasPositionSource = true → isClosingAction intent.action = true → False := by
      rintro hsource hclosing
      rcases hoff with h | h
      · simp [h] at hsource
      · simp [h] at hclosing
    constructor
    · rintro ⟨⟩
      exact ⟨rfl, fun hsource hclosing => (hvacuous hsource hclosing).elim⟩
    · rintro ⟨rfl, -⟩
      rfl
  · rw [if_neg hoff, EStateM.run_bind]
    obtain ⟨hsource, hclosing⟩ := not_or.mp hoff
    rw [Bool.not_eq_false] at hsource hclosing
    cases hpositions : env.positions with
    | error text => simp [reading, hsource, hclosing]
    | ok positions =>
        rw [reading, EStateM.run_pure]
        dsimp only
        rw [EStateM.run_bind, EStateM.run_get]
        dsimp only
        by_cases hadmits : (positionSnapshot w intent positions).admits = true
        · rw [if_pos hadmits, EStateM.run_pure]
          constructor
          · rintro ⟨⟩
            exact ⟨rfl, fun _ _ => ⟨positions, rfl, hadmits⟩⟩
          · rintro ⟨rfl, -⟩
            rfl
        · rw [if_neg hadmits]
          refine iff_of_false some_map_ne_none fun h => hadmits ?_
          obtain ⟨positions', hpositions', hadmits'⟩ := h.2 hsource hclosing
          cases hpositions'
          exact hadmits'

/-- **The gates let an intent through exactly when it passes**, and then they touch nothing. -/
theorem gateBeforeVerify_none {cfg : GatewayConfig} {env : GatewayEnv} {intent : OrderIntent}
    {w w' : GatewayWorld} (hrunning : w.halted = false) :
    (gateBeforeVerify cfg env intent (clientOrderId cfg.sha256 intent)).run w = .ok none w' ↔
      w' = w ∧ Passes cfg env intent w := by
  rw [gateBeforeVerify, EStateM.run_bind, EStateM.run_get]
  dsimp only
  cases haccepting : w.acceptingApprovals with
  | false =>
      rw [if_pos rfl]
      refine iff_of_false some_map_ne_none fun h => ?_
      rw [h.2.accepting] at haccepting
      exact absurd haccepting (by decide)
  | true =>
      rw [if_neg (by decide)]
      by_cases hcached : clientOrderId cfg.sha256 intent ∈ w.acks.keys
      · rw [if_pos hcached, EStateM.run_pure]
        constructor
        · rintro ⟨⟩
          exact ⟨rfl, hrunning, haccepting, fun h => absurd hcached h, fun h => absurd hcached h⟩
        · rintro ⟨rfl, -⟩
          rfl
      · rw [if_neg hcached, EStateM.run_bind]
        have hopen : Passes cfg env intent w →
            (statusGate cfg env (clientOrderId cfg.sha256 intent)).run w = .ok none w :=
          fun h => statusGate_none.mpr ⟨rfl, h.status hcached⟩
        cases hstatus : (statusGate cfg env (clientOrderId cfg.sha256 intent)).run w with
        | error e t =>
            refine iff_of_false (by simp) fun h => ?_
            have hnone := hopen h.2
            rw [hstatus] at hnone
            cases hnone
        | ok verdict t =>
            cases verdict with
            | some result =>
                refine iff_of_false (by simp) fun h => ?_
                have hnone := hopen h.2
                rw [hstatus] at hnone
                cases hnone
            | none =>
                obtain ⟨rfl, hstatusOpen⟩ := statusGate_none.mp hstatus
                dsimp only
                rw [reduceOnlyGate_none]
                refine and_congr_right fun _ => ?_
                constructor
                · exact fun h => ⟨hrunning, haccepting, fun _ => hstatusOpen, fun _ => h⟩
                · exact fun h => h.closeFits hcached

/-! ## Submission -/

/-- Everything a submission records before it calls the submitter is written. -/
structure Prepared (cfg : GatewayConfig) (env : GatewayEnv) (coid : String) : Prop where
  journalled : cfg.hasWal = true → env.walIntent = .written
  approved : env.record (edgeEvent coid .INTENT_CREATED .APPROVE .APPROVED) = .written
  requested : env.record
    (edgeEvent coid .APPROVED .REQUEST_SUBMISSION .SUBMISSION_REQUESTED) = .written

/-- The world after the intent is journalled. -/
def GatewayWorld.intentJournalled (cfg : GatewayConfig) (w : GatewayWorld) (intent : OrderIntent)
    (coid : String) : GatewayWorld :=
  if cfg.hasWal then w.withWal (w.wal.append (.intent coid intent)) else w

/-- The world a submission calls the submitter in. -/
def GatewayWorld.prepared (cfg : GatewayConfig) (w : GatewayWorld) (intent : OrderIntent)
    (coid : String) : GatewayWorld :=
  ((w.intentJournalled cfg intent coid).ledgered
    (edgeEvent coid .INTENT_CREATED .APPROVE .APPROVED)).ledgered
      (edgeEvent coid .APPROVED .REQUEST_SUBMISSION .SUBMISSION_REQUESTED)

/-- The placement, and all that follows it. -/
def placeAndSettle (cfg : GatewayConfig) (env : GatewayEnv) (intent : OrderIntent)
    (token : SignedApprovalToken) (coid : String) : GatewayM GatewayResult := do
  let ack ← place cfg env intent token coid (isClosingAction intent.action)
  settlePlacement cfg env intent coid .SUBMISSION_REQUESTED ack

/-- What neither a ledger event nor a journalled intent changes. -/
structure IgnoresRecords {τ : Type} (f : GatewayWorld → τ) : Prop where
  ledgered : ∀ w event, f (w.ledgered event) = f w
  journalled : ∀ w coid intent, f (w.withWal (w.wal.append (.intent coid intent))) = f w
  torn : ∀ w, f (w.withWal w.wal.tear) = f w

/-- An intent record journals no acknowledgement. -/
theorem standing_ignoresRecords : IgnoresRecords GatewayWorld.standing where
  ledgered _ _ := rfl
  journalled w coid intent := by simp [GatewayWorld.standing, WalRecord.ackedId?]
  torn _ := rfl

theorem prepared_eq {τ : Type} {f : GatewayWorld → τ} (hf : IgnoresRecords f)
    (cfg : GatewayConfig) (w : GatewayWorld) (intent : OrderIntent) (coid : String) :
    f (w.prepared cfg intent coid) = f w := by
  have hjournalled : f (w.intentJournalled cfg intent coid) = f w := by
    unfold GatewayWorld.intentJournalled
    split
    · exact hf.journalled w coid intent
    · rfl
  rw [GatewayWorld.prepared, hf.ledgered, hf.ledgered, hjournalled]

theorem walAppendIntent_moves {τ : Type} {f : GatewayWorld → τ} (hf : IgnoresRecords f)
    (cfg : GatewayConfig) (env : GatewayEnv) (intent : OrderIntent) (coid : String) :
    Frames f (walAppendIntent cfg env intent coid) := by
  exact Moves.ite (fun _ => walAppend_moves (fun w => hf.journalled w coid intent) hf.torn)
    fun _ => Moves.pure _

theorem walAppendIntent_written {cfg : GatewayConfig} {env : GatewayEnv}
    (h : cfg.hasWal = true → env.walIntent = .written) (intent : OrderIntent) (coid : String)
    (w : GatewayWorld) :
    (walAppendIntent cfg env intent coid).run w = .ok () (w.intentJournalled cfg intent coid) := by
  unfold walAppendIntent GatewayWorld.intentJournalled
  split
  · rename_i hwired
    rw [h hwired]
    rfl
  · rfl

theorem walAppendIntent_not_written {cfg : GatewayConfig} {env : GatewayEnv}
    (hwired : cfg.hasWal = true) (h : env.walIntent ≠ .written) (intent : OrderIntent)
    (coid : String) (w : GatewayWorld) :
    ∃ e w', (walAppendIntent cfg env intent coid).run w = .error e w' := by
  unfold walAppendIntent
  rw [if_pos hwired]
  cases henv : env.walIntent with
  | written => exact absurd henv h
  | lost => exact ⟨_, _, rfl⟩
  | torn => exact ⟨_, _, rfl⟩
  | writtenThenRaised => exact ⟨_, _, rfl⟩

/-- **A submission that is prepared** calls the submitter in the prepared world. -/
theorem submitNew_of_prepared {cfg : GatewayConfig} {env : GatewayEnv} {coid : String}
    (h : Prepared cfg env coid) (intent : OrderIntent) (token : SignedApprovalToken)
    (w : GatewayWorld) :
    (submitNew cfg env intent token coid).run w =
      (placeAndSettle cfg env intent token coid).run (w.prepared cfg intent coid) := by
  rw [submitNew, EStateM.run_bind, walAppendIntent_written h.journalled]
  dsimp only
  rw [EStateM.run_bind, applyAndLedger_written rfl h.approved]
  dsimp only
  rw [EStateM.run_bind, applyAndLedger_written rfl h.requested]
  rfl

/-- **A submission that is not prepared** raises before it calls the submitter. -/
theorem submitNew_of_not_prepared {τ : Type} {f : GatewayWorld → τ} (hf : IgnoresRecords f)
    {cfg : GatewayConfig} {env : GatewayEnv} {coid : String} (h : ¬ Prepared cfg env coid)
    (intent : OrderIntent) (token : SignedApprovalToken) (w : GatewayWorld) :
    f (finalState ((submitNew cfg env intent token coid).run w)) = f w := by
  have hstart := walAppendIntent_moves hf cfg env intent coid
  have hedge : ∀ state event, Frames f (applyAndLedger env state event coid) :=
    fun state event => applyAndLedger_moves hf.ledgered env state event coid
  rw [submitNew, EStateM.run_bind]
  by_cases hjournalled : cfg.hasWal = true → env.walIntent = .written
  · have hwal := walAppendIntent_written hjournalled intent coid w
    have hw := hstart.of_ok hwal
    rw [hwal]
    dsimp only
    rw [EStateM.run_bind]
    by_cases happroved : env.record (edgeEvent coid .INTENT_CREATED .APPROVE .APPROVED) = .written
    · have hedged := applyAndLedger_written (by rfl) happroved (w.intentJournalled cfg intent coid)
      have hw' := ((hedge _ _).of_ok hedged).trans hw
      have hrequested : env.record
          (edgeEvent coid .APPROVED .REQUEST_SUBMISSION .SUBMISSION_REQUESTED) ≠ .written :=
        fun hrequested => h ⟨hjournalled, happroved, hrequested⟩
      obtain ⟨e, w', hraised⟩ := applyAndLedger_not_written (by rfl) hrequested
        ((w.intentJournalled cfg intent coid).ledgered
          (edgeEvent coid .INTENT_CREATED .APPROVE .APPROVED))
      rw [hedged]
      dsimp only
      rw [EStateM.run_bind, hraised]
      exact ((hedge _ _).of_error hraised).trans hw'
    · obtain ⟨e, w', hraised⟩ := applyAndLedger_not_written (by rfl) happroved
        (w.intentJournalled cfg intent coid)
      rw [hraised]
      exact ((hedge _ _).of_error hraised).trans hw
  · obtain ⟨hwired, hlost⟩ := Classical.not_imp.mp hjournalled
    obtain ⟨e, w', hraised⟩ := walAppendIntent_not_written hwired hlost intent coid w
    rw [hraised]
    exact hstart.of_error hraised

namespace GatewayEnv

/-- The venue takes the order. -/
def takes (env : GatewayEnv) : Bool :=
  match env.placement with
  | .refused _ => false
  | .acknowledged _ | .takenThenRaised _ _ => true

/-- The acknowledgement that reaches the cache: the submitter returned it, and its append to the
journal returned as well. -/
def cachedAck? (cfg : GatewayConfig) (env : GatewayEnv) : Option SubmissionAck :=
  match env.placement with
  | .acknowledged ack => if cfg.hasWal = true ∧ env.walAck ≠ .written then none else some ack
  | .refused _ | .takenThenRaised _ _ => none

/-- The acknowledgement reaches the journal. -/
def journalsAck (cfg : GatewayConfig) (env : GatewayEnv) : Bool :=
  match env.placement with
  | .acknowledged _ =>
    cfg.hasWal && (env.walAck == .written || env.walAck == .writtenThenRaised)
  | .refused _ | .takenThenRaised _ _ => false

end GatewayEnv

/-- What a placement leaves of what matters later: one more call of the submitter, one more order
at the venue when it takes it, the acknowledgement in the cache and the journal as far as it got. -/
def Standing.placed (cfg : GatewayConfig) (env : GatewayEnv) (intent : OrderIntent)
    (token : SignedApprovalToken) (coid : String) (s : Standing) : Standing :=
  { s with
    acks := match env.cachedAck? cfg with
      | some ack => s.acks.set coid ack
      | none => s.acks
    ackedIds := s.ackedIds ++ if env.journalsAck cfg then [coid] else []
    submissions := s.submissions ++ [⟨intent, token, env.clock,
      isClosingAction intent.action && cfg.submitterIsReduceOnlyCapable⟩]
    accepted := s.accepted ++ if env.takes then [coid] else [] }

/-- What follows the cached acknowledgement leaves alone what matters later. -/
theorem settle_tail_moves (cfg : GatewayConfig) (env : GatewayEnv) (intent : OrderIntent)
    (coid : String) (ack : SubmissionAck) :
    Frames GatewayWorld.standing (do
      trackIfResting env coid intent ack
      let state ← applyAndLedger env .SUBMISSION_REQUESTED .SUBMIT coid
      let state ← applyAndLedger env state .ACK coid
      if isClosingAction intent.action then recordCloseFill cfg env intent coid ack else pure ()
      return ⟨some .OK, state, some ack, .ACKED, none, coid, none⟩ : GatewayM GatewayResult) := by
  have hedge : ∀ state event, Frames GatewayWorld.standing (applyAndLedger env state event coid) :=
    fun state event => applyAndLedger_moves (fun _ _ => rfl) env state event coid
  have htrack : Frames GatewayWorld.standing (trackIfResting env coid intent ack) := by
    rw [trackIfResting]
    split
    · exact Moves.pure _
    · exact Moves.bind (reading_moves _ _) fun side => Moves.modify fun w => rfl
  have hfill : Frames GatewayWorld.standing (recordCloseFill cfg env intent coid ack) :=
    recordCloseFill_moves (fun _ => record_moves (fun _ _ => rfl) env _) (fun _ _ _ => rfl)
      fun _ => rfl
  refine Moves.bind htrack fun _ => Moves.bind (hedge _ _) fun _ => Moves.bind (hedge _ _) fun _ =>
    Moves.ite (fun _ => Moves.bind hfill fun _ => Moves.pure _) fun _ => Moves.pure _

theorem placeAndSettle_standing (cfg : GatewayConfig) (env : GatewayEnv) (intent : OrderIntent)
    (token : SignedApprovalToken) (coid : String) (w : GatewayWorld) :
    (finalState ((placeAndSettle cfg env intent token coid).run w)).standing =
      w.standing.placed cfg env intent token coid := by
  rw [placeAndSettle, EStateM.run_bind, place, EStateM.run_bind, EStateM.run_modify]
  cases hplacement : env.placement with
  | refused text =>
      simp [GatewayEnv.cachedAck?, GatewayEnv.journalsAck, GatewayEnv.takes, hplacement,
        GatewayWorld.standing, Standing.placed]
  | takenThenRaised restingId text =>
      simp [GatewayEnv.cachedAck?, GatewayEnv.journalsAck, GatewayEnv.takes, hplacement,
        GatewayWorld.standing, Standing.placed]
  | acknowledged ack =>
      dsimp only
      rw [EStateM.run_bind, EStateM.run_modify]
      dsimp only
      rw [EStateM.run_pure]
      dsimp only
      rw [settlePlacement, EStateM.run_bind, walAppendAck]
      set u := (w.submitted ⟨intent, token, env.clock,
        isClosingAction intent.action && cfg.submitterIsReduceOnlyCapable⟩).venueTook coid
          (restingOrder intent ack.orderId) with hu
      cases hwired : cfg.hasWal with
      | false =>
          rw [if_neg (by decide), EStateM.run_pure]
          dsimp only
          rw [EStateM.run_bind, EStateM.run_modify]
          dsimp only
          refine (settle_tail_moves cfg env intent coid ack _).trans ?_
          simp [GatewayEnv.cachedAck?, GatewayEnv.journalsAck, GatewayEnv.takes, hplacement,
            hwired, GatewayWorld.standing, Standing.placed, hu]
      | true =>
          rw [if_pos rfl]
          cases hack : env.walAck with
          | written =>
              unfold walAppend
              rw [EStateM.run_modify]
              dsimp only
              rw [EStateM.run_bind, EStateM.run_modify]
              dsimp only
              refine (settle_tail_moves cfg env intent coid ack _).trans ?_
              simp [GatewayEnv.cachedAck?, GatewayEnv.journalsAck, GatewayEnv.takes, hplacement,
                hwired, hack, GatewayWorld.standing, Standing.placed, hu, WalRecord.ackedId?]
          | lost =>
              simp [walAppend, GatewayEnv.cachedAck?, GatewayEnv.journalsAck, GatewayEnv.takes,
                hplacement, hwired, hack, GatewayWorld.standing, Standing.placed, hu]
          | torn =>
              simp [walAppend, GatewayEnv.cachedAck?, GatewayEnv.journalsAck, GatewayEnv.takes,
                hplacement, hwired, hack, GatewayWorld.standing, Standing.placed, hu]
          | writtenThenRaised =>
              simp [walAppend, GatewayEnv.cachedAck?, GatewayEnv.journalsAck, GatewayEnv.takes,
                hplacement, hwired, hack, GatewayWorld.standing, Standing.placed, hu, WalRecord.ackedId?]

/-- **What a prepared submission leaves** is what its placement leaves. -/
theorem submitNew_standing {cfg : GatewayConfig} {env : GatewayEnv} {coid : String}
    (h : Prepared cfg env coid) (intent : OrderIntent) (token : SignedApprovalToken)
    (w : GatewayWorld) :
    (finalState ((submitNew cfg env intent token coid).run w)).standing =
      w.standing.placed cfg env intent token coid := by
  rw [submitNew_of_prepared h, placeAndSettle_standing, prepared_eq standing_ignoresRecords]

end OrderGateway

end Windbreak
