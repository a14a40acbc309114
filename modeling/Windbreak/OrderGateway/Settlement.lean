import Windbreak.OrderGateway.GatewayRuns

/-!
# What a placement settles

A call that gets through to the submitter has its order journalled, cached, tracked and recorded,
and books it when it is a close.  Any of these may fail; what later calls see of the order depends
on how far they got.

* **`processIntent_of_places`** — a call that places an order is its placement; any other leaves no
  more than a token's slot and a few records.
* **`placeAndSettle_of_settled`** — a placement that is acknowledged and recorded ends by booking its
  close; any other books nothing.
* **`processIntent_latches_of_books`** — booking a close latches the halt exactly on a recorded
  violation.
-/

namespace Windbreak

namespace OrderGateway

open Effects

/-! ## Calls that place an order -/

/-- A call that reaches the submitter: its token verifies, it is new, and what precedes the
placement is recorded. -/
structure Places (cfg : GatewayConfig) (env : GatewayEnv) (intent : OrderIntent)
    (token : SignedApprovalToken) (w : GatewayWorld) : Prop where
  verified : Verified cfg env intent token w
  fresh : clientOrderId cfg.sha256 intent ∉ w.acks.keys
  prepared : Prepared cfg env (clientOrderId cfg.sha256 intent)

/-- The world such a call calls the submitter in. -/
def GatewayWorld.placing (cfg : GatewayConfig) (intent : OrderIntent)
    (token : SignedApprovalToken) (w : GatewayWorld) : GatewayWorld :=
  (w.consuming cfg token).prepared cfg intent (clientOrderId cfg.sha256 intent)

/-- A call whose token verifies hands over to its submission, or to the replay. -/
theorem processIntent_of_verified {cfg : GatewayConfig} {env : GatewayEnv} {intent : OrderIntent}
    {token : SignedApprovalToken} {w : GatewayWorld} (h : Verified cfg env intent token w) :
    (processIntent cfg env intent token).run w =
      match w.acks.get? (clientOrderId cfg.sha256 intent) with
      | some ack => .ok (replay (clientOrderId cfg.sha256 intent) ack) (w.consuming cfg token)
      | none => (submitNew cfg env intent token (clientOrderId cfg.sha256 intent)).run
          (w.consuming cfg token) := by
  have hregistry := verifyAndConsume_registry cfg.hmac token intent cfg.verificationKey env.clock
    w.registry
  rw [if_pos h.verdict] at hregistry
  rw [processIntent, EStateM.run_bind, EStateM.run_get]
  dsimp only
  rw [h.passes.running, if_neg Bool.false_ne_true, EStateM.run_bind,
    (gateBeforeVerify_none h.passes.running).mpr ⟨rfl, h.passes⟩]
  dsimp only
  rw [verifyAndSubmit, EStateM.run_bind, verify_run]
  dsimp only
  rw [if_neg (not_not.mpr h.verdict), EStateM.run_bind, EStateM.run_get, hregistry]
  dsimp only
  rw [GatewayWorld.withRegistry_acks]
  cases w.acks.get? (clientOrderId cfg.sha256 intent) with
  | some ack => rfl
  | none => rfl

/-- **A call that places an order** is its placement. -/
theorem processIntent_of_places {cfg : GatewayConfig} {env : GatewayEnv} {intent : OrderIntent}
    {token : SignedApprovalToken} {w : GatewayWorld} (h : Places cfg env intent token w) :
    (processIntent cfg env intent token).run w =
      (placeAndSettle cfg env intent token (clientOrderId cfg.sha256 intent)).run
        (w.placing cfg intent token) := by
  rw [processIntent_of_verified h.verified, OrderedDict.get?_eq_none_iff.mpr h.fresh]
  exact submitNew_of_prepared h.prepared intent token _

/-- What neither records nor the registry of tokens change. -/
structure IgnoresCalls {τ : Type} (f : GatewayWorld → τ) : Prop extends IgnoresRecords f where
  registered : ∀ w registry, f (w.withRegistry registry) = f w

/-- A call whose token does not verify leaves at most a refusal in the ledger. -/
theorem processIntent_of_not_verified {τ : Type} {f : GatewayWorld → τ}
    (hrefused : ∀ w coid reason, f (w.ledgered (submissionRefusedEvent coid reason)) = f w)
    (hreduced : ∀ w coid ticker held inflight requested reason,
      f (w.ledgered (reduceOnlyRefusedEvent coid ticker held inflight requested reason)) = f w)
    (hregistered : ∀ w registry, f (w.withRegistry registry) = f w)
    {cfg : GatewayConfig} {env : GatewayEnv} {intent : OrderIntent} {token : SignedApprovalToken}
    {w : GatewayWorld} (h : ¬ Verified cfg env intent token w) :
    f (finalState ((processIntent cfg env intent token).run w)) = f w := by
  rw [processIntent, EStateM.run_bind, EStateM.run_get]
  dsimp only
  cases hhalted : w.halted with
  | true =>
      rw [if_pos rfl]
      rfl
  | false =>
      have hgates : Frames f (gateBeforeVerify cfg env intent (clientOrderId cfg.sha256 intent)) :=
        gateBeforeVerify_moves hrefused hreduced cfg env intent _
      rw [if_neg (by decide), EStateM.run_bind]
      cases hgate : (gateBeforeVerify cfg env intent (clientOrderId cfg.sha256 intent)).run w with
      | error e u => exact hgates.of_error hgate
      | ok verdict u =>
          cases verdict with
          | some result => exact hgates.of_ok hgate
          | none =>
              obtain ⟨rfl, hpasses⟩ := (gateBeforeVerify_none hhalted).mp hgate
              have hrejected : (verifyAndConsume cfg.hmac token intent cfg.verificationKey
                  env.clock u.registry).1 ≠ .OK := fun hverdict => h ⟨hpasses, hverdict⟩
              dsimp only
              rw [verifyAndSubmit, EStateM.run_bind, verify_run]
              dsimp only
              rw [if_pos hrejected]
              exact hregistered u _

/-- **A call that places nothing** leaves no more than a token's slot and a few records. -/
theorem processIntent_of_not_places {τ : Type} {f : GatewayWorld → τ} (hf : IgnoresCalls f)
    {cfg : GatewayConfig} {env : GatewayEnv} {intent : OrderIntent} {token : SignedApprovalToken}
    {w : GatewayWorld} (h : ¬ Places cfg env intent token w) :
    f (finalState ((processIntent cfg env intent token).run w)) = f w := by
  by_cases hverified : Verified cfg env intent token w
  · rw [processIntent_of_verified hverified]
    cases hcached : w.acks.get? (clientOrderId cfg.sha256 intent) with
    | some ack => exact hf.registered w _
    | none =>
        have hnew := OrderedDict.get?_eq_none_iff.mp hcached
        have hprepared : ¬ Prepared cfg env (clientOrderId cfg.sha256 intent) := fun hprepared =>
          h ⟨hverified, hnew, hprepared⟩
        exact (submitNew_of_not_prepared hf.toIgnoresRecords hprepared intent token _).trans
          (hf.registered w _)
  · exact processIntent_of_not_verified (fun w _ _ => hf.ledgered w _)
      (fun w _ _ _ _ _ _ => hf.ledgered w _) hf.registered hverified

theorem placing_eq {τ : Type} {f : GatewayWorld → τ} (hf : IgnoresCalls f) (cfg : GatewayConfig)
    (intent : OrderIntent) (token : SignedApprovalToken) (w : GatewayWorld) :
    f (w.placing cfg intent token) = f w :=
  (prepared_eq hf.toIgnoresRecords cfg _ intent _).trans (hf.registered w _)

/-! ## Placements that are recorded -/

/-- Everything that follows the acknowledgement of a placement is recorded. -/
structure Settled (cfg : GatewayConfig) (env : GatewayEnv) (intent : OrderIntent) (coid : String)
    (ack : SubmissionAck) : Prop where
  journalled : cfg.hasWal = true → env.walAck = .written
  routed : ack.orderId.isSome = true → ∃ side, outcomeToSide intent.outcome = .ok side
  submitted : env.record (edgeEvent coid .SUBMISSION_REQUESTED .SUBMIT .SUBMITTED) = .written
  acked : env.record (edgeEvent coid .SUBMITTED .ACK .ACKED) = .written

namespace GatewayWorld

/-- The world after an acknowledgement is journalled. -/
def ackJournalled (cfg : GatewayConfig) (w : GatewayWorld) (coid : String) (ack : SubmissionAck) :
    GatewayWorld :=
  if cfg.hasWal then w.withWal (w.wal.append (.ack coid ack.orderId ack.filled)) else w

/-- The world after an acknowledged placement is tracked. -/
def placementTracked (env : GatewayEnv) (w : GatewayWorld) (coid : String) (intent : OrderIntent)
    (ack : SubmissionAck) : GatewayWorld :=
  match ack.orderId, outcomeToSide intent.outcome with
  | some orderId, .ok side => w.withTracked (trackedOrder coid orderId side intent ack.filled)
      (restingOrderMeta env orderId intent)
  | _, _ => w

/-- The world after a placement is taken, acknowledged and recorded. -/
def settled (cfg : GatewayConfig) (env : GatewayEnv) (w : GatewayWorld) (coid : String)
    (intent : OrderIntent) (token : SignedApprovalToken) (ack : SubmissionAck) : GatewayWorld :=
  ((((((w.submitted ⟨intent, token, env.clock,
    isClosingAction intent.action && cfg.submitterIsReduceOnlyCapable⟩).venueTook coid
      (restingOrder intent ack.orderId)).ackJournalled cfg coid ack).withAck coid
        ack).placementTracked env coid intent ack).ledgered
          (edgeEvent coid .SUBMISSION_REQUESTED .SUBMIT .SUBMITTED)).ledgered
            (edgeEvent coid .SUBMITTED .ACK .ACKED)

end GatewayWorld

/-- The last step of a submission. -/
def bookClose (cfg : GatewayConfig) (env : GatewayEnv) (intent : OrderIntent) (coid : String)
    (ack : SubmissionAck) : GatewayM GatewayResult := do
  if isClosingAction intent.action then recordCloseFill cfg env intent coid ack else pure ()
  return ⟨some .OK, .ACKED, some ack, .ACKED, none, coid, none⟩

theorem walAppendAck_written {cfg : GatewayConfig} {env : GatewayEnv}
    (h : cfg.hasWal = true → env.walAck = .written) (coid : String) (ack : SubmissionAck)
    (w : GatewayWorld) :
    (walAppendAck cfg env coid ack).run w = .ok () (w.ackJournalled cfg coid ack) := by
  unfold walAppendAck GatewayWorld.ackJournalled
  split
  · rename_i hwired
    rw [h hwired]
    rfl
  · rfl

theorem trackIfResting_routed {intent : OrderIntent} {ack : SubmissionAck}
    (h : ack.orderId.isSome = true → ∃ side, outcomeToSide intent.outcome = .ok side)
    (env : GatewayEnv) (coid : String) (w : GatewayWorld) :
    (trackIfResting env coid intent ack).run w =
      .ok () (w.placementTracked env coid intent ack) := by
  unfold trackIfResting GatewayWorld.placementTracked
  cases hid : ack.orderId with
  | none => rfl
  | some orderId =>
      obtain ⟨side, hside⟩ := h (by simp [hid])
      rw [hside]
      rfl

/-- **A placement that is acknowledged and recorded** ends by booking its close. -/
theorem placeAndSettle_of_settled {cfg : GatewayConfig} {env : GatewayEnv} {intent : OrderIntent}
    {coid : String} {ack : SubmissionAck} (hack : env.placement = .acknowledged ack)
    (h : Settled cfg env intent coid ack) (token : SignedApprovalToken) (w : GatewayWorld) :
    (placeAndSettle cfg env intent token coid).run w =
      (bookClose cfg env intent coid ack).run (w.settled cfg env coid intent token ack) := by
  rw [placeAndSettle, EStateM.run_bind, place, EStateM.run_bind, EStateM.run_modify, hack]
  dsimp only
  rw [EStateM.run_bind, EStateM.run_modify]
  dsimp only
  rw [EStateM.run_pure]
  dsimp only
  rw [settlePlacement, EStateM.run_bind, walAppendAck_written h.journalled]
  dsimp only
  rw [EStateM.run_bind, EStateM.run_modify]
  dsimp only
  rw [EStateM.run_bind, trackIfResting_routed h.routed]
  dsimp only
  rw [EStateM.run_bind, applyAndLedger_written rfl h.submitted]
  dsimp only
  rw [EStateM.run_bind, applyAndLedger_written rfl h.acked]
  rfl

/-! ## What the reduce-only rule remembers -/

/-- What a close is admitted by and may latch. -/
def GatewayWorld.latches (w : GatewayWorld) : Bool × Bool × OrderedDict String ContractCentis :=
  (w.halted, w.acceptingApprovals, w.inflightClosing)

theorem latches_ignoresCalls : IgnoresCalls GatewayWorld.latches where
  ledgered _ _ := rfl
  journalled _ _ _ := rfl
  torn _ := rfl
  registered _ _ := rfl

theorem settled_latches (cfg : GatewayConfig) (env : GatewayEnv) (w : GatewayWorld) (coid : String)
    (intent : OrderIntent) (token : SignedApprovalToken) (ack : SubmissionAck) :
    (w.settled cfg env coid intent token ack).latches = w.latches := by
  have hjournalled : ∀ w : GatewayWorld, (w.ackJournalled cfg coid ack).latches = w.latches := by
    intro w
    unfold GatewayWorld.ackJournalled
    split <;> rfl
  have htracked : ∀ w : GatewayWorld,
      (w.placementTracked env coid intent ack).latches = w.latches := by
    intro w
    unfold GatewayWorld.placementTracked
    split <;> rfl
  exact (htracked _).trans (hjournalled _)

theorem applyAndLedger_ok {env : GatewayEnv} {state target r : OrderState} {event : OrderEvent}
    {coid : String} {w w' : GatewayWorld} (hedge : state.transition event = some target)
    (h : (applyAndLedger env state event coid).run w = .ok r w') :
    r = target ∧ env.record (edgeEvent coid state event target) = .written ∧
      w' = w.ledgered (edgeEvent coid state event target) := by
  by_cases hwritten : env.record (edgeEvent coid state event target) = .written
  · rw [applyAndLedger_written hedge hwritten] at h
    cases h
    exact ⟨rfl, hwritten, rfl⟩
  · obtain ⟨e, u, hraised⟩ := applyAndLedger_not_written hedge hwritten w
    rw [hraised] at h
    cases h

theorem walAppendAck_ok {cfg : GatewayConfig} {env : GatewayEnv} {coid : String}
    {ack : SubmissionAck} {w w' : GatewayWorld}
    (h : (walAppendAck cfg env coid ack).run w = .ok () w') :
    cfg.hasWal = true → env.walAck = .written := by
  intro hwired
  unfold walAppendAck at h
  rw [if_pos hwired] at h
  cases hack : env.walAck with
  | written => rfl
  | lost => rw [hack] at h; cases h
  | torn => rw [hack] at h; cases h
  | writtenThenRaised => rw [hack] at h; cases h

theorem trackIfResting_ok {env : GatewayEnv} {coid : String} {intent : OrderIntent}
    {ack : SubmissionAck} {w w' : GatewayWorld}
    (h : (trackIfResting env coid intent ack).run w = .ok () w') :
    ack.orderId.isSome = true → ∃ side, outcomeToSide intent.outcome = .ok side := by
  intro hsome
  obtain ⟨orderId, hid⟩ := Option.isSome_iff_exists.mp hsome
  unfold trackIfResting at h
  rw [hid] at h
  obtain ⟨side, u, hside, -⟩ := run_bind_ok.mp h
  cases hread : outcomeToSide intent.outcome with
  | ok side => exact ⟨side, rfl⟩
  | error text => rw [hread] at hside; cases hside

theorem walAppendAck_latches (cfg : GatewayConfig) (env : GatewayEnv) (coid : String)
    (ack : SubmissionAck) : Frames GatewayWorld.latches (walAppendAck cfg env coid ack) := by
  refine Moves.ite (fun _ => ?_) fun _ => Moves.pure _
  unfold walAppend
  split
  · exact Moves.modify fun w => rfl
  · exact Moves.throw _
  · exact Moves.bind (Moves.modify fun w => rfl) fun _ => Moves.throw _
  · exact Moves.bind (Moves.modify fun w => rfl) fun _ => Moves.throw _

theorem trackIfResting_latches (env : GatewayEnv) (coid : String) (intent : OrderIntent)
    (ack : SubmissionAck) :
    Frames GatewayWorld.latches (trackIfResting env coid intent ack) := by
  rw [trackIfResting]
  split
  · exact Moves.pure _
  · exact Moves.bind (reading_moves _ _) fun side => Moves.modify fun w => rfl

/-- A placement that is acknowledged but not recorded books nothing. -/
theorem settlePlacement_of_not_settled {cfg : GatewayConfig} {env : GatewayEnv}
    {intent : OrderIntent} {coid : String} {ack : SubmissionAck}
    (h : ¬ Settled cfg env intent coid ack) (w : GatewayWorld) :
    (finalState ((settlePlacement cfg env intent coid .SUBMISSION_REQUESTED ack).run w)).latches =
      w.latches := by
  have hjournal := walAppendAck_latches cfg env coid ack
  have htrack := trackIfResting_latches env coid intent ack
  have hedge : ∀ state event, Frames GatewayWorld.latches (applyAndLedger env state event coid) :=
    fun state event => applyAndLedger_moves (fun _ _ => rfl) env state event coid
  rw [settlePlacement, EStateM.run_bind]
  cases hwal : (walAppendAck cfg env coid ack).run w with
  | error e u => exact hjournal.of_error hwal
  | ok _ u =>
    have hu := hjournal.of_ok hwal
    dsimp only
    rw [EStateM.run_bind, EStateM.run_modify]
    dsimp only
    rw [EStateM.run_bind]
    cases htracked : (trackIfResting env coid intent ack).run (u.withAck coid ack) with
    | error e v => exact (htrack.of_error htracked).trans hu
    | ok _ v =>
      have hv := (htrack.of_ok htracked).trans hu
      dsimp only
      rw [EStateM.run_bind]
      cases hsubmitted : (applyAndLedger env .SUBMISSION_REQUESTED .SUBMIT coid).run v with
      | error e x => exact ((hedge _ _).of_error hsubmitted).trans hv
      | ok submitted x =>
        obtain ⟨rfl, hsubmit, -⟩ := applyAndLedger_ok rfl hsubmitted
        have hx := ((hedge _ _).of_ok hsubmitted).trans hv
        dsimp only
        rw [EStateM.run_bind]
        cases hacked : (applyAndLedger env .SUBMITTED .ACK coid).run x with
        | error e y => exact ((hedge _ _).of_error hacked).trans hx
        | ok acked y =>
          obtain ⟨rfl, hack, -⟩ := applyAndLedger_ok rfl hacked
          exact absurd ⟨walAppendAck_ok hwal, trackIfResting_ok htracked, hsubmit, hack⟩ h

/-- **A placement that is not both acknowledged and recorded** books nothing. -/
theorem placeAndSettle_of_not_settled {cfg : GatewayConfig} {env : GatewayEnv}
    {intent : OrderIntent} {coid : String}
    (h : ∀ ack, env.placement = .acknowledged ack → ¬ Settled cfg env intent coid ack)
    (token : SignedApprovalToken) (w : GatewayWorld) :
    (finalState ((placeAndSettle cfg env intent token coid).run w)).latches = w.latches := by
  rw [placeAndSettle, EStateM.run_bind, place, EStateM.run_bind, EStateM.run_modify]
  cases hplacement : env.placement with
  | refused text => rfl
  | takenThenRaised restingId text => rfl
  | acknowledged ack =>
      dsimp only
      rw [EStateM.run_bind, EStateM.run_modify]
      dsimp only
      rw [EStateM.run_pure]
      exact settlePlacement_of_not_settled (h ack hplacement) _

/-! ## Booking a close -/

/-- A close whose fill is checked, overshoots what was held, and is recorded as a violation. -/
structure Violates (cfg : GatewayConfig) (env : GatewayEnv) (intent : OrderIntent) (coid : String)
    (ack : SubmissionAck) (positions : List Position) : Prop where
  checked : cfg.hasPositionSource = true
  reported : env.positionsAfterFill = .ok positions
  netShort : isNetShortAfterFill (heldForTicker positions intent.marketTicker) ack.filled.value = true
  recorded : env.record (reduceOnlyViolationEvent coid intent.marketTicker
    (heldForTicker positions intent.marketTicker) ack.filled.value
      (heldForTicker positions intent.marketTicker - ack.filled.value)) = .written

/-- The world after a close is booked as in flight. -/
def GatewayWorld.booked (w : GatewayWorld) (intent : OrderIntent) : GatewayWorld :=
  w.withInflight intent.marketTicker ⟨inflightFor w intent.marketTicker + intent.size.value⟩

/-- **A recorded violation** latches the halt. -/
theorem recordCloseFill_of_violates {cfg : GatewayConfig} {env : GatewayEnv} {intent : OrderIntent}
    {coid : String} {ack : SubmissionAck} {positions : List Position}
    (h : Violates cfg env intent coid ack positions) (w : GatewayWorld) :
    (finalState ((recordCloseFill cfg env intent coid ack).run w)).latches =
      (w.booked intent).latchedHalted.latches := by
  rw [recordCloseFill, EStateM.run_bind, EStateM.run_modify]
  dsimp only
  rw [if_pos h.checked, h.reported, EStateM.run_bind, reading, EStateM.run_pure]
  dsimp only
  rw [if_pos h.netShort, haltOnViolation, EStateM.run_bind, record_run, h.recorded]
  rfl

/-- **Without a recorded violation** the close is only booked. -/
theorem recordCloseFill_of_not_violates {cfg : GatewayConfig} {env : GatewayEnv}
    {intent : OrderIntent} {coid : String} {ack : SubmissionAck}
    (h : ¬ ∃ positions, Violates cfg env intent coid ack positions) (w : GatewayWorld) :
    (finalState ((recordCloseFill cfg env intent coid ack).run w)).latches =
      (w.booked intent).latches := by
  rw [recordCloseFill, EStateM.run_bind, EStateM.run_modify]
  dsimp only
  split
  · rename_i hchecked
    rw [EStateM.run_bind]
    cases hreported : env.positionsAfterFill with
    | error text => rfl
    | ok positions =>
        rw [reading, EStateM.run_pure]
        dsimp only
        split
        · rename_i hshort
          rw [haltOnViolation, EStateM.run_bind, record_run]
          cases hrecord : env.record (reduceOnlyViolationEvent coid intent.marketTicker
              (heldForTicker positions intent.marketTicker) ack.filled.value
                (heldForTicker positions intent.marketTicker - ack.filled.value)) with
          | written => exact absurd ⟨positions, hchecked, hreported, hshort, hrecord⟩ h
          | lost => rfl
          | writtenThenRaised => rfl
        · rfl
  · rfl

/-! ## What a call leaves of it -/

/-- A call that places a close, is acknowledged and recorded, and so books it. -/
structure Books (cfg : GatewayConfig) (env : GatewayEnv) (intent : OrderIntent)
    (token : SignedApprovalToken) (w : GatewayWorld) (ack : SubmissionAck) : Prop where
  places : Places cfg env intent token w
  closing : isClosingAction intent.action = true
  acknowledged : env.placement = .acknowledged ack
  settled : Settled cfg env intent (clientOrderId cfg.sha256 intent) ack

theorem booked_latches {w w' : GatewayWorld} (h : w'.latches = w.latches) (intent : OrderIntent) :
    (w'.booked intent).latches = (w.booked intent).latches := by
  obtain ⟨hhalted, hrest⟩ := Prod.mk.inj h
  obtain ⟨haccepting, hinflight⟩ := Prod.mk.inj hrest
  have hfor : inflightFor w' intent.marketTicker = inflightFor w intent.marketTicker := by
    rw [inflightFor, hinflight, ← inflightFor]
  simp only [GatewayWorld.latches, GatewayWorld.booked, GatewayWorld.withInflight, hhalted,
    haccepting, hinflight, hfor]

theorem processIntent_of_books {cfg : GatewayConfig} {env : GatewayEnv} {intent : OrderIntent}
    {token : SignedApprovalToken} {w : GatewayWorld} {ack : SubmissionAck}
    (h : Books cfg env intent token w ack) :
    ∃ u, u.latches = w.latches ∧
      finalState ((processIntent cfg env intent token).run w) =
        finalState ((recordCloseFill cfg env intent (clientOrderId cfg.sha256 intent) ack).run u) := by
  refine ⟨(w.placing cfg intent token).settled cfg env (clientOrderId cfg.sha256 intent) intent
    token ack, ?_, ?_⟩
  · rw [settled_latches, placing_eq latches_ignoresCalls]
  · rw [processIntent_of_places h.places, placeAndSettle_of_settled h.acknowledged h.settled,
      bookClose, if_pos h.closing, EStateM.run_bind]
    cases (recordCloseFill cfg env intent (clientOrderId cfg.sha256 intent) ack).run _ with
    | ok a u => rfl
    | error e u => rfl

/-- **A call that books a close** adds it to the closes in flight, and latches the halt exactly when
the booking violates. -/
theorem processIntent_latches_of_books {cfg : GatewayConfig} {env : GatewayEnv}
    {intent : OrderIntent} {token : SignedApprovalToken} {w : GatewayWorld} {ack : SubmissionAck}
    (h : Books cfg env intent token w ack) :
    ((∃ positions, Violates cfg env intent (clientOrderId cfg.sha256 intent) ack positions) ∧
      (finalState ((processIntent cfg env intent token).run w)).latches =
        (w.booked intent).latchedHalted.latches) ∨
    ((¬ ∃ positions, Violates cfg env intent (clientOrderId cfg.sha256 intent) ack positions) ∧
      (finalState ((processIntent cfg env intent token).run w)).latches =
        (w.booked intent).latches) := by
  obtain ⟨u, hu, hrun⟩ := processIntent_of_books h
  have hbooked := booked_latches hu intent
  rw [hrun]
  by_cases hviolates : ∃ positions,
      Violates cfg env intent (clientOrderId cfg.sha256 intent) ack positions
  · obtain ⟨positions, hpositions⟩ := hviolates
    refine .inl ⟨⟨positions, hpositions⟩, ?_⟩
    rw [recordCloseFill_of_violates hpositions]
    exact congrArg (fun l => (true, l.2)) hbooked
  · exact .inr ⟨hviolates, (recordCloseFill_of_not_violates hviolates u).trans hbooked⟩

/-- **A call that books no close** leaves the latches and the closes in flight alone. -/
theorem processIntent_latches_of_not_books {cfg : GatewayConfig} {env : GatewayEnv}
    {intent : OrderIntent} {token : SignedApprovalToken} {w : GatewayWorld}
    (h : ∀ ack, ¬ Books cfg env intent token w ack) :
    (finalState ((processIntent cfg env intent token).run w)).latches = w.latches := by
  by_cases hplaces : Places cfg env intent token w
  · rw [processIntent_of_places hplaces, ← placing_eq latches_ignoresCalls cfg intent token w]
    by_cases hsettled : ∃ ack, env.placement = .acknowledged ack ∧
        Settled cfg env intent (clientOrderId cfg.sha256 intent) ack
    · obtain ⟨ack, hack, hsettled⟩ := hsettled
      have hopening : ¬ isClosingAction intent.action = true := fun hclosing =>
        h ack ⟨hplaces, hclosing, hack, hsettled⟩
      rw [placeAndSettle_of_settled hack hsettled, bookClose, if_neg hopening]
      exact settled_latches cfg env _ _ intent token ack
    · exact placeAndSettle_of_not_settled (fun ack hack hs => hsettled ⟨ack, hack, hs⟩) token _
  · exact processIntent_of_not_places latches_ignoresCalls hplaces

end OrderGateway

end Windbreak
