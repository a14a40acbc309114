import Windbreak.RiskKernel.Checks
import Windbreak.RiskKernel.World

/-!
# Capital reservations and the approval pipeline

The methods of the reservation ledger and of the pipeline that turns an approved intent into a
reservation and a signed token.  The ledger's lock makes each method one step; a method that raises
halfway leaves behind what it had done.

* **Ledger methods** — `reserve`, `release`, `releaseAllActive`, `adjust`, `expireDue`.
* **Pipeline** — `approve`: stamp the ledger's own totals onto the context, evaluate every check,
  and, when none vetoes, reserve the worst-case cost and issue a token.
* **`approve_ok`**, **`approve_error`** — everything a call to `approve` can do.
-/

namespace Windbreak

/-! ## Ledger methods -/

/-- Reserve an amount, assigning the next sequence number. -/
def reserve (env : KernelEnv) (intentId : String) (amount : MoneyMicros) (idempotencyKey : String)
    (expiresAt : ℤ) : KernelM Reservation := do
  let w ← get
  if intentId ∈ w.ledger.seenIntentIds then
    throw ⟨.duplicateReservation, s!"intent id already reserved: {intentId}"⟩
  else if idempotencyKey ∈ w.ledger.seenIdempotencyKeys then
    throw ⟨.duplicateReservation, s!"idempotency key already reserved: {idempotencyKey}"⟩
  else
    let reservation : Reservation :=
      ⟨intentId, amount, idempotencyKey, expiresAt, w.ledger.sequence + 1⟩
    set (w.withLedger (w.ledger.add reservation))
    record env (reservationCreatedEvent intentId amount idempotencyKey expiresAt
      reservation.sequenceNumber)
    return reservation

/-- Drop a reservation and record its release, the lock held. -/
def releaseLocked (env : KernelEnv) (intentId reason : String) : KernelM Unit := do
  modify fun w => w.withLedger (w.ledger.drop intentId)
  record env (reservationReleasedEvent intentId reason)

/-- Release one intent's reservation. -/
def release (env : KernelEnv) (intentId reason : String) : KernelM Unit :=
  releaseLocked env intentId reason

/-- Release a list of intents' reservations, one after the other. -/
def releaseEach (env : KernelEnv) (intentIds : List String) (reason : String) : KernelM Unit :=
  forM intentIds fun intentId => releaseLocked env intentId reason

/-- Release every active reservation. -/
def releaseAllActive (env : KernelEnv) (reason : String) : KernelM Unit := do
  let w ← get
  releaseEach env w.ledger.active.keys reason

/-- Decrease an active reservation; anything but a strict decrease to a positive amount raises. -/
def adjust (env : KernelEnv) (intentId : String) (remainingAmount : MoneyMicros) :
    KernelM Unit := do
  let w ← get
  match h : w.ledger.active.get? intentId with
  | none => throw ⟨.valueError, s!"no active reservation for {intentId}"⟩
  | some reservation =>
    if 0 < remainingAmount.value ∧ remainingAmount.value < reservation.amount.value then do
      have hfiled := w.ledger.filed intentId reservation h
      set (w.withLedger (w.ledger.resize reservation remainingAmount (hfiled ▸ h)))
      record env (reservationAdjustedEvent intentId remainingAmount)
    else
      throw ⟨.valueError, s!"adjust for {intentId} must strictly decrease " ++
        s!"{reservation.amount.value} to a positive amount, got {remainingAmount.value}"⟩

/-- The intents whose reservation is due. -/
def dueIntents (ledger : ReservationLedger) (nowEpochS : ℤ) : List String :=
  (ledger.active.values.filter fun r => r.expiresAt ≤ nowEpochS).map (·.intentId)

/-- Release every reservation whose expiry has come. -/
def expireDue (env : KernelEnv) (nowEpochS : ℤ) : KernelM Unit := do
  let w ← get
  releaseEach env (dueIntents w.ledger nowEpochS) "expired"

/-! ## The approval pipeline -/

/-- The result of running an intent through the pipeline. -/
structure ApprovalOutcome where
  decision : Decision
  token : Option SignedApprovalToken
  deriving DecidableEq

/-- Stamp the ledger's live total and its memory of ids and keys onto a copy of the context. -/
def effectiveContext (ledger : ReservationLedger) (context : EvaluationContext) :
    EvaluationContext :=
  { context with
    account := context.account.withReserved ledger.totalReserved
    usedIntentIds := ledger.seenIntentIds
    usedIdempotencyKeys := ledger.seenIdempotencyKeys }

/-- The claims a token for `intent` carries.  The fee cap is recovered from the cost. -/
def approvalClaims (cfg : KernelConfig) (intent : OrderIntent) (context : EvaluationContext)
    (amount : MoneyMicros) (sequenceNumber : ℤ) : ApprovalTokenClaims where
  intentId := intent.intentId
  marketTicker := intent.marketTicker
  outcome := intent.outcome
  action := intent.action
  limitPricePips := intent.price
  countCentis := intent.size
  maxFeeMicros := amount - moneyFromPriceAndCount intent.price intent.size .overstateCost
    - context.limits.roundingBuffer
  expiresAt := context.nowEpochS + cfg.tokenTtlSeconds
  idempotencyKey := intent.idempotencyKey
  configHash := cfg.configHash
  kernelSequenceNumber := sequenceNumber

/-- Sign claims through the issuer, which may raise. -/
def issueToken (cfg : KernelConfig) (env : KernelEnv) (claims : ApprovalTokenClaims) :
    KernelM SignedApprovalToken := do
  noteCall (.issue claims)
  if env.issueRaises claims then throw ⟨.issuer, "token issuer failed"⟩
  else
    let token := TokenIssuer.issue cfg.hmac cfg.signingKey claims
    modify (·.signed token)
    return token

/-- Reserve the worst-case cost and issue a signed token. -/
def reserveAndIssue (cfg : KernelConfig) (env : KernelEnv) (intent : OrderIntent)
    (context : EvaluationContext) (decision : Decision) : KernelM ApprovalOutcome := do
  let amount ← raising (orderCost intent context)
  let expiresAt := context.nowEpochS + cfg.tokenTtlSeconds
  let reservation ← reserve env intent.intentId amount intent.idempotencyKey expiresAt
  let claims := approvalClaims cfg intent context amount reservation.sequenceNumber
  let token ← issueToken cfg env claims
  record env (approvalTokenIssuedEvent intent.intentId reservation.sequenceNumber expiresAt)
  return ⟨decision, some token⟩

/-- Evaluate an intent and, when nothing vetoes, reserve capital and issue a token. -/
def approve (cfg : KernelConfig) (env : KernelEnv) (intent : OrderIntent)
    (context : EvaluationContext) : KernelM ApprovalOutcome := do
  let w ← get
  let effective := effectiveContext w.ledger context
  let decision := evaluateIntent intent effective defaultChecks
  if decision.vetoed then return ⟨decision, none⟩
  else reserveAndIssue cfg env intent effective decision

/-! ## What the ledger methods do -/

/-- The reservation a call to `reserve` files. -/
def nextReservation (ledger : ReservationLedger) (intentId : String) (amount : MoneyMicros)
    (idempotencyKey : String) (expiresAt : ℤ) : Reservation :=
  ⟨intentId, amount, idempotencyKey, expiresAt, ledger.sequence + 1⟩

/-- The event it records. -/
def Reservation.createdEvent (r : Reservation) : Event :=
  reservationCreatedEvent r.intentId r.amount r.idempotencyKey r.expiresAt r.sequenceNumber

theorem reserve_ok {env : KernelEnv} {id key : String} {amount : MoneyMicros} {expiresAt : ℤ}
    {r : Reservation} {w w' : KernelWorld}
    (h : (reserve env id amount key expiresAt).run w = .ok r w') :
    r = nextReservation w.ledger id amount key expiresAt ∧
      id ∉ w.ledger.seenIntentIds ∧ key ∉ w.ledger.seenIdempotencyKeys ∧
      w' = ((w.withLedger (w.ledger.add r)).noted (.record r.createdEvent)).logged
        r.createdEvent := by
  unfold reserve at h
  obtain ⟨w₀, t, hget, h⟩ := Effects.run_bind_ok.mp h
  cases hget
  split_ifs at h with hid hkey
  · simp at h
  · simp at h
  · obtain ⟨_, t, hset, h⟩ := Effects.run_bind_ok.mp h
    cases hset
    obtain ⟨_, t, hrec, h⟩ := Effects.run_bind_ok.mp h
    cases h
    exact ⟨rfl, hid, hkey, (record_ok hrec).2⟩

theorem reserve_error {env : KernelEnv} {id key : String} {amount : MoneyMicros} {expiresAt : ℤ}
    {e : KernelError} {w w' : KernelWorld}
    (h : (reserve env id amount key expiresAt).run w = .error e w') :
    let r := nextReservation w.ledger id amount key expiresAt
    w' = w ∧ (id ∈ w.ledger.seenIntentIds ∨ key ∈ w.ledger.seenIdempotencyKeys) ∨
      id ∉ w.ledger.seenIntentIds ∧ key ∉ w.ledger.seenIdempotencyKeys ∧
        w' = (w.withLedger (w.ledger.add r)).noted (.record r.createdEvent) := by
  unfold reserve at h
  rcases Effects.run_bind_error.mp h with h | ⟨w₀, t, hget, h⟩
  · cases h
  cases hget
  split_ifs at h with hid hkey
  · exact Or.inl ⟨by cases h; rfl, Or.inl hid⟩
  · exact Or.inl ⟨by cases h; rfl, Or.inr hkey⟩
  · refine Or.inr ⟨hid, hkey, ?_⟩
    rcases Effects.run_bind_error.mp h with h | ⟨_, t, hset, h⟩
    · cases h
    cases hset
    rcases Effects.run_bind_error.mp h with h | ⟨_, t, _, h⟩
    · exact (record_error h).2
    · cases h

theorem issueToken_ok {cfg : KernelConfig} {env : KernelEnv} {claims : ApprovalTokenClaims}
    {token : SignedApprovalToken} {w w' : KernelWorld}
    (h : (issueToken cfg env claims).run w = .ok token w') :
    token = TokenIssuer.issue cfg.hmac cfg.signingKey claims ∧
      w' = (w.noted (.issue claims)).signed token := by
  unfold issueToken at h
  obtain ⟨_, t, hnote, h⟩ := Effects.run_bind_ok.mp h
  cases hnote
  split_ifs at h with hr
  · simp at h
  · cases h
    exact ⟨rfl, rfl⟩

theorem issueToken_error {cfg : KernelConfig} {env : KernelEnv} {claims : ApprovalTokenClaims}
    {e : KernelError} {w w' : KernelWorld}
    (h : (issueToken cfg env claims).run w = .error e w') :
    w' = w.noted (.issue claims) := by
  unfold issueToken at h
  rcases Effects.run_bind_error.mp h with h | ⟨_, t, hnote, h⟩
  · cases h
  cases hnote
  split_ifs at h with hr
  · cases h
    rfl
  · cases h

/-- A release drops the reservation whether or not its record raises. -/
theorem releaseLocked_finalState (env : KernelEnv) (id reason : String) (w : KernelWorld) :
    (Effects.finalState ((releaseLocked env id reason).run w)).ledger = w.ledger.drop id := by
  unfold releaseLocked
  rw [EStateM.run_bind, EStateM.run_modify]
  simp only [record_run]
  split <;> simp

/-- A release that returns recorded its event; one that raises did not. -/
theorem releaseLocked_recordRaises (env : KernelEnv) (id reason : String) (w : KernelWorld) :
    match (releaseLocked env id reason).run w with
    | .ok _ _ => env.recordRaises (reservationReleasedEvent id reason) = false
    | .error _ _ => env.recordRaises (reservationReleasedEvent id reason) = true := by
  cases h : (releaseLocked env id reason).run w with
  | ok a t =>
      obtain ⟨_, _, hdrop, hrec⟩ := Effects.run_bind_ok.mp h
      cases hdrop
      exact (record_ok hrec).1
  | error e t =>
      rcases Effects.run_bind_error.mp h with h | ⟨_, _, hdrop, hrec⟩
      · cases h
      · cases hdrop
        exact (record_error hrec).1

theorem releaseLocked_issued (env : KernelEnv) (id reason : String) (w : KernelWorld) :
    (Effects.finalState ((releaseLocked env id reason).run w)).issued = w.issued := by
  unfold releaseLocked
  rw [EStateM.run_bind, EStateM.run_modify]
  simp only [record_run]
  split <;> rfl

/-- The reservations a loop of releases drops: up to and including the first whose record
raises. -/
def releasedIntents (env : KernelEnv) (reason : String) : List String → List String
  | [] => []
  | id :: ids =>
    id :: if env.recordRaises (reservationReleasedEvent id reason) then []
      else releasedIntents env reason ids

theorem releasedIntents_subset (env : KernelEnv) (reason : String) (ids : List String) :
    releasedIntents env reason ids ⊆ ids := by
  induction ids with
  | nil => exact List.Subset.refl _
  | cons id ids ih =>
      intro x hx
      rw [releasedIntents] at hx
      rcases List.mem_cons.mp hx with rfl | hx
      · exact List.mem_cons_self
      · split_ifs at hx
        · simp at hx
        · exact List.mem_cons_of_mem _ (ih hx)

/-- A loop of releases drops exactly `releasedIntents`. -/
theorem releaseEach_finalState (env : KernelEnv) (ids : List String) (reason : String)
    (w : KernelWorld) :
    (Effects.finalState ((releaseEach env ids reason).run w)).ledger =
      w.ledger.dropAll (releasedIntents env reason ids) := by
  induction ids generalizing w with
  | nil => rfl
  | cons id ids ih =>
      have hcons : releaseEach env (id :: ids) reason =
          (releaseLocked env id reason >>= fun _ => releaseEach env ids reason) := by
        simp only [releaseEach, List.forM_cons]
      have hone := releaseLocked_finalState env id reason w
      have hraise := releaseLocked_recordRaises env id reason w
      rw [hcons, EStateM.run_bind, releasedIntents]
      cases h : (releaseLocked env id reason).run w with
      | ok a t =>
          rw [h] at hone hraise
          rw [Effects.finalState_ok] at hone
          simp [ih, hone, hraise]
      | error e t =>
          rw [h] at hone hraise
          rw [Effects.finalState_error] at hone
          simp [hone, hraise]

/-! ## What a call to `approve` can do -/

@[simp] theorem orderCost_effectiveContext (intent : OrderIntent) (ledger : ReservationLedger)
    (context : EvaluationContext) :
    orderCost intent (effectiveContext ledger context) = orderCost intent context := rfl

@[simp] theorem isDeriskingClose_effectiveContext (intent : OrderIntent)
    (ledger : ReservationLedger) (context : EvaluationContext) :
    isDeriskingClose intent (effectiveContext ledger context) =
      isDeriskingClose intent context := rfl

/-- **An admitted intent**: every check passed under the ledger's own totals, and the facts the
later steps read off that: the cost is provable, the id and the key are fresh. -/
structure Admitted (ledger : ReservationLedger) (intent : OrderIntent)
    (context : EvaluationContext) (amount : MoneyMicros) : Prop where
  passed : (evaluateIntent intent (effectiveContext ledger context) defaultChecks).vetoed = false
  cost : orderCost intent context = .ok amount
  fresh_id : intent.intentId ∉ ledger.seenIntentIds
  fresh_key : intent.idempotencyKey ∉ ledger.seenIdempotencyKeys

/-- When nothing vetoes, the intent is admitted at its worst-case cost. -/
theorem admitted_of_passed {ledger : ReservationLedger} {intent : OrderIntent}
    {context : EvaluationContext}
    (h : (evaluateIntent intent (effectiveContext ledger context) defaultChecks).vetoed = false) :
    ∃ amount, Admitted ledger intent context amount := by
  have hfloor := floorInvariant_passed (evaluateIntent_passed h (by simp [defaultChecks]))
  obtain ⟨trading, settlement, charged, ht, hs, -, -⟩ := hfloor
  refine ⟨_, h, orderCost_ok.mpr ⟨trading, settlement, ht, hs, rfl⟩, ?_, ?_⟩
  · exact approvalTokenUniqueness_passed (evaluateIntent_passed h (by simp [defaultChecks]))
  · exact idempotencyKeyUniqueness_passed (evaluateIntent_passed h (by simp [defaultChecks]))

/-- The reservation an admitted intent gets. -/
def approvedReservation (cfg : KernelConfig) (ledger : ReservationLedger) (intent : OrderIntent)
    (context : EvaluationContext) (amount : MoneyMicros) : Reservation :=
  nextReservation ledger intent.intentId amount intent.idempotencyKey
    (context.nowEpochS + cfg.tokenTtlSeconds)

/-- The token an admitted intent gets. -/
def approvedToken (cfg : KernelConfig) (ledger : ReservationLedger) (intent : OrderIntent)
    (context : EvaluationContext) (amount : MoneyMicros) : SignedApprovalToken :=
  TokenIssuer.issue cfg.hmac cfg.signingKey
    (approvalClaims cfg intent context amount (ledger.sequence + 1))

/-- The world after a reservation: filed, noted and logged. -/
def KernelWorld.reserved (w : KernelWorld) (r : Reservation) : KernelWorld :=
  ((w.withLedger (w.ledger.add r)).noted (.record r.createdEvent)).logged r.createdEvent

/-- The world after a token was signed. -/
def KernelWorld.issuedTo (w : KernelWorld) (token : SignedApprovalToken) : KernelWorld :=
  (w.noted (.issue token.claims)).signed token

/-- **A call that returns** either vetoed and changed nothing, or admitted the intent, filed
exactly its worst-case cost, signed the token and logged both. -/
theorem approve_ok {cfg : KernelConfig} {env : KernelEnv} {intent : OrderIntent}
    {context : EvaluationContext} {outcome : ApprovalOutcome} {w w' : KernelWorld}
    (h : (approve cfg env intent context).run w = .ok outcome w') :
    (outcome.decision.vetoed = true ∧ outcome.token = none ∧ w' = w) ∨
      ∃ amount, Admitted w.ledger intent context amount ∧ outcome.decision.vetoed = false ∧
        outcome.token = some (approvedToken cfg w.ledger intent context amount) ∧
        let event := approvalTokenIssuedEvent intent.intentId (w.ledger.sequence + 1)
          (context.nowEpochS + cfg.tokenTtlSeconds)
        w' = ((((w.reserved (approvedReservation cfg w.ledger intent context amount)).issuedTo
          (approvedToken cfg w.ledger intent context amount)).noted (.record event)).logged
            event) := by
  unfold approve at h
  obtain ⟨w₀, t, hget, h⟩ := Effects.run_bind_ok.mp h
  cases hget
  dsimp only at h
  split_ifs at h with hveto
  · cases h
    exact Or.inl ⟨hveto, rfl, rfl⟩
  · right
    rw [Bool.not_eq_true] at hveto
    obtain ⟨amount, hadm⟩ := admitted_of_passed hveto
    refine ⟨amount, hadm, ?_⟩
    unfold reserveAndIssue at h
    rw [orderCost_effectiveContext, hadm.cost] at h
    obtain ⟨_, t, hcost, h⟩ := Effects.run_bind_ok.mp h
    cases hcost
    dsimp only at h
    obtain ⟨r, t, hres, h⟩ := Effects.run_bind_ok.mp h
    obtain ⟨rfl, -, -, rfl⟩ := reserve_ok hres
    obtain ⟨token, t, hiss, h⟩ := Effects.run_bind_ok.mp h
    obtain ⟨rfl, rfl⟩ := issueToken_ok hiss
    obtain ⟨_, t, hrec, h⟩ := Effects.run_bind_ok.mp h
    obtain ⟨-, rfl⟩ := record_ok hrec
    cases h
    exact ⟨hveto, rfl, rfl⟩

/-- **A call that raises** had admitted the intent and filed its reservation; the token may have
been signed, but it was not handed over. -/
theorem approve_error {cfg : KernelConfig} {env : KernelEnv} {intent : OrderIntent}
    {context : EvaluationContext} {e : KernelError} {w w' : KernelWorld}
    (h : (approve cfg env intent context).run w = .error e w') :
    ∃ amount, Admitted w.ledger intent context amount ∧
      let r := approvedReservation cfg w.ledger intent context amount
      w'.ledger = w.ledger.add r ∧
      (w'.issued = w.issued ∧ (w'.log = w.log ∨ w'.log = w.log ++ [r.createdEvent]) ∨
        w'.issued = w.issued ++ [approvedToken cfg w.ledger intent context amount] ∧
          w'.log = w.log ++ [r.createdEvent]) := by
  unfold approve at h
  rcases Effects.run_bind_error.mp h with h | ⟨w₀, t, hget, h⟩
  · cases h
  cases hget
  dsimp only at h
  split_ifs at h with hveto
  · cases h
  · rw [Bool.not_eq_true] at hveto
    obtain ⟨amount, hadm⟩ := admitted_of_passed hveto
    refine ⟨amount, hadm, ?_⟩
    unfold reserveAndIssue at h
    rw [orderCost_effectiveContext, hadm.cost] at h
    rcases Effects.run_bind_error.mp h with h | ⟨_, t, hcost, h⟩
    · simp at h
    cases hcost
    dsimp only at h
    rcases Effects.run_bind_error.mp h with h | ⟨r, t, hres, h⟩
    · -- the id and the key are fresh, so only the record can have raised
      rcases reserve_error h with ⟨-, hdup⟩ | ⟨-, -, rfl⟩
      · exact absurd hdup (not_or.mpr ⟨hadm.fresh_id, hadm.fresh_key⟩)
      · exact ⟨rfl, Or.inl ⟨rfl, Or.inl rfl⟩⟩
    obtain ⟨rfl, -, -, rfl⟩ := reserve_ok hres
    rcases Effects.run_bind_error.mp h with h | ⟨token, t, hiss, h⟩
    · rw [issueToken_error h]
      exact ⟨rfl, Or.inl ⟨rfl, Or.inr rfl⟩⟩
    obtain ⟨rfl, rfl⟩ := issueToken_ok hiss
    rcases Effects.run_bind_error.mp h with h | ⟨_, t, _, h⟩
    · rw [(record_error h).2]
      exact ⟨rfl, Or.inr ⟨rfl, rfl⟩⟩
    · cases h

end Windbreak
