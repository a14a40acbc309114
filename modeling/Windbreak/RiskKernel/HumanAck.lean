import Windbreak.RiskKernel.Reservations

/-!
# Human acknowledgements

An order whose worst-case cost is above the operator's threshold is held until a human grants it.
The queue remembers every request it ever opened; a request nobody answers within its ttl lapses,
and the lapse releases whatever reservation is held under the request's intent id.

* **Queue** — `requestAck`, `grant`, `queueExpireDue`, `pendingAcks`, `acknowledgedIntentIds`.
* **Flow** — `submit`: approve under the queue's grants, and hold an intent that nothing but the
  missing acknowledgement vetoes.
* **`requestAck_backing`**, **`grant_backing`**, **`submit_backing`** — none of them touches a
  reservation beyond what `approve` does.
* **`queueExpireDue_backing`** — a sweep drops exactly the reservations of `lapsedIntents`.
-/

namespace Windbreak

/-! ## The queue -/

/-- Whether a request is still waiting for its grant or its ttl. -/
def AckRecord.isPending (r : AckRecord) : Bool := decide (r.status = .PENDING)

/-- Whether an intent already has a pending request. -/
def hasPendingIntent (records : OrderedDict String AckRecord) (intentId : String) : Bool :=
  records.values.any fun r => r.isPending && r.pending.intentId == intentId

/-- Every pending request, in issue order. -/
def pendingAcks (records : OrderedDict String AckRecord) : List PendingHumanAck :=
  (records.values.filter AckRecord.isPending).map (·.pending)

/-- The intents with a granted request. -/
def acknowledgedIntentIds (records : OrderedDict String AckRecord) : Finset String :=
  ((records.values.filter fun r => decide (r.status = .GRANTED)).map (·.pending.intentId)).toFinset

/-- Open a pending request under a fresh approval id. -/
def requestAck (cfg : KernelConfig) (env : KernelEnv) (intentId : String)
    (worstCaseCost : MoneyMicros) (now : ℤ) : KernelM PendingHumanAck := do
  let w ← get
  if hasPendingIntent w.ackRecords intentId then
    throw ⟨.duplicateAckRequest, s!"intent already has a pending acknowledgement: {intentId}"⟩
  else
    let approvalId := env.freshToken
    let expiresAt := now + cfg.ackTtlSeconds
    let pending : PendingHumanAck := ⟨approvalId, intentId, worstCaseCost, now, expiresAt⟩
    set (w.withAckRecords (w.ackRecords.set approvalId ⟨pending, .PENDING⟩))
    record env (humanAckRequestedEvent approvalId intentId worstCaseCost now expiresAt)
    return pending

/-- Grant a live request, acknowledging its intent. -/
def grant (env : KernelEnv) (approvalId : String) (now : ℤ) : KernelM Unit := do
  let w ← get
  match w.ackRecords.get? approvalId with
  | none => throw ⟨.unknownApproval, s!"unknown approval id: {approvalId}"⟩
  | some r =>
    if r.status ≠ .PENDING ∨ r.pending.expiresAt ≤ now then
      throw ⟨.ackLapsed, s!"acknowledgement has lapsed: {approvalId}"⟩
    else
      set (w.withAckRecords (w.ackRecords.set approvalId { r with status := .GRANTED }))
      record env (humanAckGrantedEvent approvalId r.pending.intentId now)

/-- The reason a lapse releases a reservation with. -/
def lapsedReleaseReason : String := "human-ack lapsed"

/-- Whether a sweep at `now` lapses a request. -/
def AckRecord.isDue (r : AckRecord) (now : ℤ) : Bool :=
  r.isPending && decide (r.pending.expiresAt ≤ now)

/-- One round of the sweep: lapse the request if it is due, and release its reservation. -/
def lapseIfDue (env : KernelEnv) (now : ℤ) (item : String × AckRecord) : KernelM Unit :=
  if item.2.isDue now then do
    modify fun w =>
      w.withAckRecords (w.ackRecords.set item.1 { item.2 with status := .LAPSED })
    record env (humanAckLapsedEvent item.1 item.2.pending.intentId now)
    release env item.2.pending.intentId lapsedReleaseReason
  else
    pure ()

/-- Lapse every due request, in issue order. -/
def queueExpireDue (env : KernelEnv) (now : ℤ) : KernelM Unit := do
  let w ← get
  forM w.ackRecords.items fun item => lapseIfDue env now item

/-! ## The flow -/

/-- The result of an acknowledgement-gated submission. -/
structure AckGatedOutcome where
  token : Option SignedApprovalToken
  decision : Decision
  held : Bool
  pendingAck : Option PendingHumanAck

/-- The request already open for an intent, or a fresh one. -/
def requestOrExistingHold (cfg : KernelConfig) (env : KernelEnv) (intent : OrderIntent)
    (effective : EvaluationContext) : KernelM PendingHumanAck := do
  let w ← get
  match (pendingAcks w.ackRecords).find? fun p => p.intentId == intent.intentId with
  | some pending => return pending
  | none =>
    let cost ← raising (orderCost intent effective)
    requestAck cfg env intent.intentId cost effective.nowEpochS

/-- Stamp the queue's grants onto a copy of the context. -/
def acknowledgedContext (records : OrderedDict String AckRecord) (context : EvaluationContext) :
    EvaluationContext :=
  { context with acknowledgedIntentIds := acknowledgedIntentIds records }

/-- Run an intent through the pipeline under the queue's grants, holding an acknowledgement-only
veto. -/
def submit (cfg : KernelConfig) (env : KernelEnv) (intent : OrderIntent)
    (context : EvaluationContext) : KernelM AckGatedOutcome := do
  let w ← get
  let effective := acknowledgedContext w.ackRecords context
  let outcome ← approve cfg env intent effective
  if !outcome.decision.vetoed then
    return ⟨outcome.token, outcome.decision, false, none⟩
  else if outcome.decision.reasons = [humanAckRequiredReason] then
    let pending ← requestOrExistingHold cfg env intent effective
    return ⟨none, outcome.decision, true, some pending⟩
  else
    return ⟨none, outcome.decision, false, none⟩

/-! ## What the queue leaves alone -/

/-- The reservations and the tokens they back. -/
def KernelWorld.backing (w : KernelWorld) : ReservationLedger × List SignedApprovalToken :=
  (w.ledger, w.issued)

theorem backing_record (env : KernelEnv) (event : Event) :
    Effects.Frames KernelWorld.backing (record env event) :=
  record_frames env event (fun _ _ => rfl) fun _ => rfl

theorem requestAck_backing (cfg : KernelConfig) (env : KernelEnv) (id : String)
    (cost : MoneyMicros) (now : ℤ) :
    Effects.Frames KernelWorld.backing (requestAck cfg env id cost now) := by
  intro w
  unfold requestAck
  rw [EStateM.run_bind, EStateM.run_get]
  dsimp only
  split
  · rfl
  · rw [EStateM.run_bind, EStateM.run_set]
    exact Effects.Moves.bind (backing_record env _) (fun _ => Effects.Moves.pure _) _

theorem grant_backing (env : KernelEnv) (approvalId : String) (now : ℤ) :
    Effects.Frames KernelWorld.backing (grant env approvalId now) := by
  intro w
  unfold grant
  rw [EStateM.run_bind, EStateM.run_get]
  dsimp only
  split
  · rfl
  · split
    · rfl
    · rw [EStateM.run_bind, EStateM.run_set]
      exact backing_record env _ _

theorem raising_frames {α τ : Type} (f : KernelWorld → τ) (x : Except KernelError α) :
    Effects.Frames f (raising x) := by
  cases x with
  | ok a => exact Effects.Moves.pure a
  | error e => exact Effects.Moves.throw e

theorem requestOrExistingHold_backing (cfg : KernelConfig) (env : KernelEnv)
    (intent : OrderIntent) (effective : EvaluationContext) :
    Effects.Frames KernelWorld.backing (requestOrExistingHold cfg env intent effective) := by
  refine Effects.Moves.bind Effects.Moves.get fun w => ?_
  split
  · exact Effects.Moves.pure _
  · exact Effects.Moves.bind (raising_frames _ _) fun cost =>
      requestAck_backing cfg env _ cost _

/-- **A submission** leaves the reservations and the tokens as its approval leaves them. -/
theorem submit_backing (cfg : KernelConfig) (env : KernelEnv) (intent : OrderIntent)
    (context : EvaluationContext) (w : KernelWorld) :
    (Effects.finalState ((submit cfg env intent context).run w)).backing =
      (Effects.finalState ((approve cfg env intent
        (acknowledgedContext w.ackRecords context)).run w)).backing := by
  unfold submit
  rw [EStateM.run_bind, EStateM.run_get]
  dsimp only
  rw [EStateM.run_bind]
  cases h : (approve cfg env intent (acknowledgedContext w.ackRecords context)).run w with
  | error e t => rfl
  | ok outcome t =>
      dsimp only
      split
      · rfl
      · split
        · exact Effects.Moves.bind (requestOrExistingHold_backing cfg env intent _)
            (fun _ => Effects.Moves.pure _) t
        · rfl

/-! ## What a sweep releases -/

/-- The intents a sweep releases: those of the due requests, up to the first whose lapse cannot be
recorded, and including the first whose release cannot. -/
def lapsedIntents (env : KernelEnv) (now : ℤ) : List (String × AckRecord) → List String
  | [] => []
  | item :: items =>
    let id := item.2.pending.intentId
    if item.2.isDue now then
      if env.recordRaises (humanAckLapsedEvent item.1 id now) then []
      else id :: if env.recordRaises (reservationReleasedEvent id lapsedReleaseReason) then []
        else lapsedIntents env now items
    else lapsedIntents env now items

/-- One round over a due request: nothing is released when the lapse cannot be recorded. -/
theorem lapseIfDue_run {env : KernelEnv} {now : ℤ} {item : String × AckRecord}
    (hdue : item.2.isDue now = true) (w : KernelWorld) :
    let id := item.2.pending.intentId
    let lapsed := w.withAckRecords (w.ackRecords.set item.1 { item.2 with status := .LAPSED })
    let event := humanAckLapsedEvent item.1 id now
    (lapseIfDue env now item).run w =
      if env.recordRaises event then
        .error ⟨.writer, "event writer failed"⟩ (lapsed.noted (.record event))
      else
        (releaseLocked env id lapsedReleaseReason).run
          ((lapsed.noted (.record event)).logged event) := by
  intro id lapsed event
  unfold lapseIfDue
  rw [if_pos hdue, EStateM.run_bind, EStateM.run_modify]
  dsimp only
  rw [EStateM.run_bind, record_run]
  by_cases h : env.recordRaises event = true
  · simp only [event, id] at h
    simp only [h, if_true, event, lapsed, id]
  · simp only [event, id] at h
    simp only [h, if_false, event, lapsed, id, release, Bool.false_eq_true]

theorem lapseEach_backing (env : KernelEnv) (now : ℤ) (items : List (String × AckRecord))
    (w : KernelWorld) :
    (Effects.finalState ((forM items fun item => lapseIfDue env now item : KernelM PUnit).run
      w)).backing = (w.ledger.dropAll (lapsedIntents env now items), w.issued) := by
  induction items generalizing w with
  | nil => rfl
  | cons item items ih =>
      rw [List.forM_cons, EStateM.run_bind, lapsedIntents]
      by_cases hdue : item.2.isDue now = true
      · rw [if_pos hdue, lapseIfDue_run hdue]
        by_cases hlapse : env.recordRaises
            (humanAckLapsedEvent item.1 item.2.pending.intentId now) = true
        · simp only [hlapse, if_true]
          rfl
        · rw [if_neg hlapse, if_neg hlapse]
          set v := ((w.withAckRecords (w.ackRecords.set item.1
            { item.2 with status := .LAPSED })).noted (.record
              (humanAckLapsedEvent item.1 item.2.pending.intentId now))).logged
                (humanAckLapsedEvent item.1 item.2.pending.intentId now) with hv
          have hledger := releaseLocked_finalState env item.2.pending.intentId
            lapsedReleaseReason v
          have hissued := releaseLocked_issued env item.2.pending.intentId lapsedReleaseReason v
          have hraise := releaseLocked_recordRaises env item.2.pending.intentId
            lapsedReleaseReason v
          have hvl : v.ledger = w.ledger := rfl
          have hvi : v.issued = w.issued := rfl
          cases h : (releaseLocked env item.2.pending.intentId lapsedReleaseReason).run v with
          | ok a t =>
              rw [h] at hledger hissued hraise
              simp only [Effects.finalState_ok] at hledger hissued
              simp only [ih, hledger, hissued, hraise, hvl, hvi, Bool.false_eq_true, if_false,
                ReservationLedger.dropAll_cons]
          | error e t =>
              rw [h] at hledger hissued hraise
              simp only [Effects.finalState_error] at hledger hissued
              simp only [KernelWorld.backing, Effects.finalState_error, hledger, hissued, hraise,
                hvl, hvi, if_true, ReservationLedger.dropAll_cons, ReservationLedger.dropAll_nil]
      · have hskip : (lapseIfDue env now item).run w = .ok () w := by
          rw [lapseIfDue, if_neg hdue]
          rfl
        rw [hskip, if_neg hdue]
        exact ih w

/-- **A sweep** drops exactly the reservations of `lapsedIntents`, and signs nothing. -/
theorem queueExpireDue_backing (env : KernelEnv) (now : ℤ) (w : KernelWorld) :
    (Effects.finalState ((queueExpireDue env now).run w)).backing =
      (w.ledger.dropAll (lapsedIntents env now w.ackRecords.items), w.issued) :=
  lapseEach_backing env now w.ackRecords.items w

end Windbreak
