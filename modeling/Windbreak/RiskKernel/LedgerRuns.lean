import Windbreak.Core.Runs
import Windbreak.RiskKernel.Reservations

/-!
# Runs of the reservation ledger and its pipeline

The ledger's methods and the pipeline's `approve` as one machine: each operation carries the
environment it runs in, so the writer and the issuer may raise at any call of any operation, and a
raising operation is a step like any other.

* **`ledgerStep`** — one operation, with the reply its caller gets.
* **`ledgerStep_memory`** — what the ledger remembers (the ids and keys ever reserved, the sequence
  number, the tokens ever signed) changes only by an admitted approval.
* **`issued_unique`** — over every run, at most one token for an intent id, at most one for a key,
  and strictly increasing sequence numbers.
* **`approval_atomicity`** — what each operation of a run does with tokens and reservations.
-/

namespace Windbreak

open Machine Effects

/-! ## The machine -/

/-- An operation on the ledger or the pipeline. -/
inductive LedgerOp where
  | approve (env : KernelEnv) (intent : OrderIntent) (context : EvaluationContext)
  | release (env : KernelEnv) (intentId reason : String)
  | releaseAllActive (env : KernelEnv) (reason : String)
  | adjust (env : KernelEnv) (intentId : String) (remainingAmount : MoneyMicros)
  | expireDue (env : KernelEnv) (nowEpochS : ℤ)

/-- What the caller of an operation gets. -/
inductive LedgerReply where
  | approval (outcome : ApprovalOutcome)
  | done
  | raised (error : KernelError)
  deriving DecidableEq

/-- The reply and the world a computation ends in. -/
def reply {α : Type} (f : α → LedgerReply) :
    EStateM.Result KernelError KernelWorld α → LedgerReply × KernelWorld
  | .ok a w => (f a, w)
  | .error e w => (.raised e, w)

/-- One operation. -/
def ledgerStep (cfg : KernelConfig) (w : KernelWorld) : LedgerOp → LedgerReply × KernelWorld
  | .approve env intent context => reply .approval ((approve cfg env intent context).run w)
  | .release env intentId reason => reply (fun _ => .done) ((release env intentId reason).run w)
  | .releaseAllActive env reason => reply (fun _ => .done) ((releaseAllActive env reason).run w)
  | .adjust env intentId remaining => reply (fun _ => .done) ((adjust env intentId remaining).run w)
  | .expireDue env now => reply (fun _ => .done) ((expireDue env now).run w)

/-- The transitions of the machine. -/
abbrev LedgerTransition := Transition KernelWorld LedgerOp LedgerReply

@[simp] theorem reply_snd {α : Type} (f : α → LedgerReply)
    (x : EStateM.Result KernelError KernelWorld α) : (reply f x).2 = finalState x := by
  cases x <;> rfl

/-- The token an operation hands to its caller. -/
def LedgerReply.token? : LedgerReply → Option SignedApprovalToken
  | .approval outcome => outcome.token
  | _ => none

/-! ## What the ledger remembers -/

/-- What the ledger remembers for good: the ids and keys ever reserved, the last sequence number,
and the history of signed tokens. -/
def KernelWorld.memory (w : KernelWorld) :
    Finset String × Finset String × ℤ × List SignedApprovalToken :=
  (w.ledger.seenIntentIds, w.ledger.seenIdempotencyKeys, w.ledger.sequence, w.issued)

theorem memory_record (env : KernelEnv) (event : Event) :
    Frames KernelWorld.memory (record env event) :=
  record_frames env event (fun _ _ => rfl) fun _ => rfl

theorem memory_releaseLocked (env : KernelEnv) (id reason : String) :
    Frames KernelWorld.memory (releaseLocked env id reason) :=
  Moves.bind (Moves.modify fun _ => rfl) fun _ => memory_record env _

theorem memory_releaseEach (env : KernelEnv) (ids : List String) (reason : String) :
    Frames KernelWorld.memory (releaseEach env ids reason) :=
  Moves.forM fun id _ => memory_releaseLocked env id reason

/-- An adjustment resizes one reservation and remembers nothing new. -/
theorem memory_adjust (env : KernelEnv) (id : String) (remaining : MoneyMicros) :
    Frames KernelWorld.memory (adjust env id remaining) := by
  intro w
  unfold adjust
  rw [EStateM.run_bind, EStateM.run_get]
  dsimp only
  split
  · rfl
  · split
    · rw [EStateM.run_bind, EStateM.run_set]
      exact memory_record env _ _
    · rfl

/-- **One operation** either leaves the memory as it was, or is an approval that admitted its
intent: it filed the reservation, and signed at most the one token for it. -/
theorem ledgerStep_memory (cfg : KernelConfig) (w : KernelWorld) (op : LedgerOp) :
    (ledgerStep cfg w op).2.memory = w.memory ∨
      ∃ env intent context amount, op = .approve env intent context ∧
        Admitted w.ledger intent context amount ∧
        (ledgerStep cfg w op).2.ledger =
          w.ledger.add (approvedReservation cfg w.ledger intent context amount) ∧
        ((ledgerStep cfg w op).2.issued = w.issued ∨
          (ledgerStep cfg w op).2.issued =
            w.issued ++ [approvedToken cfg w.ledger intent context amount]) := by
  cases op with
  | approve env intent context =>
      simp only [ledgerStep, reply_snd]
      cases h : (approve cfg env intent context).run w with
      | ok outcome w' =>
          rcases approve_ok h with ⟨-, -, rfl⟩ | ⟨amount, hadm, -, -, rfl⟩
          · exact Or.inl rfl
          · exact Or.inr ⟨env, intent, context, amount, rfl, hadm, rfl, Or.inr rfl⟩
      | error e w' =>
          obtain ⟨amount, hadm, hledger, hissued⟩ := approve_error h
          exact Or.inr ⟨env, intent, context, amount, rfl, hadm, hledger,
            hissued.imp And.left And.left⟩
  | release env id reason =>
      left
      simpa [ledgerStep, release] using memory_releaseLocked env id reason w
  | releaseAllActive env reason =>
      left
      simpa [ledgerStep, releaseAllActive] using memory_releaseEach env _ reason w
  | adjust env id remaining =>
      left
      simpa [ledgerStep] using memory_adjust env id remaining w
  | expireDue env now =>
      left
      simpa [ledgerStep, expireDue] using memory_releaseEach env _ _ w

/-- **An approval** either hands over no token, or admitted its intent, filed the reservation and
hands over the token for it. -/
theorem ledgerStep_approve (cfg : KernelConfig) (w : KernelWorld) (env : KernelEnv)
    (intent : OrderIntent) (context : EvaluationContext) :
    (∃ error, (ledgerStep cfg w (.approve env intent context)).1 = .raised error) ∨
      (∃ decision, (ledgerStep cfg w (.approve env intent context)).1 = .approval ⟨decision, none⟩) ∨
      ∃ decision amount, Admitted w.ledger intent context amount ∧
        (ledgerStep cfg w (.approve env intent context)).1 =
          .approval ⟨decision, some (approvedToken cfg w.ledger intent context amount)⟩ ∧
        (ledgerStep cfg w (.approve env intent context)).2.ledger =
          w.ledger.add (approvedReservation cfg w.ledger intent context amount) := by
  cases h : (approve cfg env intent context).run w with
  | error e w' => exact Or.inl ⟨e, by simp [ledgerStep, h, reply]⟩
  | ok outcome w' =>
      obtain ⟨decision, token⟩ := outcome
      right
      rcases approve_ok h with ⟨-, htok, -⟩ | ⟨amount, hadm, -, htok, hw'⟩
      · cases htok
        exact Or.inl ⟨decision, by simp [ledgerStep, h, reply]⟩
      · cases htok
        refine Or.inr ⟨decision, amount, hadm, by simp [ledgerStep, h, reply], ?_⟩
        simp only [ledgerStep, h, reply]
        rw [hw']
        rfl

/-- No operation forgets an intent id. -/
theorem ledgerStep_seenIntentIds (cfg : KernelConfig) (w : KernelWorld) (op : LedgerOp) :
    w.ledger.seenIntentIds ⊆ (ledgerStep cfg w op).2.ledger.seenIntentIds := by
  rcases ledgerStep_memory cfg w op with hm | ⟨_, _, _, _, -, -, hledger, -⟩
  · simp only [KernelWorld.memory, Prod.mk.injEq] at hm
    rw [hm.1]
  · rw [hledger]
    exact Finset.subset_insert _ _

/-- A call to `approve` that was admitted: the ledger remembers a new intent. -/
structure Approves (t : LedgerTransition) (env : KernelEnv) (intent : OrderIntent)
    (context : EvaluationContext) : Prop where
  input : t.input = .approve env intent context
  admitted : t.post.memory ≠ t.pre.memory

/-- **What the ledger remembers of intents grows by the approved ones**, under every reading of an
intent (its id, its key) that the ledger keeps a set of. -/
theorem mem_remembered_step {seen : ReservationLedger → Finset String}
    {mark : OrderIntent → String}
    (hsame : ∀ {w w' : KernelWorld}, w'.memory = w.memory → seen w'.ledger = seen w.ledger)
    (hadd : ∀ cfg ledger intent context amount,
      seen (ledger.add (approvedReservation cfg ledger intent context amount)) =
        insert (mark intent) (seen ledger))
    (cfg : KernelConfig) (w : KernelWorld) (op : LedgerOp) (x : String) :
    x ∈ seen (ledgerStep cfg w op).2.ledger ↔ x ∈ seen w.ledger ∨
      ∃ env intent context, Approves (transition (ledgerStep cfg) w op) env intent context ∧
        mark intent = x := by
  rcases ledgerStep_memory cfg w op with hm | ⟨env, intent, context, amount, hop, hadm, hledger, -⟩
  · rw [hsame hm]
    refine ⟨Or.inl, ?_⟩
    rintro (hx | ⟨env, intent, context, happroves, -⟩)
    · exact hx
    · exact absurd hm happroves.admitted
  · have hgrows : (ledgerStep cfg w op).2.memory ≠ w.memory := by
      intro hm
      simp only [KernelWorld.memory, Prod.mk.injEq, hledger] at hm
      refine hadm.fresh_id ?_
      rw [← hm.1]
      exact Finset.mem_insert_self _ _
    rw [hledger, hadd, Finset.mem_insert]
    constructor
    · rintro (rfl | hx)
      · exact Or.inr ⟨env, intent, context, ⟨hop, hgrows⟩, rfl⟩
      · exact Or.inl hx
    · rintro (hx | ⟨env', intent', context', happroves, rfl⟩)
      · exact Or.inr hx
      · have hinput : op = .approve env' intent' context' := happroves.input
        rw [hop] at hinput
        cases hinput
        exact Or.inl rfl

/-- **After a run**, the ledger remembers what it did before and every intent approved in it. -/
theorem mem_remembered_run {seen : ReservationLedger → Finset String}
    {mark : OrderIntent → String}
    (hsame : ∀ {w w' : KernelWorld}, w'.memory = w.memory → seen w'.ledger = seen w.ledger)
    (hadd : ∀ cfg ledger intent context amount,
      seen (ledger.add (approvedReservation cfg ledger intent context amount)) =
        insert (mark intent) (seen ledger))
    (cfg : KernelConfig) (w : KernelWorld) (ops : List LedgerOp) (x : String) :
    x ∈ seen (run (ledgerStep cfg) w ops).ledger ↔ x ∈ seen w.ledger ∨
      ∃ t ∈ trace (ledgerStep cfg) w ops, ∃ env intent context, Approves t env intent context ∧
        mark intent = x := by
  induction ops generalizing w with
  | nil => simp
  | cons op ops ih =>
      rw [run_cons, ih, mem_remembered_step hsame hadd, trace_cons, List.exists_mem_cons_iff,
        or_assoc]

theorem mem_seenIntentIds_run (cfg : KernelConfig) (w : KernelWorld) (ops : List LedgerOp)
    (id : String) :
    id ∈ (run (ledgerStep cfg) w ops).ledger.seenIntentIds ↔ id ∈ w.ledger.seenIntentIds ∨
      ∃ t ∈ trace (ledgerStep cfg) w ops, ∃ env intent context, Approves t env intent context ∧
        intent.intentId = id :=
  @mem_remembered_run ReservationLedger.seenIntentIds OrderIntent.intentId
    (fun hm => congrArg Prod.fst hm) (fun _ _ _ _ _ => rfl) cfg w ops id

theorem mem_seenIdempotencyKeys_run (cfg : KernelConfig) (w : KernelWorld) (ops : List LedgerOp)
    (key : String) :
    key ∈ (run (ledgerStep cfg) w ops).ledger.seenIdempotencyKeys ↔
      key ∈ w.ledger.seenIdempotencyKeys ∨
        ∃ t ∈ trace (ledgerStep cfg) w ops, ∃ env intent context, Approves t env intent context ∧
          intent.idempotencyKey = key :=
  @mem_remembered_run ReservationLedger.seenIdempotencyKeys OrderIntent.idempotencyKey
    (fun hm => congrArg (fun m => m.2.1) hm) (fun _ _ _ _ _ => rfl) cfg w ops key

/-! ## Single issuance -/

/-- The signed tokens are pairwise distinct in intent id and key, their sequence numbers climb, and
the ledger remembers all three. -/
structure IssuedOnce (w : KernelWorld) : Prop where
  ids_nodup : (w.issued.map (·.claims.intentId)).Nodup
  keys_nodup : (w.issued.map (·.claims.idempotencyKey)).Nodup
  sequence_increasing : (w.issued.map (·.claims.kernelSequenceNumber)).Pairwise (· < ·)
  ids_seen : ∀ token ∈ w.issued, token.claims.intentId ∈ w.ledger.seenIntentIds
  keys_seen : ∀ token ∈ w.issued, token.claims.idempotencyKey ∈ w.ledger.seenIdempotencyKeys
  sequence_le : ∀ token ∈ w.issued, token.claims.kernelSequenceNumber ≤ w.ledger.sequence

theorem IssuedOnce.of_memory {w w' : KernelWorld} (h : IssuedOnce w)
    (hm : w'.memory = w.memory) : IssuedOnce w' := by
  simp only [KernelWorld.memory, Prod.mk.injEq] at hm
  obtain ⟨hids, hkeys, hseq, hissued⟩ := hm
  constructor
  · rw [hissued]; exact h.ids_nodup
  · rw [hissued]; exact h.keys_nodup
  · rw [hissued]; exact h.sequence_increasing
  · rw [hissued, hids]; exact h.ids_seen
  · rw [hissued, hkeys]; exact h.keys_seen
  · rw [hissued, hseq]; exact h.sequence_le

/-- An admitted approval keeps it: the id, the key and the number are all new to the ledger. -/
theorem IssuedOnce.of_admitted {cfg : KernelConfig} {w w' : KernelWorld} {intent : OrderIntent}
    {context : EvaluationContext} {amount : MoneyMicros} (h : IssuedOnce w)
    (hadm : Admitted w.ledger intent context amount)
    (hledger : w'.ledger =
      w.ledger.add (approvedReservation cfg w.ledger intent context amount))
    (hissued : w'.issued = w.issued ∨
      w'.issued = w.issued ++ [approvedToken cfg w.ledger intent context amount]) :
    IssuedOnce w' := by
  have hids : w'.ledger.seenIntentIds = insert intent.intentId w.ledger.seenIntentIds := by
    rw [hledger]; rfl
  have hkeys : w'.ledger.seenIdempotencyKeys =
      insert intent.idempotencyKey w.ledger.seenIdempotencyKeys := by
    rw [hledger]; rfl
  have hseq : w'.ledger.sequence = w.ledger.sequence + 1 := by
    rw [hledger]; rfl
  have hold : ∀ token ∈ w.issued, token.claims.kernelSequenceNumber < w.ledger.sequence + 1 :=
    fun token ht => by have := h.sequence_le token ht; omega
  rcases hissued with hissued | hissued
  · constructor <;> rw [hissued]
    · exact h.ids_nodup
    · exact h.keys_nodup
    · exact h.sequence_increasing
    · exact fun token ht => hids ▸ Finset.mem_insert_of_mem (h.ids_seen token ht)
    · exact fun token ht => hkeys ▸ Finset.mem_insert_of_mem (h.keys_seen token ht)
    · exact fun token ht => hseq ▸ (hold token ht).le
  · constructor <;> rw [hissued]
    · rw [List.map_append, List.nodup_append]
      refine ⟨h.ids_nodup, by simp, ?_⟩
      rintro id hid _ hnew rfl
      obtain ⟨token, ht, rfl⟩ := List.mem_map.mp hid
      rw [List.map_singleton, List.mem_singleton] at hnew
      have hseen := h.ids_seen token ht
      rw [hnew] at hseen
      exact hadm.fresh_id hseen
    · rw [List.map_append, List.nodup_append]
      refine ⟨h.keys_nodup, by simp, ?_⟩
      rintro key hkey _ hnew rfl
      obtain ⟨token, ht, rfl⟩ := List.mem_map.mp hkey
      rw [List.map_singleton, List.mem_singleton] at hnew
      have hseen := h.keys_seen token ht
      rw [hnew] at hseen
      exact hadm.fresh_key hseen
    · rw [List.map_append, List.pairwise_append]
      refine ⟨h.sequence_increasing, by simp, ?_⟩
      intro n hn m hm
      obtain ⟨token, ht, rfl⟩ := List.mem_map.mp hn
      rw [List.map_singleton, List.mem_singleton] at hm
      rw [hm]
      exact hold token ht
    · intro token ht
      rw [hids]
      rcases List.mem_append.mp ht with ht | ht
      · exact Finset.mem_insert_of_mem (h.ids_seen token ht)
      · rw [List.mem_singleton.mp ht]
        exact Finset.mem_insert_self _ _
    · intro token ht
      rw [hkeys]
      rcases List.mem_append.mp ht with ht | ht
      · exact Finset.mem_insert_of_mem (h.keys_seen token ht)
      · rw [List.mem_singleton.mp ht]
        exact Finset.mem_insert_self _ _
    · intro token ht
      rw [hseq]
      rcases List.mem_append.mp ht with ht | ht
      · exact (hold token ht).le
      · rw [List.mem_singleton.mp ht]
        exact le_refl _

theorem ledgerStep_issuedOnce (cfg : KernelConfig) (w : KernelWorld) (op : LedgerOp)
    (h : IssuedOnce w) : IssuedOnce (ledgerStep cfg w op).2 := by
  rcases ledgerStep_memory cfg w op with hm | ⟨_, _, _, _, -, hadm, hledger, hissued⟩
  · exact h.of_memory hm
  · exact h.of_admitted hadm hledger hissued

theorem issuedOnce_fresh (machine : ModeStateMachine) : IssuedOnce (KernelWorld.fresh machine) := by
  constructor <;> simp [KernelWorld.fresh]

/-! ## Atomicity of an approval -/

/-- The fields of an intent that the claims of its token repeat. -/
structure ClaimsOf (intent : OrderIntent) (claims : ApprovalTokenClaims) : Prop where
  intentId : claims.intentId = intent.intentId
  marketTicker : claims.marketTicker = intent.marketTicker
  outcome : claims.outcome = intent.outcome
  action : claims.action = intent.action
  price : claims.limitPricePips = intent.price
  size : claims.countCentis = intent.size
  idempotencyKey : claims.idempotencyKey = intent.idempotencyKey

/-- A reservation of exactly the intent's worst-case cost, active after the transition, created and
logged during it, under the token's own sequence number. -/
structure BackedBy (t : LedgerTransition) (intent : OrderIntent) (context : EvaluationContext)
    (claims : ApprovalTokenClaims) (r : Reservation) : Prop where
  cost : orderCost intent context = .ok r.amount
  active : t.post.ledger.active.get? intent.intentId = some r
  was_not_active : t.pre.ledger.active.get? intent.intentId = none
  sequence : r.sequenceNumber = claims.kernelSequenceNumber
  created : ∃ events, t.post.log = t.pre.log ++ events ∧ r.createdEvent ∈ events

/-- What one operation does with tokens. -/
structure Atomic (t : LedgerTransition) : Prop where
  signed_backed : ∃ tokens, t.post.issued = t.pre.issued ++ tokens ∧
    ∀ token ∈ tokens, ∃ env intent context r, t.input = .approve env intent context ∧
      ClaimsOf intent token.claims ∧ BackedBy t intent context token.claims r
  delivered_signed : ∀ token, t.output.token? = some token →
    t.post.issued = t.pre.issued ++ [token]
  veto_inert : ∀ outcome, t.output = .approval outcome → outcome.decision.vetoed = true →
    outcome.token = none ∧ t.post = t.pre
  raise_empty : ∀ env intent context e, t.input = .approve env intent context →
    t.output = .raised e → t.output.token? = none ∧
      ∀ event ∈ t.post.log.drop t.pre.log.length, event.eventType ≠ "ApprovalTokenIssued"

theorem claimsOf_approvedToken (cfg : KernelConfig) (ledger : ReservationLedger)
    (intent : OrderIntent) (context : EvaluationContext) (amount : MoneyMicros) :
    ClaimsOf intent (approvedToken cfg ledger intent context amount).claims :=
  ⟨rfl, rfl, rfl, rfl, rfl, rfl, rfl⟩

/-- An admitted approval that filed its reservation and logged it backs its token. -/
theorem backedBy_of_admitted {cfg : KernelConfig} {t : LedgerTransition} {intent : OrderIntent}
    {context : EvaluationContext} {amount : MoneyMicros}
    (hadm : Admitted t.pre.ledger intent context amount)
    (hledger : t.post.ledger =
      t.pre.ledger.add (approvedReservation cfg t.pre.ledger intent context amount))
    (hlog : ∃ events, t.post.log = t.pre.log ++ events ∧
      (approvedReservation cfg t.pre.ledger intent context amount).createdEvent ∈ events) :
    BackedBy t intent context
      (approvedToken cfg t.pre.ledger intent context amount).claims
      (approvedReservation cfg t.pre.ledger intent context amount) := by
  refine ⟨hadm.cost, ?_, ?_, rfl, hlog⟩
  · rw [hledger, ReservationLedger.add_active]
    exact OrderedDict.get?_set_self _ _ _
  · rw [OrderedDict.get?_eq_none_iff]
    exact fun h => hadm.fresh_id (t.pre.ledger.active_seen _ h)

/-- An operation that signs nothing and hands nothing over is atomic. -/
theorem Atomic.of_silent {t : LedgerTransition} (hissued : t.post.issued = t.pre.issued)
    (htoken : t.output.token? = none)
    (hveto : ∀ outcome, t.output = .approval outcome → outcome.decision.vetoed = true →
      t.post = t.pre)
    (hraise : ∀ env intent context e, t.input = .approve env intent context →
      t.output = .raised e →
      ∀ event ∈ t.post.log.drop t.pre.log.length, event.eventType ≠ "ApprovalTokenIssued") :
    Atomic t where
  signed_backed := ⟨[], by simpa using hissued, by simp⟩
  delivered_signed token h := by simp [htoken] at h
  veto_inert outcome h hv := by
    refine ⟨?_, hveto outcome h hv⟩
    rw [h] at htoken
    exact htoken
  raise_empty env intent context e hin hout := ⟨htoken, hraise env intent context e hin hout⟩

theorem createdEvent_eventType (r : Reservation) :
    r.createdEvent.eventType ≠ "ApprovalTokenIssued" := by
  simp [Reservation.createdEvent, reservationCreatedEvent, kernelEvent]

/-- Each approval is atomic: vetoed, granted, or raising at any of its steps. -/
theorem atomic_approve (cfg : KernelConfig) (w : KernelWorld) (env : KernelEnv)
    (intent : OrderIntent) (context : EvaluationContext) :
    Atomic (transition (ledgerStep cfg) w (.approve env intent context)) := by
  cases h : (approve cfg env intent context).run w with
  | ok outcome w' =>
      have ht : transition (ledgerStep cfg) w (.approve env intent context) =
          ⟨w, .approve env intent context, .approval outcome, w'⟩ := by
        simp [transition, ledgerStep, h, reply]
      rw [ht]
      rcases approve_ok h with ⟨hv, htok, rfl⟩ | ⟨amount, hadm, hv, htok, hw'⟩
      · refine Atomic.of_silent rfl htok (fun _ _ _ => rfl) ?_
        intro _ _ _ e _ hout
        cases hout
      · have hissued : w'.issued = w.issued ++ [approvedToken cfg w.ledger intent context amount] := by
          rw [hw']; rfl
        constructor
        · refine ⟨_, hissued, fun token ht => ?_⟩
          rw [List.mem_singleton.mp ht]
          refine ⟨env, intent, context, _, rfl, claimsOf_approvedToken _ _ _ _ _,
            backedBy_of_admitted hadm (by rw [hw']; rfl) ?_⟩
          rw [hw']
          exact ⟨_, List.append_assoc _ _ _, List.mem_append_left _ (List.mem_singleton_self _)⟩
        · intro token htoken
          rw [hissued, Option.some.inj (htok.symm.trans htoken)]
        · intro outcome' hout hveto
          cases hout
          exact absurd hveto (by simp [hv])
        · intro _ _ _ e _ hout
          cases hout
  | error e w' =>
      have ht : transition (ledgerStep cfg) w (.approve env intent context) =
          ⟨w, .approve env intent context, .raised e, w'⟩ := by
        simp [transition, ledgerStep, h, reply]
      rw [ht]
      obtain ⟨amount, hadm, hledger, hcase⟩ := approve_error h
      have hlog : w'.log = w.log ∨ w'.log = w.log ++
          [(approvedReservation cfg w.ledger intent context amount).createdEvent] :=
        hcase.elim And.right fun hc => Or.inr hc.2
      have hraise : ∀ event ∈ w'.log.drop w.log.length,
          event.eventType ≠ "ApprovalTokenIssued" := by
        rcases hlog with hlog | hlog
        · simp [hlog]
        · simp [hlog, createdEvent_eventType]
      rcases hcase with ⟨hissued, -⟩ | ⟨hissued, hlog⟩
      · refine Atomic.of_silent hissued rfl ?_ fun _ _ _ _ _ _ => hraise
        intro _ hout
        cases hout
      · constructor
        · refine ⟨_, hissued, fun token ht => ?_⟩
          rw [List.mem_singleton.mp ht]
          exact ⟨env, intent, context, _, rfl, claimsOf_approvedToken _ _ _ _ _,
            backedBy_of_admitted hadm hledger ⟨_, hlog, List.mem_singleton_self _⟩⟩
        · intro token htoken
          cases htoken
        · intro _ hout
          cases hout
        · exact fun _ _ _ _ _ _ => ⟨rfl, hraise⟩

theorem token?_reply_done {α : Type} (x : EStateM.Result KernelError KernelWorld α) :
    (reply (fun _ => LedgerReply.done) x).1.token? = none ∧
      ∀ outcome, (reply (fun _ => LedgerReply.done) x).1 ≠ .approval outcome := by
  cases x <;> simp [reply, LedgerReply.token?]

/-- **Every operation is atomic** with respect to tokens, from every world. -/
theorem ledgerStep_atomic (cfg : KernelConfig) (w : KernelWorld) (op : LedgerOp) :
    Atomic (transition (ledgerStep cfg) w op) := by
  by_cases happ : ∃ env intent context, op = .approve env intent context
  · obtain ⟨env, intent, context, rfl⟩ := happ
    exact atomic_approve cfg w env intent context
  · have hmem : (ledgerStep cfg w op).2.memory = w.memory := by
      rcases ledgerStep_memory cfg w op with h | ⟨env, intent, context, _, rfl, -⟩
      · exact h
      · exact absurd ⟨env, intent, context, rfl⟩ happ
    have hout : (ledgerStep cfg w op).1.token? = none ∧
        ∀ outcome, (ledgerStep cfg w op).1 ≠ .approval outcome := by
      cases op with
      | approve env intent context => exact absurd ⟨env, intent, context, rfl⟩ happ
      | release env id reason => exact token?_reply_done _
      | releaseAllActive env reason => exact token?_reply_done _
      | adjust env id remaining => exact token?_reply_done _
      | expireDue env now => exact token?_reply_done _
    simp only [KernelWorld.memory, Prod.mk.injEq] at hmem
    refine Atomic.of_silent hmem.2.2.2 hout.1 (fun outcome h => absurd h (hout.2 outcome)) ?_
    intro env intent context _ h
    exact absurd ⟨env, intent, context, h⟩ happ

/-- **Approval atomicity and single issuance.**  Over every run from a freshly wired process, with
the writer and the issuer raising wherever they may, the tokens ever signed are distinct in intent
id and in idempotency key and their sequence numbers climb, and every operation is atomic. -/
theorem approval_atomicity_and_single_issuance (cfg : KernelConfig) (machine : ModeStateMachine)
    (ops : List LedgerOp) :
    let w := run (ledgerStep cfg) (KernelWorld.fresh machine) ops
    (w.issued.map (·.claims.intentId)).Nodup ∧
      (w.issued.map (·.claims.idempotencyKey)).Nodup ∧
      (w.issued.map (·.claims.kernelSequenceNumber)).Pairwise (· < ·) ∧
      ∀ t ∈ trace (ledgerStep cfg) (KernelWorld.fresh machine) ops, Atomic t := by
  have hinv := run_invariant (ledgerStep_issuedOnce cfg) (issuedOnce_fresh machine) ops
  refine ⟨hinv.ids_nodup, hinv.keys_nodup, hinv.sequence_increasing, fun t ht => ?_⟩
  obtain ⟨before, _, -, h⟩ := mem_trace.mp ht
  rw [h]
  exact ledgerStep_atomic cfg _ _

/-! ## A sample process

A wiring, an intent and a permissive context, for the runs on fixed inputs below and in later
modules.  Each changes only the fields it is about.
-/

/-- A stand-in for the keyed hash; nothing below looks at the digest. -/
def sampleHmac : HmacSha256 := ⟨fun _ _ => List.replicate 32 0, fun _ _ => by simp⟩

def sampleConfig : KernelConfig where
  hmac := sampleHmac
  signingKey := ⟨List.replicate 32 7, by simp⟩
  tokenTtlSeconds := 60
  configHash := "config-0001"
  ackTtlSeconds := 3600
  switchHasLedger := true
  switchHasDirectiveSink := true
  switchHasStateDir := true
  hasWatcher := true
  mismatchThreshold := some 3
  verifierTolerances := some ⟨⟨1000000⟩, ⟨0⟩⟩
  ledgerBlockedPromotions := false

def sampleIntent : OrderIntent where
  intentId := "intent-0001"
  marketTicker := "PRES-2028-DEM"
  outcome := "yes"
  action := "buy"
  price := ⟨5000⟩
  size := ⟨1000⟩
  maxNotional := ⟨50000000⟩
  impliedProbability := ⟨520000⟩
  idempotencyKey := "idem-0001"

def sampleLimits : RiskLimits where
  floor := ⟨0⟩
  instrumentWhitelist := {"PRES-2028-DEM"}
  microCap := ⟨1000000000000⟩
  minOpenPrice := ⟨0⟩
  maxOpenPrice := ⟨10000⟩
  maxParticipationPpm := 1000000
  maxPosMarketPctPpm := 1000000
  maxPosEventPctPpm := 1000000
  maxPosBucketPctPpm := 1000000
  maxPosTotalPctPpm := 1000000
  dailyLossLimitPctPpm := 1000000
  maxDrawdownPctPpm := 1000000
  maxOrdersPerHour := 1000
  maxNotionalPerDay := ⟨1000000000000⟩
  quoteTtlSeconds := 3600
  forecastTtlSeconds := 3600
  clockSkewMaxSeconds := 3600
  roundingBuffer := ⟨0⟩
  verificationTtlSeconds := 3600
  requireHumanAckAboveMicros := none
  exchangeStatusTtlSeconds := 3600
  pipelineHeartbeatTtlSeconds := 3600

def sampleAccount : AccountState where
  exchangeVerifiedAvailableCash := ⟨1000000000⟩
  guaranteedTerminalValueOfPositions := ⟨0⟩
  pendingKernelReservations := ⟨0⟩
  unresolvedFeeUpperBounds := ⟨0⟩
  reconciliationUncertaintyBuffer := ⟨0⟩
  equityStartOfDay := ⟨1000000000⟩
  equityHighWaterMark := ⟨1000000000⟩
  sampledEquity := ⟨1000000000⟩
  realizedLossToday := ⟨0⟩
  marketExposure := ⟨0⟩
  eventExposure := ⟨0⟩
  bucketExposure := ⟨0⟩
  totalExposure := ⟨0⟩
  ordersLastHour := 0
  notionalToday := ⟨0⟩

def sampleContext : EvaluationContext where
  mode := .LIVE
  limits := sampleLimits
  account := sampleAccount
  market :=
    { quoteSnapshotEpochS := some 1700000000
      forecastEpochS := some 1700000000
      visibleDepth := some ⟨10000000⟩
      exchangeClockEpochS := some 1700000000
      openPosition := none
      exchangeStatus := some .OPEN
      exchangeStatusEpochS := some 1700000000
      jurisdictionStatus := some .ELIGIBLE
      productType := some .FULLY_COLLATERALIZED_BINARY }
  fees := ⟨some ⟨0⟩, some ⟨0⟩⟩
  nowEpochS := 1700000000
  usedIntentIds := ∅
  usedIdempotencyKeys := ∅
  verification := some
    { outcome := .CLEAN
      balanceOk := true
      positionOk := true
      openOrderOk := true
      verifiedAtEpochS := 1700000000
      exchangeVerifiedAvailableCash := ⟨1000000000⟩
      cashDrift := ⟨0⟩
      semanticsFullyKnown := true }
  acknowledgedIntentIds := ∅
  pipelineHeartbeatEpochS := some 1700000000

def sampleMachine : ModeStateMachine := ⟨.LIVE, .LIVE, 3, Mode.ladderRank_live⟩

def sampleWorld : KernelWorld := KernelWorld.fresh sampleMachine

example : (evaluateIntent sampleIntent sampleContext defaultChecks).reasons = [] := by decide

end Windbreak

/-! ## What an approval reserves

An approval reserves the order's worst-case cost, and the reserved total is what the next approval
is held to.  No check asks whether the size or the price is positive, so the cost may be zero or
negative: the fee bounds and the buffer then decide what the reservation is worth.

* **`approval_reserves`** — an approval files the signed notional with the fee bounds and the buffer
  on top, and the reserved total moves by exactly that.
* **`backed_iff_costs_capital`** — over every run, each approval is backed by positive capital and
  raises the reserved total exactly when each has a positive sum.
* **`negative_size_creates_headroom`** — an order of negative size is approved, and the total falls.
-/

namespace Windbreak

open Machine Effects

/-- The fee bounds a context carries are not negative. -/
def NonnegFees (context : EvaluationContext) : Prop :=
  (∀ fee ∈ context.fees.maxTradingFee, 0 ≤ fee.value) ∧
    ∀ fee ∈ context.fees.maxSettlementFee, 0 ≤ fee.value

/-- **Every approval is backed by positive capital**, and raises the reserved total. -/
def BackedByCapital (t : LedgerTransition) : Prop :=
  ∀ env intent context, Approves t env intent context → NonnegFees context →
    (∃ r, t.post.ledger.active.get? intent.intentId = some r ∧ 0 < r.amount.value) ∧
      t.pre.ledger.totalReserved < t.post.ledger.totalReserved

/-- Every intent that is approved has a positive sum of signed notional, fee bounds and buffer. -/
def CostsCapital (t : LedgerTransition) : Prop :=
  ∀ env intent context, Approves t env intent context → NonnegFees context →
    ∀ trading settlement, context.fees.maxTradingFee = some trading →
      context.fees.maxSettlementFee = some settlement →
      0 < intent.price.value * intent.size.value + trading.value + settlement.value +
        context.limits.roundingBuffer.value

/-- **An approval files the signed notional with the fee bounds and the buffer on top**, and the
reserved total moves by exactly that. -/
theorem approval_reserves {cfg : KernelConfig} {w : KernelWorld} {op : LedgerOp} {env : KernelEnv}
    {intent : OrderIntent} {context : EvaluationContext}
    (h : Approves (transition (ledgerStep cfg) w op) env intent context) :
    ∃ trading settlement r, context.fees.maxTradingFee = some trading ∧
      context.fees.maxSettlementFee = some settlement ∧
      (ledgerStep cfg w op).2.ledger.active.get? intent.intentId = some r ∧
      r.amount.value = intent.price.value * intent.size.value + trading.value + settlement.value +
        context.limits.roundingBuffer.value ∧
      (ledgerStep cfg w op).2.ledger.totalReserved.value =
        w.ledger.totalReserved.value + r.amount.value := by
  rcases ledgerStep_memory cfg w op with hsame | ⟨env', intent', context', amount, hop, hadm,
    hledger, -⟩
  · exact absurd hsame h.admitted
  · have hinput : op = .approve env intent context := h.input
    rw [hop] at hinput
    cases hinput
    obtain ⟨trading, settlement, htrading, hsettlement, hamount⟩ := orderCost_ok.mp hadm.cost
    set r := approvedReservation cfg w.ledger intent context amount with hr
    refine ⟨trading, settlement, r, htrading, hsettlement, ?_, ?_, ?_⟩
    · rw [hledger, ReservationLedger.add_active]
      exact OrderedDict.get?_set_self _ _ _
    · simp [hr, approvedReservation, nextReservation, hamount, worstCaseCost]
    · rw [hledger, ReservationLedger.totalReserved_add hadm.fresh_id]
      rfl

/-- **Over every run, each approval is backed by positive capital exactly when** each has a positive
sum of signed notional, fee bounds and buffer. -/
theorem backed_iff_costs_capital (cfg : KernelConfig) (w : KernelWorld) (ops : List LedgerOp) :
    (∀ t ∈ trace (ledgerStep cfg) w ops, BackedByCapital t) ↔
      ∀ t ∈ trace (ledgerStep cfg) w ops, CostsCapital t := by
  refine trace_iff (I := fun _ => True) (fun _ _ _ => trivial) ?_ trivial ops
  intro v op _
  constructor
  · intro h env intent context happroves hfees trading settlement htrading hsettlement
    obtain ⟨⟨r, hr, hpositive⟩, -⟩ := h env intent context happroves hfees
    obtain ⟨trading', settlement', r', htrading', hsettlement', hr', hamount, -⟩ :=
      approval_reserves happroves
    cases htrading.symm.trans htrading'
    cases hsettlement.symm.trans hsettlement'
    cases hr.symm.trans hr'
    rwa [hamount] at hpositive
  · intro h env intent context happroves hfees
    obtain ⟨trading, settlement, r, htrading, hsettlement, hr, hamount, htotal⟩ :=
      approval_reserves happroves
    have hpositive := h env intent context happroves hfees trading settlement htrading hsettlement
    rw [← hamount] at hpositive
    refine ⟨⟨r, hr, hpositive⟩, ?_⟩
    have hlt : v.ledger.totalReserved.value <
        (ledgerStep cfg v op).2.ledger.totalReserved.value := by omega
    exact hlt

/-! ## An order of negative size -/

/-- The sample order with its size negated. -/
def negativeIntent : OrderIntent := { sampleIntent with size := ⟨-1000⟩ }

/-- The order is approved, and what it reserves is below zero. -/
theorem negative_size_creates_headroom :
    ¬ ∀ (cfg : KernelConfig) (w : KernelWorld) (ops : List LedgerOp),
      ∀ t ∈ trace (ledgerStep cfg) w ops, BackedByCapital t := by
  intro h
  let op : LedgerOp := .approve .quiet negativeIntent sampleContext
  have hbacked : BackedByCapital (transition (ledgerStep sampleConfig) sampleWorld op) :=
    h sampleConfig sampleWorld [op] _ (List.mem_singleton_self _)
  have hmemory : ((ledgerStep sampleConfig sampleWorld op).2.memory.2.2.1 == 1) = true := by
    decide +kernel
  have happroves : Approves (transition (ledgerStep sampleConfig) sampleWorld op) .quiet
      negativeIntent sampleContext := by
    refine ⟨rfl, fun hsame => ?_⟩
    simp only [transition] at hsame
    rw [hsame] at hmemory
    exact absurd hmemory (by decide)
  obtain ⟨-, htotal⟩ := hbacked _ _ _ happroves ⟨by decide, by decide⟩
  have hfalls : (ledgerStep sampleConfig sampleWorld op).2.ledger.totalReserved.value =
      -5000000 := by decide +kernel
  have hlt : sampleWorld.ledger.totalReserved.value <
    (ledgerStep sampleConfig sampleWorld op).2.ledger.totalReserved.value := htotal
  rw [hfalls] at hlt
  exact absurd hlt (by decide)

end Windbreak
