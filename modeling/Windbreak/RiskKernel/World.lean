import Mathlib.Tactic.Simps.Basic
import Windbreak.Core.Effects
import Windbreak.Ledger.Events
import Windbreak.RiskKernel.ReservationLedger
import Windbreak.Tokens.Verify

/-!
# The kernel process: its objects, its collaborators, its effects

The objects of the kernel process hold references to one another (the pipeline and the ack queue
share a reservation ledger, the kill switch shares the mode machine and the ledger, everyone shares
one event writer).  Here they are the fields of one `KernelWorld`, and every method is a
computation over it that may raise.

* **`KernelConfig`** — what is fixed when the process is wired.
* **`KernelEnv`** — what the collaborators do during one call: which records raise, whether the
  issuer raises, what the directive sink and the alert dispatcher answer, what the clock reads.
  Every operation takes its own, so a run may fail anywhere.
* **`KernelWorld`** — the objects.  Two of its fields are histories that no code reads: `calls`
  lists every call made to a collaborator, whether or not it raised, and `issued` every token the
  issuer has signed, whether or not it was handed over.
-/

namespace Windbreak

/-! ## Objects -/

/-- The lifecycle of an acknowledgement request. -/
inductive AckStatus where
  | PENDING
  | GRANTED
  | LAPSED
  deriving DecidableEq, Repr

/-- A requested human acknowledgement. -/
structure PendingHumanAck where
  approvalId : String
  intentId : String
  worstCaseCost : MoneyMicros
  requestedAt : ℤ
  expiresAt : ℤ
  deriving DecidableEq, Repr

/-- A queue entry. -/
structure AckRecord where
  pending : PendingHumanAck
  status : AckStatus
  deriving DecidableEq, Repr

/-- The content of a `REARM` drop file: a phrase, or bytes that cannot be read as one. -/
inductive RearmFile where
  | unreadable
  | phrase (text : String)
  deriving DecidableEq, Repr

/-- The alerts the kernel process dispatches. -/
inductive AlertType where
  | HALT_KILL
  | RECONCILIATION_MISMATCH
  | JURISDICTION_UNKNOWN
  deriving DecidableEq, Repr

/-- What a directive sink did with one cancel-all directive. -/
structure DirectiveDelivery where
  cancelled : ℤ
  failed : ℤ
  errored : Bool
  deriving DecidableEq, Repr

/-- One sink's delivery of an alert. -/
structure SinkDelivery where
  sink : String
  outcome : String
  fallback : Bool
  deriving DecidableEq, Repr

/-- A call made to a collaborator. -/
inductive Call where
  | record (event : Event)
  | issue (claims : ApprovalTokenClaims)
  | submitDirective (scope : String)
  | dispatch (alert : AlertType) (message : String)
  | writeKillFile

/-! ## Wiring, environment, world -/

/-- What is fixed when the process is wired.  The kill switch's ledger, directive sink and state
directory, the file watcher, the mismatch monitor and the verifier are each optional. -/
structure KernelConfig where
  hmac : HmacSha256
  signingKey : SigningKey
  tokenTtlSeconds : ℤ
  configHash : String
  ackTtlSeconds : ℤ
  switchHasLedger : Bool
  switchHasDirectiveSink : Bool
  switchHasStateDir : Bool
  hasWatcher : Bool
  mismatchThreshold : Option ℤ
  verifierTolerances : Option VerificationTolerances
  ledgerBlockedPromotions : Bool

/-- What the collaborators do during one call. -/
structure KernelEnv where
  recordRaises : Event → Bool
  issueRaises : ApprovalTokenClaims → Bool
  directive : Except String (Option DirectiveDelivery)
  dispatch : AlertType → String → Except String (Option (List SinkDelivery))
  killFileRaises : Bool
  clock : ℤ
  freshToken : String

/-- The objects of the kernel process. -/
structure KernelWorld where
  log : List Event
  calls : List Call
  issued : List SignedApprovalToken
  ledger : ReservationLedger
  ackRecords : OrderedDict String AckRecord
  machine : ModeStateMachine
  overrideApplied : Bool
  latestVerification : Option VerificationSnapshot
  killSequence : ℤ
  consecutiveBreaches : ℤ
  pendingChallenge : Option String
  killFile : Bool
  rearmFile : Option RearmFile

/-- A method of a kernel object. -/
abbrev KernelM := EStateM KernelError KernelWorld

/-- The mode of the shared machine. -/
abbrev KernelWorld.mode (w : KernelWorld) : Mode := w.machine.mode

/-- A freshly wired process around a mode machine. -/
def KernelWorld.fresh (machine : ModeStateMachine) : KernelWorld where
  log := []
  calls := []
  issued := []
  ledger := .empty
  ackRecords := .empty
  machine := machine
  overrideApplied := false
  latestVerification := none
  killSequence := 0
  consecutiveBreaches := 0
  pendingChallenge := none
  killFile := false
  rearmFile := none

/-- An environment in which nothing raises. -/
def KernelEnv.quiet : KernelEnv where
  recordRaises _ := false
  issueRaises _ := false
  directive := .ok none
  dispatch _ _ := .ok none
  killFileRaises := false
  clock := 0
  freshToken := ""

/-! ## State updates

One named update for each way the kernel's methods change the world; `simps` gives each its
projections.
-/

namespace KernelWorld

/-- A call was made to a collaborator. -/
@[simps] def noted (w : KernelWorld) (call : Call) : KernelWorld :=
  { w with calls := w.calls ++ [call] }

/-- An event reached the log. -/
@[simps] def logged (w : KernelWorld) (event : Event) : KernelWorld :=
  { w with log := w.log ++ [event] }

@[simp] theorem noted_mode (w : KernelWorld) (call : Call) : (w.noted call).mode = w.mode := rfl

@[simp] theorem logged_mode (w : KernelWorld) (event : Event) :
    (w.logged event).mode = w.mode := rfl

/-- The issuer signed a token. -/
@[simps] def signed (w : KernelWorld) (token : SignedApprovalToken) : KernelWorld :=
  { w with issued := w.issued ++ [token] }

@[simps] def withLedger (w : KernelWorld) (ledger : ReservationLedger) : KernelWorld :=
  { w with ledger := ledger }

@[simps] def withAckRecords (w : KernelWorld) (records : OrderedDict String AckRecord) :
    KernelWorld :=
  { w with ackRecords := records }

@[simps] def withMachine (w : KernelWorld) (machine : ModeStateMachine) : KernelWorld :=
  { w with machine := machine }

@[simp] theorem withMachine_mode (w : KernelWorld) (machine : ModeStateMachine) :
    (w.withMachine machine).mode = machine.mode := rfl

@[simps] def withKillSequence (w : KernelWorld) (killSequence : ℤ) : KernelWorld :=
  { w with killSequence := killSequence }

@[simps] def withOverrideApplied (w : KernelWorld) : KernelWorld :=
  { w with overrideApplied := true }

@[simps] def withVerification (w : KernelWorld) (snapshot : VerificationSnapshot) : KernelWorld :=
  { w with latestVerification := some snapshot }

@[simps] def withBreaches (w : KernelWorld) (breaches : ℤ) : KernelWorld :=
  { w with consecutiveBreaches := breaches }

@[simps] def withChallenge (w : KernelWorld) (challenge : Option String) : KernelWorld :=
  { w with pendingChallenge := challenge }

@[simps] def withKillFile (w : KernelWorld) (present : Bool) : KernelWorld :=
  { w with killFile := present }

@[simps] def withRearmFile (w : KernelWorld) (file : Option RearmFile) : KernelWorld :=
  { w with rearmFile := file }

end KernelWorld

/-! ## Primitive effects -/

/-- Note a call in the history. -/
def noteCall (call : Call) : KernelM Unit := modify (·.noted call)

/-- Record one event through the writer. -/
def record (env : KernelEnv) (event : Event) : KernelM Unit := do
  noteCall (.record event)
  if env.recordRaises event then throw ⟨.writer, "event writer failed"⟩
  else modify (·.logged event)

/-- Send one alert through the dispatcher. -/
def dispatchAlert (env : KernelEnv) (alert : AlertType) (message : String) :
    KernelM (Option (List SinkDelivery)) := do
  noteCall (.dispatch alert message)
  match env.dispatch alert message with
  | .ok report => return report
  | .error text => throw ⟨.sink, text⟩

/-- Run a pure function that may raise. -/
def raising {α : Type} (x : Except KernelError α) : KernelM α :=
  match x with
  | .ok a => pure a
  | .error e => throw e

/-- Run a step of the mode machine; a step that raises leaves the machine as it was. -/
def moveMode (step : ModeStateMachine → Except KernelError ModeStateMachine) : KernelM Unit := do
  let w ← get
  let machine ← raising (step w.machine)
  set (w.withMachine machine)

@[simp] theorem noteCall_run (call : Call) (w : KernelWorld) :
    (noteCall call).run w = .ok () (w.noted call) := rfl

@[simp] theorem raising_ok {α : Type} (a : α) (w : KernelWorld) :
    (raising (.ok a) : KernelM α).run w = .ok a w := rfl

@[simp] theorem raising_error {α : Type} (e : KernelError) (w : KernelWorld) :
    (raising (.error e) : KernelM α).run w = .error e w := rfl

theorem raising_run_ok {α : Type} {x : Except KernelError α} {a : α} {w w' : KernelWorld} :
    (raising x : KernelM α).run w = .ok a w' ↔ x = .ok a ∧ w' = w := by
  cases x with
  | ok b => simp [eq_comm]
  | error e => simp

/-- What a record does: the call is noted, and the event reaches the log unless the writer
raises. -/
theorem record_run (env : KernelEnv) (event : Event) (w : KernelWorld) :
    (record env event).run w =
      if env.recordRaises event then
        .error ⟨.writer, "event writer failed"⟩ (w.noted (.record event))
      else
        .ok () ((w.noted (.record event)).logged event) := by
  by_cases h : env.recordRaises event <;> simp [record, h]

/-- A record before other work: the work starts once the event is in the log. -/
theorem record_bind_run {α : Type} (env : KernelEnv) (event : Event) (m : Unit → KernelM α)
    (w : KernelWorld) :
    (record env event >>= m).run w =
      if env.recordRaises event then
        .error ⟨.writer, "event writer failed"⟩ (w.noted (.record event))
      else
        (m ()).run ((w.noted (.record event)).logged event) := by
  rw [EStateM.run_bind, record_run]
  by_cases h : env.recordRaises event <;> simp [h]

theorem record_ok {env : KernelEnv} {event : Event} {w w' : KernelWorld}
    (h : (record env event).run w = .ok () w') :
    env.recordRaises event = false ∧ w' = (w.noted (.record event)).logged event := by
  rw [record_run] at h
  split_ifs at h with hr
  exact ⟨by simpa using hr, by cases h; rfl⟩

theorem record_error {env : KernelEnv} {event : Event} {w w' : KernelWorld} {e : KernelError}
    (h : (record env event).run w = .error e w') :
    env.recordRaises event = true ∧ w' = w.noted (.record event) := by
  rw [record_run] at h
  split_ifs at h with hr
  exact ⟨hr, by cases h; rfl⟩

/-- A record changes the log and the history of calls, nothing else. -/
theorem record_frames {τ : Type} {f : KernelWorld → τ} (env : KernelEnv) (event : Event)
    (hcall : ∀ w call, f (w.noted call) = f w) (hlog : ∀ w, f (w.logged event) = f w) :
    Effects.Frames f (record env event) := by
  intro w
  rw [record_run]
  split
  · exact hcall w _
  · exact (hlog _).trans (hcall w _)

theorem machine_record (env : KernelEnv) (event : Event) :
    Effects.Frames KernelWorld.machine (record env event) :=
  record_frames env event (fun _ _ => rfl) fun _ => rfl

theorem dispatchAlert_run (env : KernelEnv) (alert : AlertType) (message : String)
    (w : KernelWorld) :
    (dispatchAlert env alert message).run w =
      match env.dispatch alert message with
      | .ok report => .ok report (w.noted (.dispatch alert message))
      | .error text => .error ⟨.sink, text⟩ (w.noted (.dispatch alert message)) := by
  rw [dispatchAlert, EStateM.run_bind, noteCall_run]
  cases env.dispatch alert message with
  | ok report => rfl
  | error text => rfl

theorem moveMode_run (step : ModeStateMachine → Except KernelError ModeStateMachine)
    (w : KernelWorld) :
    (moveMode step).run w =
      match step w.machine with
      | .ok machine => .ok () (w.withMachine machine)
      | .error e => .error e w := by
  unfold moveMode
  rw [EStateM.run_bind, EStateM.run_get]
  cases h : step w.machine with
  | ok machine => simp [h]
  | error e => simp [h]

theorem moveMode_ok (step : ModeStateMachine → Except KernelError ModeStateMachine)
    {w : KernelWorld} {machine : ModeStateMachine} (h : step w.machine = .ok machine) :
    (moveMode step).run w = .ok () (w.withMachine machine) := by
  rw [moveMode_run, h]

end Windbreak
