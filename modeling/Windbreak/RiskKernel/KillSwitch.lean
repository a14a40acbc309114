import Windbreak.RiskKernel.Reservations

/-!
# The kill switch

One executor, four triggers, one way back.  `kill` drives the shared machine to `KILLED` first and
then works through its effects in order: the `KillEngaged` record, the cancel-all directive and its
record, the release of every reservation, the alert, the `KILL` file, the alert's own record.  Only
the directive sink is guarded; anything else that raises ends the call where it stands.

* **Executor** — `kill`, `rearm`.
* **Triggers** — `pollOnce` over the `KILL` and `REARM` files, `observe` over verification
  outcomes, `requestChallenge` and `confirm` for the dashboard.
* **Replay** — `killStateIn` folds a recorded history into the sequence number and the flag that a
  restart restores.
* **Frames** — which parts of the world each of them can change.
-/

namespace Windbreak

/-! ## Names and texts -/

/-- The four sources that can engage the switch. -/
inductive KillTrigger where
  | CLI
  | KILL_FILE
  | DASHBOARD
  | AUTO_RECONCILIATION
  deriving DecidableEq, Repr

def KillTrigger.name : KillTrigger → String
  | CLI => "CLI"
  | KILL_FILE => "KILL_FILE"
  | DASHBOARD => "DASHBOARD"
  | AUTO_RECONCILIATION => "AUTO_RECONCILIATION"

/-- The single cancel-all scope: resting orders, never positions. -/
def cancelAllScope : String := "all_open_orders"

/-- The reason stamped on every release of the kill path. -/
def killReleaseReason : String := "kill_switch_engaged"

/-- The body of the alert. -/
def haltKillBody : String := "kill switch engaged; trading halted, positions held"

/-- The severity the alert is registered at. -/
def haltKillSeverity : String := "critical"

namespace DirectiveDelivery

/-- Whether the venue took the whole instruction. -/
def fullyDelivered (d : DirectiveDelivery) : Bool := !d.errored && d.failed == 0

/-- The closed word for what the venue did. -/
def outcome (d : DirectiveDelivery) : String :=
  if d.errored then "errored"
  else if d.failed = 0 then "delivered"
  else if d.cancelled = 0 then "refused"
  else "partial"

end DirectiveDelivery

/-- The rows a ledger may hold about a delivery; none when nothing was reported. -/
def ledgerDirectiveDelivery : Option DirectiveDelivery → List (String × Json)
  | none => []
  | some d => [("cancelled", .int d.cancelled), ("failed", .int d.failed),
      ("outcome", .str d.outcome)]

/-- The rows a ledger may hold about a dispatch; none when nothing was reported. -/
def ledgerDeliveries : Option (List SinkDelivery) → List Json
  | none => []
  | some deliveries => deliveries.map fun d =>
      .obj [("sink", .str d.sink), ("outcome", .str d.outcome), ("fallback", .bool d.fallback)]

/-- The alert's body, naming a cancel-all that did not fully land. -/
def haltKillMessage : Option DirectiveDelivery → String
  | none => haltKillBody
  | some d =>
    if d.fullyDelivered then haltKillBody
    else haltKillBody ++ "; resting-order cancellation NOT confirmed at the venue" ++
      s!" (outcome={d.outcome}, cancelled={d.cancelled}, failed={d.failed})"

/-- The phrase that re-arms one numbered kill. -/
def expectedRearmPhrase (killSequence : ℤ) : String :=
  s!"RE-ARM KILL {killSequence}: I ACCEPT FULL RESPONSIBILITY"

/-! ## The effects of a kill -/

/-- Hand the directive to the wired sink; a sink that raises counts as an errored delivery. -/
def deliver (cfg : KernelConfig) (env : KernelEnv) : KernelM (Option DirectiveDelivery) :=
  if cfg.switchHasDirectiveSink then do
    noteCall (.submitDirective cancelAllScope)
    match env.directive with
    | .ok delivery => return delivery
    | .error _ => return some ⟨0, 0, true⟩
  else
    return none

/-- The record of a delivered directive. -/
def cancelAllRecord (delivery : Option DirectiveDelivery) : Event :=
  cancelAllDirectiveEvent cancelAllScope (ledgerDirectiveDelivery delivery) delivery.isSome

/-- Deliver the cancel-all directive, then record what happened to it. -/
def emitCancelAll (cfg : KernelConfig) (env : KernelEnv) :
    KernelM (Option DirectiveDelivery) := do
  let delivery ← deliver cfg env
  record env (cancelAllRecord delivery)
  return delivery

/-- Release every active reservation when a ledger is wired. -/
def releaseReservations (cfg : KernelConfig) (env : KernelEnv) : KernelM Unit :=
  if cfg.switchHasLedger then releaseAllActive env killReleaseReason else pure ()

/-- Drop the `KILL` file when a state directory is wired. -/
def writeKillFile (cfg : KernelConfig) (env : KernelEnv) : KernelM Unit :=
  if cfg.switchHasStateDir then do
    noteCall .writeKillFile
    if env.killFileRaises then throw ⟨.filesystem, "KILL file not written"⟩
    else modify (·.withKillFile true)
  else
    pure ()

/-- The last three effects of a kill: the alert, the `KILL` file, the record of the alert. -/
def pageOperator (cfg : KernelConfig) (env : KernelEnv) (message : String) : KernelM Unit := do
  let report ← dispatchAlert env .HALT_KILL message
  writeKillFile cfg env
  record env (alertEmittedEvent haltKillSeverity message (ledgerDeliveries report) report.isSome)

/-- Everything `kill` does once it is announced. -/
def killAftermath (cfg : KernelConfig) (env : KernelEnv) : KernelM Unit := do
  let delivery ← emitCancelAll cfg env
  releaseReservations cfg env
  pageOperator cfg env (haltKillMessage delivery)

/-- Everything `kill` does once the machine is in `KILLED` and the kill has its number. -/
def killEffects (cfg : KernelConfig) (env : KernelEnv) (trigger : KillTrigger)
    (killSequence : ℤ) : KernelM Unit := do
  record env (killEngagedEvent trigger.name killSequence env.clock)
  killAftermath cfg env

/-! ## The executor -/

/-- Engage the switch; a no-op when the machine is already in `KILLED`. -/
def kill (cfg : KernelConfig) (env : KernelEnv) (trigger : KillTrigger) : KernelM Unit := do
  let w ← get
  if w.mode = .KILLED then pure ()
  else
    moveMode (·.transition .KILLED)
    modify fun w => w.withKillSequence (w.killSequence + 1)
    killEffects cfg env trigger (w.killSequence + 1)

/-- Re-arm out of `KILLED` into `PAUSED` on the exact phrase for the active kill. -/
def rearm (env : KernelEnv) (confirmation : String) : KernelM Unit := do
  let w ← get
  if w.mode ≠ .KILLED then throw ⟨.killReArm, "rearm is only valid from KILLED"⟩
  else if confirmation ≠ expectedRearmPhrase w.killSequence then
    throw ⟨.killReArm, "rearm confirmation phrase does not match"⟩
  else
    moveMode (·.rearm rearmConfirmationPhrase)
    moveMode (·.transition .PAUSED)
    record env (killReArmedEvent w.killSequence)

/-! ## The triggers -/

/-- Read a `REARM` file and try its phrase; an unreadable file or a rejected phrase re-arms
nothing. -/
def attemptRearm (env : KernelEnv) (file : RearmFile) : KernelM Bool :=
  match file with
  | .unreadable => return false
  | .phrase text =>
    tryCatch (do rearm env text; return true) fun e =>
      if e.kind = .killReArm then return false else throw e

/-- Try the `REARM` file and consume it whatever happens; clear the `KILL` file on success. -/
def consumeRearmFile (env : KernelEnv) : KernelM Unit := do
  let w ← get
  match w.rearmFile with
  | none => pure ()
  | some file =>
    let rearmed ← tryCatch (attemptRearm env file) fun e => do
      modify (·.withRearmFile none)
      throw e
    modify (·.withRearmFile none)
    if rearmed then modify (·.withKillFile false) else pure ()

/-- Scan the state directory once. -/
def pollOnce (cfg : KernelConfig) (env : KernelEnv) : KernelM Unit := do
  let w ← get
  if w.mode ≠ .KILLED then
    if w.killFile then kill cfg env .KILL_FILE else pure ()
  else
    consumeRearmFile env

/-- Fold one verification outcome into the run of breaches, killing at the threshold. -/
def observe (cfg : KernelConfig) (env : KernelEnv) (threshold : ℤ)
    (outcome : VerificationOutcome) : KernelM Unit :=
  if outcome ≠ .BREACH then modify (·.withBreaches 0)
  else do
    modify fun w => w.withBreaches (w.consecutiveBreaches + 1)
    let w ← get
    if threshold ≤ w.consecutiveBreaches then kill cfg env .AUTO_RECONCILIATION else pure ()

/-- Mint a single-use nonce for the dashboard. -/
def requestChallenge (env : KernelEnv) : KernelM String := do
  modify (·.withChallenge (some env.freshToken))
  return env.freshToken

/-- Whether the constant-time comparison accepts a string. -/
def isAscii (text : String) : Bool := text.toList.all fun c => decide (c.toNat < 128)

/-- The refusal of a wrong or used nonce. -/
def challengeError : KernelError :=
  ⟨.dashboardChallenge, "dashboard kill confirmation token is invalid"⟩

/-- Kill on the exact, unused nonce. -/
def confirm (cfg : KernelConfig) (env : KernelEnv) (token : String) : KernelM Unit := do
  let w ← get
  match w.pendingChallenge with
  | none => throw challengeError
  | some pending =>
    if !(isAscii token && isAscii pending) then
      throw ⟨.typeError, "comparing strings with non-ASCII characters is not supported"⟩
    else if token ≠ pending then throw challengeError
    else
      modify (·.withChallenge none)
      kill cfg env .DASHBOARD

/-! ## Replay -/

/-- What a restart recovers about kills. -/
@[ext]
structure ReplayedKillState where
  lastKillSequence : ℤ
  killed : Bool
  deriving DecidableEq, Repr

/-- The kill number an event carries. -/
def killSequenceOf (event : Event) : Except KernelError ℤ :=
  match event.int? "kill_sequence" with
  | some n => .ok n
  | none => .error ⟨.keyError, "kill_sequence"⟩

/-- Fold one event. -/
def killStateStep (state : ReplayedKillState) (event : Event) :
    Except KernelError ReplayedKillState :=
  if event.eventType = "KillEngaged" then do
    let n ← killSequenceOf event
    return ⟨n, true⟩
  else if event.eventType = "KillReArmed" then do
    let n ← killSequenceOf event
    return if n = state.lastKillSequence then { state with killed := false } else state
  else
    return state

/-- Fold a history into its durable kill state. -/
def killStateIn (events : List Event) : Except KernelError ReplayedKillState :=
  events.foldlM killStateStep ⟨0, false⟩

/-- Rebuild a switch: only its counter is restored. -/
def KillSwitch.fromEvents (events : List Event) : Except KernelError ℤ := do
  let state ← killStateIn events
  return state.lastKillSequence

/-! ## What a kill does first -/

/-- The world once the machine is in `KILLED` and the kill has its number. -/
def KernelWorld.engaged (w : KernelWorld) : KernelWorld :=
  (w.withMachine (w.machine.withMode .KILLED)).withKillSequence (w.killSequence + 1)

@[simp] theorem engaged_mode (w : KernelWorld) : w.engaged.mode = .KILLED := rfl

@[simp] theorem engaged_ledger (w : KernelWorld) : w.engaged.ledger = w.ledger := rfl

@[simp] theorem engaged_calls (w : KernelWorld) : w.engaged.calls = w.calls := rfl

@[simp] theorem engaged_log (w : KernelWorld) : w.engaged.log = w.log := rfl

/-- The machine can always be driven to `KILLED`. -/
theorem transition_killed {machine : ModeStateMachine} (h : machine.mode ≠ .KILLED) :
    machine.transition .KILLED = .ok (machine.withMode .KILLED) := by
  have hmem : Mode.KILLED ∈ machine.mode.allowedTransitions :=
    Mode.killed_mem_allowedTransitions h
  rw [ModeStateMachine.transition, if_neg (not_not.mpr hmem)]
  rfl

/-- A kill from `KILLED` does nothing. -/
theorem kill_of_killed (cfg : KernelConfig) (env : KernelEnv) (trigger : KillTrigger)
    {w : KernelWorld} (h : w.mode = .KILLED) : (kill cfg env trigger).run w = .ok () w := by
  rw [kill, EStateM.run_bind, EStateM.run_get]
  dsimp only
  rw [if_pos h]
  rfl

/-- **A kill from any other mode** is `KILLED` and numbered before its first effect. -/
theorem kill_of_not_killed (cfg : KernelConfig) (env : KernelEnv) (trigger : KillTrigger)
    {w : KernelWorld} (h : w.mode ≠ .KILLED) :
    (kill cfg env trigger).run w =
      (killEffects cfg env trigger (w.killSequence + 1)).run w.engaged := by
  rw [kill, EStateM.run_bind, EStateM.run_get]
  dsimp only
  rw [if_neg h, EStateM.run_bind, moveMode_run, transition_killed h]
  dsimp only
  rw [EStateM.run_bind, EStateM.run_modify]
  rfl

/-! ## What its effects can touch -/

/-- The two events that replay reads. -/
def Event.isLatch (event : Event) : Bool :=
  event.eventType == "KillEngaged" || event.eventType == "KillReArmed"

section Aftermath

variable {R : KernelWorld → KernelWorld → Prop} [IsPreorder KernelWorld R] {env : KernelEnv}

theorem releaseEach_moves
    (hrecord : ∀ event, event.isLatch = false → Effects.Moves R (record env event))
    (hdrop : ∀ w id, R w (w.withLedger (w.ledger.drop id))) (ids : List String) (reason : String) :
    Effects.Moves R (releaseEach env ids reason) :=
  Effects.Moves.forM fun id _ =>
    Effects.Moves.bind (Effects.Moves.modify fun w => hdrop w id) fun _ => hrecord _ rfl

theorem pageOperator_moves (cfg : KernelConfig) (message : String)
    (hcall : ∀ w call, R w (w.noted call))
    (hrecord : ∀ event, event.isLatch = false → Effects.Moves R (record env event))
    (hfile : ∀ w present, R w (w.withKillFile present)) :
    Effects.Moves R (pageOperator cfg env message) := by
  have hnote : ∀ call, Effects.Moves R (noteCall call) := fun call w => hcall w call
  refine Effects.Moves.bind ?_ fun report => Effects.Moves.bind ?_ fun _ => hrecord _ rfl
  · refine Effects.Moves.bind (hnote _) fun _ => ?_
    split
    · exact Effects.Moves.pure _
    · exact Effects.Moves.throw _
  · refine Effects.Moves.ite (fun _ => Effects.Moves.bind (hnote _) fun _ => ?_)
      fun _ => Effects.Moves.pure _
    exact Effects.Moves.ite (fun _ => Effects.Moves.throw _)
      fun _ => Effects.Moves.modify fun w => hfile w true

/-- **What a kill does once announced** moves along every preorder that calls, records other than
the two of replay, dropped reservations and the `KILL` file move along. -/
theorem killAftermath_moves (cfg : KernelConfig)
    (hcall : ∀ w call, R w (w.noted call))
    (hrecord : ∀ event, event.isLatch = false → Effects.Moves R (record env event))
    (hdrop : ∀ w id, R w (w.withLedger (w.ledger.drop id)))
    (hfile : ∀ w present, R w (w.withKillFile present)) :
    Effects.Moves R (killAftermath cfg env) := by
  have hnote : ∀ call, Effects.Moves R (noteCall call) := fun call w => hcall w call
  refine Effects.Moves.bind ?_ fun delivery => Effects.Moves.bind ?_ fun _ =>
    pageOperator_moves cfg _ hcall hrecord hfile
  · refine Effects.Moves.bind ?_ fun delivery =>
      Effects.Moves.bind (hrecord _ rfl) fun _ => Effects.Moves.pure _
    refine Effects.Moves.ite (fun _ => Effects.Moves.bind (hnote _) fun _ => ?_)
      fun _ => Effects.Moves.pure _
    split
    · exact Effects.Moves.pure _
    · exact Effects.Moves.pure _
  · refine Effects.Moves.ite (fun _ => ?_) fun _ => Effects.Moves.pure _
    exact Effects.Moves.bind Effects.Moves.get fun w => releaseEach_moves hrecord hdrop _ _

end Aftermath

/-- The effects of a kill leave the machine and the number alone. -/
theorem killEffects_frames (cfg : KernelConfig) (env : KernelEnv) (trigger : KillTrigger) (n : ℤ) :
    Effects.Frames (fun w => (w.machine, w.killSequence)) (killEffects cfg env trigger n) := by
  have hrecord : ∀ event, Effects.Frames (fun w : KernelWorld => (w.machine, w.killSequence))
      (record env event) := fun event => record_frames env event (fun _ _ => rfl) fun _ => rfl
  refine Effects.Moves.bind (hrecord _) fun _ => ?_
  exact killAftermath_moves cfg (fun _ _ => rfl) (fun event _ => hrecord event) (fun _ _ => rfl)
    fun _ _ => rfl

/-- **A kill always ends in `KILLED`**, whatever raises. -/
theorem kill_mode (cfg : KernelConfig) (env : KernelEnv) (trigger : KillTrigger)
    (w : KernelWorld) : (Effects.finalState ((kill cfg env trigger).run w)).mode = .KILLED := by
  by_cases h : w.mode = .KILLED
  · rw [kill_of_killed cfg env trigger h]
    exact h
  · rw [kill_of_not_killed cfg env trigger h]
    have hframe := killEffects_frames cfg env trigger (w.killSequence + 1) w.engaged
    exact congrArg (fun p : ModeStateMachine × ℤ => p.1.mode) hframe

end Windbreak
