import Windbreak.RiskKernel.Kernel
import Windbreak.RiskKernel.LedgerRuns

/-!
# Runs of the kernel and its switch

Every operation on the kernel process as one machine: the reservation ledger and the pipeline, the
mode machine itself, promotions, demotions, verification cycles, and the switch with all its
triggers.  Each operation carries what its collaborators do.

* **`latchPath`** — how an operation meets the kill latch: not at all, through the switch's `kill`,
  through its `rearm`, or past the switch.  `latchPath_meets` takes a path apart.
* **`kernelStep_callsKill`** — an operation that calls `kill` is that call, from a state that only
  calls and records lie before.
-/

namespace Windbreak

open Machine Effects

/-! ## The machine -/

/-- A method of the mode machine. -/
inductive MachineMove where
  | transition (target : Mode)
  | promoteOneRung (effectiveCeiling : Mode)
  | demoteOneRung
  | rearm (confirmation : String)

def MachineMove.apply : MachineMove → ModeStateMachine → Except KernelError ModeStateMachine
  | .transition target => (·.transition target)
  | .promoteOneRung ceiling => (·.promoteOneRung ceiling)
  | .demoteOneRung => (·.demoteOneRung)
  | .rearm confirmation => (·.rearm confirmation)

/-- An operation on the kernel process. -/
inductive KernelOp where
  | ledger (op : LedgerOp)
  | machine (move : MachineMove)
  | requestPromotion (env : KernelEnv) (read : GatePlanRead) (evidence : GateEvidence)
  | applyOverride (env : KernelEnv) (operatorAck : String)
  | fireDemotionTrigger (env : KernelEnv) (trigger : DemotionTrigger)
  | runVerificationCycle (env : KernelEnv) (view : VerifierEnv)
  | kill (env : KernelEnv) (trigger : KillTrigger)
  | pollKillTriggers (env : KernelEnv)
  | requestChallenge (env : KernelEnv)
  | confirm (env : KernelEnv) (token : String)
  | rearm (env : KernelEnv) (confirmation : String)
  | dropKillFile (present : Bool)
  | dropRearmFile (file : Option RearmFile)

/-- One operation: what it raised, if anything, and the world it left. -/
def kernelStep (cfg : KernelConfig) (w : KernelWorld) :
    KernelOp → Option KernelError × KernelWorld
  | .ledger op =>
    match ledgerStep cfg w op with
    | (.raised e, w') => (some e, w')
    | (_, w') => (none, w')
  | .machine move => settle ((moveMode move.apply).run w)
  | .requestPromotion env read evidence => settle ((requestPromotion cfg env read evidence).run w)
  | .applyOverride env ack => settle ((applyLedgeredOverride env ack).run w)
  | .fireDemotionTrigger env trigger => settle ((fireDemotionTrigger env trigger).run w)
  | .runVerificationCycle env view => settle ((runVerificationCycle cfg env view).run w)
  | .kill env trigger => settle ((kill cfg env trigger).run w)
  | .pollKillTriggers env => settle ((pollKillTriggers cfg env).run w)
  | .requestChallenge env => settle ((requestChallenge env).run w)
  | .confirm env token => settle ((confirm cfg env token).run w)
  | .rearm env confirmation => settle ((rearm env confirmation).run w)
  | .dropKillFile present => (none, w.withKillFile present)
  | .dropRearmFile file => (none, w.withRearmFile file)

/-! ## How an operation meets the latch -/

/-- How an operation meets the kill latch: not at all, by a call to the switch's `kill`, by a
re-arm that the switch accepts, or by a move of the machine past the switch. -/
inductive LatchPath where
  | untouched
  | callsKill (env : KernelEnv) (trigger : KillTrigger)
  | rearms (env : KernelEnv)
  | bypasses

/-- Whether a cycle hands the kernel a breach. -/
def cycleBreaches (tolerances : VerificationTolerances) (env : KernelEnv) (view : VerifierEnv)
    (w : KernelWorld) : Bool :=
  match (runCycle tolerances env view env.clock).run w with
  | .ok snapshot _ => decide (snapshot.outcome = .BREACH)
  | .error _ _ => false

/-- Whether a cycle takes the monitor to its threshold. -/
def cycleTripsMonitor (cfg : KernelConfig) (env : KernelEnv) (view : VerifierEnv)
    (w : KernelWorld) : Bool :=
  match cfg.verifierTolerances, cfg.mismatchThreshold with
  | some tolerances, some threshold =>
    cycleBreaches tolerances env view w && decide (threshold ≤ w.consecutiveBreaches + 1)
  | _, _ => false

/-- Whether a dashboard confirmation carries the pending nonce. -/
def confirms (token : String) (w : KernelWorld) : Bool :=
  match w.pendingChallenge with
  | none => false
  | some pending => isAscii token && isAscii pending && token == pending

/-- Whether a `REARM` file carries the phrase for the active kill. -/
def rearmFileConfirms (w : KernelWorld) : Bool :=
  match w.rearmFile with
  | some (.phrase text) => text == expectedRearmPhrase w.killSequence
  | _ => false

/-- The path of an operation, from the state before it. -/
def latchPath (cfg : KernelConfig) (w : KernelWorld) : KernelOp → LatchPath
  | .machine (.transition target) =>
    if target = .KILLED ∧ w.mode ≠ .KILLED then .bypasses else .untouched
  | .machine (.rearm confirmation) =>
    if w.mode = .KILLED ∧ confirmation = rearmConfirmationPhrase then .bypasses else .untouched
  | .fireDemotionTrigger _ trigger =>
    if trigger = .MANUAL_KILL ∧ w.mode ≠ .KILLED then .bypasses else .untouched
  | .runVerificationCycle env view =>
    if cycleTripsMonitor cfg env view w then .callsKill env .AUTO_RECONCILIATION else .untouched
  | .kill env trigger => .callsKill env trigger
  | .pollKillTriggers env =>
    if cfg.hasWatcher = true ∧ w.mode ≠ .KILLED ∧ w.killFile = true then .callsKill env .KILL_FILE
    else if cfg.hasWatcher = true ∧ w.mode = .KILLED ∧ rearmFileConfirms w = true then .rearms env
    else .untouched
  | .confirm env token => if confirms token w then .callsKill env .DASHBOARD else .untouched
  | .rearm env confirmation =>
    if w.mode = .KILLED ∧ confirmation = expectedRearmPhrase w.killSequence then .rearms env
    else .untouched
  | _ => .untouched

/-- The operations that meet the latch, each with its path and with what makes it take it. -/
inductive MeetsLatch (cfg : KernelConfig) (w : KernelWorld) : KernelOp → LatchPath → Prop
  | kill (env trigger) : MeetsLatch cfg w (.kill env trigger) (.callsKill env trigger)
  | cycle (env view) (h : cycleTripsMonitor cfg env view w = true) :
      MeetsLatch cfg w (.runVerificationCycle env view) (.callsKill env .AUTO_RECONCILIATION)
  | killFile (env) (h : cfg.hasWatcher = true ∧ w.mode ≠ .KILLED ∧ w.killFile = true) :
      MeetsLatch cfg w (.pollKillTriggers env) (.callsKill env .KILL_FILE)
  | dashboard (env token) (h : confirms token w = true) :
      MeetsLatch cfg w (.confirm env token) (.callsKill env .DASHBOARD)
  | rearm (env confirmation)
      (h : w.mode = .KILLED ∧ confirmation = expectedRearmPhrase w.killSequence) :
      MeetsLatch cfg w (.rearm env confirmation) (.rearms env)
  | rearmFile (env)
      (h : cfg.hasWatcher = true ∧ w.mode = .KILLED ∧ rearmFileConfirms w = true) :
      MeetsLatch cfg w (.pollKillTriggers env) (.rearms env)
  | machineKill (h : w.mode ≠ .KILLED) :
      MeetsLatch cfg w (.machine (.transition .KILLED)) .bypasses
  | machineRearm (h : w.mode = .KILLED) :
      MeetsLatch cfg w (.machine (.rearm rearmConfirmationPhrase)) .bypasses
  | manualKill (env) (h : w.mode ≠ .KILLED) :
      MeetsLatch cfg w (.fireDemotionTrigger env .MANUAL_KILL) .bypasses

/-- **Every path but the untouched one** is taken by one of these operations. -/
theorem latchPath_meets {cfg : KernelConfig} {w : KernelWorld} {op : KernelOp} {path : LatchPath}
    (h : latchPath cfg w op = path) (hpath : path ≠ .untouched) : MeetsLatch cfg w op path := by
  subst h
  cases op with
  | kill env trigger => exact .kill env trigger
  | runVerificationCycle env view =>
      rw [latchPath] at hpath ⊢
      split_ifs at hpath ⊢ with htrip
      · exact .cycle env view htrip
      · exact absurd rfl hpath
  | pollKillTriggers env =>
      rw [latchPath] at hpath ⊢
      split_ifs at hpath ⊢ with hkill hrearm
      · exact .killFile env hkill
      · exact .rearmFile env hrearm
      · exact absurd rfl hpath
  | confirm env token =>
      rw [latchPath] at hpath ⊢
      split_ifs at hpath ⊢ with hnonce
      · exact .dashboard env token hnonce
      · exact absurd rfl hpath
  | rearm env confirmation =>
      rw [latchPath] at hpath ⊢
      split_ifs at hpath ⊢ with hphrase
      · exact .rearm env confirmation hphrase
      · exact absurd rfl hpath
  | fireDemotionTrigger env trigger =>
      rw [latchPath] at hpath ⊢
      split_ifs at hpath ⊢ with hkill
      · obtain ⟨rfl, hmode⟩ := hkill
        exact .manualKill env hmode
      · exact absurd rfl hpath
  | machine move =>
      cases move with
      | transition target =>
          rw [latchPath] at hpath ⊢
          split_ifs at hpath ⊢ with hkill
          · obtain ⟨rfl, hmode⟩ := hkill
            exact .machineKill hmode
          · exact absurd rfl hpath
      | rearm confirmation =>
          rw [latchPath] at hpath ⊢
          split_ifs at hpath ⊢ with hrearm
          · obtain ⟨hmode, rfl⟩ := hrearm
            exact .machineRearm hmode
          · exact absurd rfl hpath
      | promoteOneRung ceiling => exact absurd rfl hpath
      | demoteOneRung => exact absurd rfl hpath
  | _ => exact absurd rfl hpath

/-! ## What operations move along -/

section Ledger

variable {R : KernelWorld → KernelWorld → Prop} [IsPreorder KernelWorld R]

/-- **An operation on the ledger** moves along every preorder that calls, records other than the
two of replay, changes of the ledger and signed tokens move along. -/
theorem ledgerStep_moves (cfg : KernelConfig)
    (hcall : ∀ w call, R w (w.noted call))
    (hrecord : ∀ env event, event.isLatch = false → Moves R (record env event))
    (hledger : ∀ w ledger, R w (w.withLedger ledger))
    (hsigned : ∀ w token, R w (w.signed token)) (w : KernelWorld) (op : LedgerOp) :
    R w (ledgerStep cfg w op).2 := by
  have hraising : ∀ {α : Type} (x : Except KernelError α), Moves R (raising x) := by
    intro α x
    cases x with
    | ok a => exact Moves.pure a
    | error e => exact Moves.throw e
  have hrelease : ∀ env ids reason, Moves R (releaseEach env ids reason) := fun env ids reason =>
    releaseEach_moves (hrecord env) (fun w id => hledger w _) ids reason
  cases op with
  | approve env intent context =>
      simp only [ledgerStep, reply_snd]
      refine Moves.get_bind (fun v => ?_) w
      refine Moves.ite (fun _ => Moves.pure _) (fun _ => ?_) v
      refine Moves.bind (hraising _) fun amount => Moves.bind ?_ fun r => Moves.bind ?_
        fun token => Moves.bind (hrecord env _ rfl) fun _ => Moves.pure _
      · refine Moves.get_bind fun u => ?_
        split
        · exact Moves.throw _ u
        · split
          · exact Moves.throw _ u
          · exact Moves.set_bind (hledger u _) <|
              Moves.bind (hrecord env _ rfl) fun _ => Moves.pure _
      · refine Moves.bind (fun u => hcall u _) fun _ => ?_
        exact Moves.ite (fun _ => Moves.throw _) fun _ =>
          Moves.bind (Moves.modify fun u => hsigned u _) fun _ => Moves.pure _
  | release env id reason =>
      simp only [ledgerStep, reply_snd]
      exact Moves.bind (Moves.modify fun u => hledger u _) (fun _ => hrecord env _ rfl) w
  | releaseAllActive env reason =>
      simp only [ledgerStep, reply_snd]
      exact Moves.get_bind (fun v => hrelease env _ reason v) w
  | adjust env id remaining =>
      simp only [ledgerStep, reply_snd]
      refine Moves.get_bind (fun v => ?_) w
      split
      · exact Moves.throw _ v
      · split
        · exact Moves.set_bind (hledger v _) (hrecord env _ rfl)
        · exact Moves.throw _ v
  | expireDue env now =>
      simp only [ledgerStep, reply_snd]
      exact Moves.get_bind (fun v => hrelease env _ _ v) w

end Ledger

/-! ## Verification cycles -/

/-- **A cycle** moves along every preorder that calls and its own record move along. -/
theorem runCycle_moves {R : KernelWorld → KernelWorld → Prop} [IsPreorder KernelWorld R]
    {env : KernelEnv} (hcall : ∀ w call, R w (w.noted call))
    (hrecord : ∀ snapshot, Moves R (record env (verificationEvent snapshot)))
    (tolerances : VerificationTolerances) (view : VerifierEnv) (nowEpochS : ℤ) :
    Moves R (runCycle tolerances env view nowEpochS) := by
  rw [runCycle]
  split
  · exact Moves.throw _
  · split
    · exact Moves.bind (hrecord _) fun _ =>
        Moves.bind (dispatchAlert_moves hcall env _ _) fun _ => Moves.pure _
    · rename_i observation _
      exact Moves.bind (hrecord _) fun _ =>
        Moves.bind (cycleAlerts_moves hcall env view.venue _ (.ok observation))
          fun _ => Moves.pure _

theorem verificationEvent_isLatch (snapshot : VerificationSnapshot) :
    (verificationEvent snapshot).isLatch = false := by
  cases h : snapshot.outcome <;>
    simp [Event.isLatch, verificationEvent, kernelEvent, eventTypeByOutcome, h]

/-- What a cycle leaves alone: all that the latch, the ledger and the monitor hold. -/
def KernelWorld.beyondCycles (w : KernelWorld) : Mode × ℤ × ReservationLedger × ℤ :=
  (w.mode, w.killSequence, w.ledger, w.consecutiveBreaches)

theorem beyondCycles_runCycle (tolerances : VerificationTolerances) (env : KernelEnv)
    (view : VerifierEnv) (nowEpochS : ℤ) :
    Frames KernelWorld.beyondCycles (runCycle tolerances env view nowEpochS) :=
  runCycle_moves (fun _ _ => rfl)
    (fun _ => record_frames env _ (fun _ _ => rfl) fun _ => rfl) tolerances view nowEpochS

/-- A state on the way to a call of `kill`: nothing but calls and records lie behind it, and none
of the records is one that replay or the kill itself writes. -/
structure OnTheWay (w v : KernelWorld) : Prop where
  mode : v.mode = w.mode
  killSequence : v.killSequence = w.killSequence
  ledger : v.ledger = w.ledger
  log : Grows KernelWorld.log
    (fun event => event.isLatch = false ∧ event.eventType ≠ "CancelAllDirective") w v

theorem log_runCycle (tolerances : VerificationTolerances) (env : KernelEnv) (view : VerifierEnv)
    (nowEpochS : ℤ) :
    Moves (Grows KernelWorld.log
      (fun event => event.isLatch = false ∧ event.eventType ≠ "CancelAllDirective"))
      (runCycle tolerances env view nowEpochS) := by
  refine runCycle_moves (fun _ _ => Grows.of_eq rfl) (fun snapshot w => ?_) tolerances view nowEpochS
  rw [record_run]
  split
  · exact Grows.of_eq rfl
  · refine Grows.one rfl ⟨verificationEvent_isLatch snapshot, ?_⟩
    cases h : snapshot.outcome <;> simp [verificationEvent, kernelEvent, eventTypeByOutcome, h]

/-- **A cycle that trips the monitor** is a call of `kill` once it is under way. -/
theorem runVerificationCycle_of_tripped {cfg : KernelConfig} {env : KernelEnv}
    {view : VerifierEnv} {w : KernelWorld} (h : cycleTripsMonitor cfg env view w = true) :
    ∃ v, OnTheWay w v ∧ finalState ((runVerificationCycle cfg env view).run w) =
      finalState ((kill cfg env .AUTO_RECONCILIATION).run v) := by
  rw [cycleTripsMonitor] at h
  cases htolerances : cfg.verifierTolerances with
  | none => simp [htolerances] at h
  | some tolerances =>
      cases hthreshold : cfg.mismatchThreshold with
      | none => simp [htolerances, hthreshold] at h
      | some threshold =>
          rw [htolerances, hthreshold] at h
          simp only [Bool.and_eq_true, decide_eq_true_eq, cycleBreaches] at h
          obtain ⟨hbreach, htrip⟩ := h
          have hframe := beyondCycles_runCycle tolerances env view env.clock w
          have hlog := log_runCycle tolerances env view env.clock w
          cases hcycle : (runCycle tolerances env view env.clock).run w with
          | error e t => simp [hcycle] at hbreach
          | ok snapshot t =>
              rw [hcycle] at hbreach hframe hlog
              simp only [decide_eq_true_eq] at hbreach
              simp only [finalState_ok, KernelWorld.beyondCycles, Prod.mk.injEq] at hframe hlog
              obtain ⟨hmode, hsequence, hledger, hbreaches⟩ := hframe
              refine ⟨(t.withVerification snapshot).withBreaches (t.consecutiveBreaches + 1),
                ⟨hmode, hsequence, hledger, hlog⟩, ?_⟩
              rw [runVerificationCycle, htolerances]
              dsimp only
              rw [EStateM.run_bind, hcycle]
              exact absorbSnapshot_of_tripped cfg env hbreach hthreshold (by rw [hbreaches]; exact htrip)

/-! ## Calls of `kill` -/

/-- A confirmation that carries the nonce is a call of `kill` once the nonce is used. -/
theorem confirm_of_confirms {cfg : KernelConfig} {env : KernelEnv} {token : String}
    {w : KernelWorld} (h : confirms token w = true) :
    (confirm cfg env token).run w = (kill cfg env .DASHBOARD).run (w.withChallenge none) := by
  rw [confirm, EStateM.run_bind, EStateM.run_get]
  dsimp only
  cases hpending : w.pendingChallenge with
  | none => simp [confirms, hpending] at h
  | some pending =>
      simp only [confirms, hpending, Bool.and_eq_true, beq_iff_eq] at h
      obtain ⟨⟨htoken, hascii⟩, hsame⟩ := h
      dsimp only
      rw [if_neg (by simp [htoken, hascii]), if_neg (not_not.mpr hsame), EStateM.run_bind,
        EStateM.run_modify]

/-- **An operation that calls `kill`** is that call from a state on the way to it. -/
theorem kernelStep_callsKill {cfg : KernelConfig} {w : KernelWorld} {op : KernelOp}
    {env : KernelEnv} {trigger : KillTrigger} (h : latchPath cfg w op = .callsKill env trigger) :
    ∃ v, OnTheWay w v ∧
      (kernelStep cfg w op).2 = finalState ((kill cfg env trigger).run v) := by
  have hstart : OnTheWay w w := ⟨rfl, rfl, rfl, Grows.of_eq rfl⟩
  cases latchPath_meets h (by simp) with
  | kill => exact ⟨w, hstart, settle_snd _⟩
  | cycle env view htrip =>
      obtain ⟨v, hv, hfinal⟩ := runVerificationCycle_of_tripped htrip
      exact ⟨v, hv, (settle_snd _).trans hfinal⟩
  | killFile env hfile =>
      obtain ⟨hwatcher, hmode, hpresent⟩ := hfile
      refine ⟨w, hstart, (settle_snd _).trans ?_⟩
      rw [pollKillTriggers, if_pos hwatcher, pollOnce, EStateM.run_bind, EStateM.run_get]
      dsimp only
      rw [if_pos hmode, if_pos hpresent]
  | dashboard env token hnonce =>
      refine ⟨w.withChallenge none, ⟨rfl, rfl, rfl, Grows.of_eq rfl⟩, (settle_snd _).trans ?_⟩
      rw [confirm_of_confirms hnonce]

end Windbreak
