import Windbreak.RiskKernel.Demotion
import Windbreak.RiskKernel.KillSwitch
import Windbreak.RiskKernel.Promotion
import Windbreak.RiskKernel.Verification

/-!
# The kernel process

The methods of the kernel that move its mode or feed the switch, and what a restart rebuilds from a
recorded history.

* **Moves** — `requestPromotion`, `fireDemotionTrigger`, `runVerificationCycle`,
  `pollKillTriggers`; `applyLedgeredOverride` moves the ceiling.
* **Replay** — `RiskKernel.fromEvents`.
-/

namespace Windbreak

/-! ## Promotion and demotion -/

/-- The target of the promotion out of `PAPER`, for the record of a blocked one. -/
def paperPromotionTarget : Mode := .LIVE_MICRO

/-- Build the gate, recording a blocked promotion when the kernel is opted in. -/
def gateOrBlocked (cfg : KernelConfig) (env : KernelEnv) (current : Mode) (read : GatePlanRead) :
    KernelM PromotionGate :=
  match gateFor current read with
  | .ok gate => return gate
  | .error e => do
    if e.kind = .gatePlanUnavailable ∧ cfg.ledgerBlockedPromotions = true then
      record env (promotionBlockedEvent current.name paperPromotionTarget.name e.message)
      throw e
    else
      throw e

/-- Evaluate the current mode's gate and promote when it clears. -/
def requestPromotion (cfg : KernelConfig) (env : KernelEnv) (read : GatePlanRead)
    (evidence : GateEvidence) : KernelM PromotionDecision := do
  let w ← get
  let gate ← gateOrBlocked cfg env w.mode read
  let decision := evaluatePromotion gate evidence
  let overrideBypassed := overridePromotes gate decision w.overrideApplied
  record env (promotionEvaluatedEvent gate.source.name gate.target.name decision.approved
    overrideBypassed evidence.toPayload (decision.results.map (·.toPayload)))
  if decision.approved || overrideBypassed then
    moveMode (·.promoteOneRung (effectiveModeCeiling w.machine.modeCeiling w.overrideApplied))
    return decision
  else
    return decision

/-- Move to a resolved demotion destination. -/
def applyDemotion (destination : Mode) : KernelM Unit :=
  if destination ∈ Mode.safetyModes then moveMode (·.transition destination)
  else moveMode (·.demoteOneRung)

/-- The record of one firing. -/
def firingEvent (trigger : DemotionTrigger) (current : Mode) : Event :=
  let destination := resolveDemotion current trigger
  demotionTriggerFiredEvent trigger.name trigger.action.name current.name
    (destination.getD current).name destination.isSome

/-- Fire a demotion trigger: move first, record after. -/
def fireDemotionTrigger (env : KernelEnv) (trigger : DemotionTrigger) :
    KernelM (Option Mode) := do
  let w ← get
  let destination := resolveDemotion w.mode trigger
  match destination with
  | some target => applyDemotion target
  | none => pure ()
  record env (firingEvent trigger w.mode)
  return destination

/-- Apply the one-way significance override on the exact phrase. -/
def applyLedgeredOverride (env : KernelEnv) (operatorAck : String) : KernelM Unit := do
  if operatorAck ≠ significanceOverrideAckPhrase then
    throw ⟨.overrideAcknowledgement,
      "significance-override acknowledgement phrase does not match"⟩
  else
    record env (significanceOverrideAppliedEvent operatorAck overrideCeiling.name)
    modify (·.withOverrideApplied)

/-! ## Verification and polling -/

/-- Feed one outcome to the mismatch monitor, if one is wired. -/
def feedMismatchMonitor (cfg : KernelConfig) (env : KernelEnv) (outcome : VerificationOutcome) :
    KernelM Unit :=
  match cfg.mismatchThreshold with
  | none => pure ()
  | some threshold => observe cfg env threshold outcome

/-- Halt on a breach, unless already in `HALT` or `KILLED`. -/
def haltOnBreach (env : KernelEnv) (snapshot : VerificationSnapshot) : KernelM Unit := do
  let w ← get
  if w.mode = .HALT ∨ w.mode = .KILLED then pure ()
  else
    moveMode (·.transition .HALT)
    record env (verificationMismatchHaltEvent snapshot.cashDrift snapshot.verifiedAtEpochS)

/-- What the kernel does with the snapshot of a cycle. -/
def absorbSnapshot (cfg : KernelConfig) (env : KernelEnv) (snapshot : VerificationSnapshot) :
    KernelM Unit := do
  modify (·.withVerification snapshot)
  feedMismatchMonitor cfg env snapshot.outcome
  if snapshot.outcome = .BREACH then haltOnBreach env snapshot else pure ()

/-- Run one verification cycle, if a verifier is wired. -/
def runVerificationCycle (cfg : KernelConfig) (env : KernelEnv) (view : VerifierEnv) :
    KernelM Unit :=
  match cfg.verifierTolerances with
  | none => pure ()
  | some tolerances => do
    let snapshot ← runCycle tolerances env view env.clock
    absorbSnapshot cfg env snapshot

/-- Poll the kill-file watcher, if one is wired. -/
def pollKillTriggers (cfg : KernelConfig) (env : KernelEnv) : KernelM Unit :=
  if cfg.hasWatcher then pollOnce cfg env else pure ()

/-! ## Replay -/

/-- Whether a history applied the significance override. -/
def overrideAppliedIn (events : List Event) : Bool :=
  events.any fun event => event.eventType == "SignificanceOverrideApplied"

/-- What a rebuilt kernel starts from: its machine and its override. -/
structure RebuiltKernel where
  machine : ModeStateMachine
  overrideApplied : Bool

/-- Rebuild a kernel around a machine, replaying override and kill state. -/
def RiskKernel.fromEvents (events : List Event) (machine : ModeStateMachine) :
    Except KernelError RebuiltKernel := do
  let state ← killStateIn events
  if state.killed = true ∧ machine.mode ≠ .KILLED then
    let killed ← machine.transition .KILLED
    return ⟨killed, overrideAppliedIn events⟩
  else
    return ⟨machine, overrideAppliedIn events⟩

/-! ## What each move does to the mode -/

/-- The machine can always be halted from a mode that is neither `HALT` nor `KILLED`. -/
theorem transition_halt {machine : ModeStateMachine}
    (h : ¬ (machine.mode = .HALT ∨ machine.mode = .KILLED)) :
    machine.transition .HALT = .ok (machine.withMode .HALT) := by
  have hmem : Mode.HALT ∈ machine.mode.allowedTransitions := by
    rw [not_or] at h
    cases hm : machine.mode <;> simp [Mode.allowedTransitions, Mode.safetyModes, hm] at h ⊢
  rw [ModeStateMachine.transition, if_neg (not_not.mpr hmem)]
  rfl

/-- Halting from `HALT` or `KILLED` does nothing. -/
theorem haltOnBreach_of_halted (env : KernelEnv) (snapshot : VerificationSnapshot)
    {w : KernelWorld} (h : w.mode = .HALT ∨ w.mode = .KILLED) :
    (haltOnBreach env snapshot).run w = .ok () w := by
  rw [haltOnBreach, EStateM.run_bind, EStateM.run_get]
  dsimp only
  rw [if_pos h]
  rfl

/-- Halting from any other mode moves first and records after. -/
theorem haltOnBreach_of_not_halted (env : KernelEnv) (snapshot : VerificationSnapshot)
    {w : KernelWorld} (h : ¬ (w.mode = .HALT ∨ w.mode = .KILLED)) :
    (haltOnBreach env snapshot).run w =
      (record env (verificationMismatchHaltEvent snapshot.cashDrift
        snapshot.verifiedAtEpochS)).run (w.withMachine (w.machine.withMode .HALT)) := by
  rw [haltOnBreach, EStateM.run_bind, EStateM.run_get]
  dsimp only
  rw [if_neg h, EStateM.run_bind, moveMode_run, transition_halt h]

theorem haltOnBreach_mode (env : KernelEnv) (snapshot : VerificationSnapshot) (w : KernelWorld) :
    let w' := Effects.finalState ((haltOnBreach env snapshot).run w)
    w'.mode = .HALT ∨ w'.mode = .KILLED := by
  intro w'
  by_cases h : w.mode = .HALT ∨ w.mode = .KILLED
  · have hw' : w' = w := by
      show Effects.finalState ((haltOnBreach env snapshot).run w) = w
      rw [haltOnBreach_of_halted env snapshot h]
      rfl
    rw [hw']
    exact h
  · left
    show (Effects.finalState ((haltOnBreach env snapshot).run w)).machine.mode = .HALT
    rw [haltOnBreach_of_not_halted env snapshot h]
    rw [machine_record env _ (w.withMachine (w.machine.withMode .HALT))]
    rfl

/-- What feeding the monitor does: nothing without one, a reset on anything but a breach, and on a
breach one more count, with a kill at the threshold. -/
theorem feedMismatchMonitor_run (cfg : KernelConfig) (env : KernelEnv)
    (outcome : VerificationOutcome) (w : KernelWorld) :
    (feedMismatchMonitor cfg env outcome).run w =
      match cfg.mismatchThreshold with
      | none => .ok () w
      | some threshold =>
        if outcome ≠ .BREACH then .ok () (w.withBreaches 0)
        else if threshold ≤ w.consecutiveBreaches + 1 then
          (kill cfg env .AUTO_RECONCILIATION).run (w.withBreaches (w.consecutiveBreaches + 1))
        else .ok () (w.withBreaches (w.consecutiveBreaches + 1)) := by
  rw [feedMismatchMonitor]
  cases cfg.mismatchThreshold with
  | none => rfl
  | some threshold =>
      dsimp only
      by_cases h : outcome ≠ .BREACH
      · rw [observe, if_pos h, if_pos h]
        rfl
      · rw [observe, if_neg h, if_neg h, EStateM.run_bind, EStateM.run_modify]
        dsimp only
        rw [EStateM.run_bind, EStateM.run_get]
        dsimp only
        rw [KernelWorld.withBreaches_consecutiveBreaches]
        split
        · rfl
        · rfl

theorem absorbSnapshot_run (cfg : KernelConfig) (env : KernelEnv)
    (snapshot : VerificationSnapshot) (w : KernelWorld) :
    (absorbSnapshot cfg env snapshot).run w =
      match (feedMismatchMonitor cfg env snapshot.outcome).run (w.withVerification snapshot) with
      | .ok _ w' =>
        if snapshot.outcome = .BREACH then (haltOnBreach env snapshot).run w' else .ok () w'
      | .error e w' => .error e w' := by
  rw [absorbSnapshot, EStateM.run_bind, EStateM.run_modify]
  dsimp only
  rw [EStateM.run_bind]
  cases (feedMismatchMonitor cfg env snapshot.outcome).run (w.withVerification snapshot) with
  | ok a t =>
      dsimp only
      split
      · rfl
      · rfl
  | error e t => rfl

/-- Only a kill can raise while the monitor is fed, and the mode is `KILLED` by then. -/
theorem feedMismatchMonitor_error {cfg : KernelConfig} {env : KernelEnv}
    {outcome : VerificationOutcome} {w w' : KernelWorld} {e : KernelError}
    (h : (feedMismatchMonitor cfg env outcome).run w = .error e w') : w'.mode = .KILLED := by
  rw [feedMismatchMonitor_run] at h
  split at h
  · cases h
  · split_ifs at h with hbreach hthreshold
    have hmode := kill_mode cfg env .AUTO_RECONCILIATION
      (w.withBreaches (w.consecutiveBreaches + 1))
    rw [h] at hmode
    exact hmode

/-- **A breach that is absorbed halts**: whatever the monitor's kill raises, the mode ends in
`HALT` or in `KILLED`. -/
theorem absorbSnapshot_mode (cfg : KernelConfig) (env : KernelEnv)
    {snapshot : VerificationSnapshot} (h : snapshot.outcome = .BREACH) (w : KernelWorld) :
    let w' := Effects.finalState ((absorbSnapshot cfg env snapshot).run w)
    w'.mode = .HALT ∨ w'.mode = .KILLED := by
  intro w'
  show (Effects.finalState ((absorbSnapshot cfg env snapshot).run w)).mode = .HALT ∨
    (Effects.finalState ((absorbSnapshot cfg env snapshot).run w)).mode = .KILLED
  rw [absorbSnapshot_run]
  cases hfeed : (feedMismatchMonitor cfg env snapshot.outcome).run (w.withVerification snapshot) with
  | ok a t =>
      dsimp only
      rw [if_pos h]
      exact haltOnBreach_mode env snapshot t
  | error e t => exact Or.inr (feedMismatchMonitor_error hfeed)

/-- A snapshot that is no breach is absorbed without a move and without a record. -/
theorem absorbSnapshot_of_not_breach (cfg : KernelConfig) (env : KernelEnv)
    {snapshot : VerificationSnapshot} (h : snapshot.outcome ≠ .BREACH) (w : KernelWorld) :
    ∃ w', (absorbSnapshot cfg env snapshot).run w = .ok () w' ∧ w'.log = w.log ∧
      w'.machine = w.machine ∧ w'.killSequence = w.killSequence := by
  rw [absorbSnapshot_run, feedMismatchMonitor_run]
  cases cfg.mismatchThreshold with
  | none =>
      dsimp only
      rw [if_neg h]
      exact ⟨w.withVerification snapshot, rfl, rfl, rfl, rfl⟩
  | some threshold =>
      dsimp only
      rw [if_pos h]
      dsimp only
      rw [if_neg h]
      exact ⟨(w.withVerification snapshot).withBreaches 0, rfl, rfl, rfl, rfl⟩

/-- **A breach that reaches the threshold kills**, and the halt that follows has nothing left to
do. -/
theorem absorbSnapshot_of_tripped (cfg : KernelConfig) (env : KernelEnv)
    {snapshot : VerificationSnapshot} {threshold : ℤ} {w : KernelWorld}
    (h : snapshot.outcome = .BREACH) (hcfg : cfg.mismatchThreshold = some threshold)
    (htrip : threshold ≤ w.consecutiveBreaches + 1) :
    Effects.finalState ((absorbSnapshot cfg env snapshot).run w) =
      Effects.finalState ((kill cfg env .AUTO_RECONCILIATION).run
        ((w.withVerification snapshot).withBreaches (w.consecutiveBreaches + 1))) := by
  set v := (w.withVerification snapshot).withBreaches (w.consecutiveBreaches + 1) with hv
  have hfeed : (feedMismatchMonitor cfg env snapshot.outcome).run (w.withVerification snapshot) =
      (kill cfg env .AUTO_RECONCILIATION).run v := by
    rw [feedMismatchMonitor_run, hcfg]
    dsimp only
    rw [if_neg (not_not.mpr h), KernelWorld.withVerification_consecutiveBreaches, if_pos htrip]
  rw [absorbSnapshot_run, hfeed]
  cases hkill : (kill cfg env .AUTO_RECONCILIATION).run v with
  | ok a t =>
      have hmode : t.mode = .KILLED := by
        have hkilled := kill_mode cfg env .AUTO_RECONCILIATION v
        rw [hkill] at hkilled
        exact hkilled
      dsimp only
      rw [if_pos h, haltOnBreach_of_halted env snapshot (Or.inr hmode)]
  | error e t => rfl

end Windbreak
