import Windbreak.RiskKernel.KillLatch

/-!
# How the mode moves

Every call to the kernel moves the mode in one of five ways: not at all, into a safety mode, one
rung down, one rung up through a promotion, or (an accepted override) not at all while the
effective ceiling drops.  `kernelStep_moves` says which call can do which, and everything about the
mode over runs is read off it.

* **`KernelCall`** — the operations that outside code has, the bare methods of the machine left out.
* **`ModeStep`** — the five ways, each with what makes a call take it.
-/

namespace Windbreak

open Machine Effects

/-! ## Calls -/

/-- A bare method of the mode machine, called past the kernel. -/
def KernelOp.isMachine : KernelOp → Bool
  | .machine _ => true
  | _ => false

/-- An operation on the kernel that is not a bare method of its machine. -/
def KernelCall := { op : KernelOp // op.isMachine = false }

def callKernel (cfg : KernelConfig) (w : KernelWorld) (call : KernelCall) :
    Option KernelError × KernelWorld :=
  kernelStep cfg w call.1

/-- What the override phrase makes the writer record. -/
def overrideEvent : Event :=
  significanceOverrideAppliedEvent significanceOverrideAckPhrase overrideCeiling.name

/-- The effective ceiling of a world. -/
def KernelWorld.modeCeilingEffective (w : KernelWorld) : Mode :=
  effectiveModeCeiling w.machine.modeCeiling w.overrideApplied

/-- Whether a gate lets evidence through: every criterion passes, or the override rescues it. -/
def clears (gate : PromotionGate) (evidence : GateEvidence) (overrideApplied : Bool) : Bool :=
  (evaluatePromotion gate evidence).approved ||
    overridePromotes gate (evaluatePromotion gate evidence) overrideApplied

/-! ## Secured worlds -/

/-- The machine was left alone or put in a safety mode. -/
structure Secured (w w' : KernelWorld) : Prop where
  machine : w'.machine = w.machine ∨
    ∃ target ∈ Mode.safetyModes, w'.machine = w.machine.withMode target
  overrideApplied : w'.overrideApplied = w.overrideApplied

instance securedPreorder : IsPreorder KernelWorld Secured where
  refl _ := ⟨Or.inl rfl, rfl⟩
  trans := by
    rintro s t u ⟨hst, host⟩ ⟨htu, hotu⟩
    refine ⟨?_, hotu.trans host⟩
    rcases htu with htu | ⟨target, htarget, htu⟩
    · rw [htu]
      exact hst
    · refine Or.inr ⟨target, htarget, ?_⟩
      rcases hst with hst | ⟨_, _, hst⟩ <;> rw [htu, hst]
      rfl

/-- The part of a world that the mode depends on. -/
def KernelWorld.standing (w : KernelWorld) : ModeStateMachine × Bool :=
  (w.machine, w.overrideApplied)

theorem Secured.of_standing {w w' : KernelWorld} (h : w'.standing = w.standing) :
    Secured w w' := by
  simp only [KernelWorld.standing, Prod.mk.injEq] at h
  exact ⟨Or.inl h.1, h.2⟩

theorem standing_record (env : KernelEnv) (event : Event) :
    Frames KernelWorld.standing (record env event) :=
  record_frames env event (fun _ _ => rfl) fun _ => rfl

theorem secured_record (env : KernelEnv) (event : Event) : Moves Secured (record env event) :=
  (standing_record env event).mono fun _ _ => Secured.of_standing

/-- A transition to a safety mode secures, whether or not it is legal. -/
theorem secured_transition {target : Mode} (h : target ∈ Mode.safetyModes) :
    Moves Secured (moveMode (·.transition target)) := by
  intro w
  rw [moveMode_run]
  cases hstep : w.machine.transition target with
  | error e => exact Secured.of_standing rfl
  | ok machine =>
      exact ⟨Or.inr ⟨target, h, (ModeStateMachine.transition_ok hstep).1⟩, rfl⟩

theorem secured_kill (cfg : KernelConfig) (env : KernelEnv) (trigger : KillTrigger) :
    Moves Secured (kill cfg env trigger) := by
  have hframe : ∀ n, Moves Secured (killEffects cfg env trigger n) := fun n =>
    Moves.bind (secured_record env _) fun _ =>
      killAftermath_moves cfg (fun _ _ => Secured.of_standing rfl)
        (fun event _ => secured_record env event) (fun _ _ => Secured.of_standing rfl)
        fun _ _ => Secured.of_standing rfl
  refine Moves.get_bind fun w => ?_
  have hrest : Moves Secured (do
      moveMode (·.transition .KILLED)
      modify fun w => w.withKillSequence (w.killSequence + 1)
      killEffects cfg env trigger (w.killSequence + 1) : KernelM Unit) :=
    Moves.bind (secured_transition (by decide)) fun _ =>
      Moves.bind (Moves.modify fun _ => Secured.of_standing rfl) fun _ => hframe _
  exact Moves.ite (fun _ => Moves.pure _) (fun _ => hrest) w

/-- A re-arm passes through `RESEARCH` and ends in `PAUSED`. -/
theorem secured_rearm (env : KernelEnv) (confirmation : String) :
    Moves Secured (rearm env confirmation) := by
  intro w
  by_cases h : w.mode = .KILLED ∧ confirmation = expectedRearmPhrase w.killSequence
  · have hpaused : Secured w (w.withMachine (w.machine.withMode .PAUSED)) :=
      ⟨Or.inr ⟨.PAUSED, by decide, rfl⟩, rfl⟩
    rw [rearm_of_phrase env h.1 h.2]
    exact IsTrans.trans _ _ _ hpaused (secured_record env _ _)
  · obtain ⟨text, hrun⟩ := rearm_refused env h
    rw [hrun]
    exact Secured.of_standing rfl

theorem secured_consumeRearmFile (env : KernelEnv) :
    Moves Secured (consumeRearmFile env) := by
  have hfile : ∀ file, Moves Secured (modify (·.withRearmFile file) : KernelM Unit) := fun _ =>
    Moves.modify fun _ => Secured.of_standing rfl
  have hattempt : ∀ file, Moves Secured (attemptRearm env file) := by
    intro file
    cases file with
    | unreadable => exact Moves.pure _
    | phrase text =>
        refine Moves.tryCatch (Moves.bind (secured_rearm env text) fun _ => Moves.pure _) fun e => ?_
        exact Moves.ite (fun _ => Moves.pure _) fun _ => Moves.throw _
  refine Moves.get_bind fun w => ?_
  cases w.rearmFile with
  | none => exact Secured.of_standing rfl
  | some file =>
      have hrest : Moves Secured (do
          let rearmed ← tryCatch (attemptRearm env file) fun e => do
            modify (·.withRearmFile none)
            throw e
          modify (·.withRearmFile none)
          if rearmed then modify (·.withKillFile false) else pure () : KernelM Unit) := by
        refine Moves.bind (Moves.tryCatch (hattempt file) fun e =>
          Moves.bind (hfile none) fun _ => Moves.throw _) fun rearmed => ?_
        refine Moves.bind (hfile none) fun _ => ?_
        exact Moves.ite (fun _ => Moves.modify fun _ => Secured.of_standing rfl)
          fun _ => Moves.pure _
      exact hrest w

theorem secured_pollKillTriggers (cfg : KernelConfig) (env : KernelEnv) :
    Moves Secured (pollKillTriggers cfg env) := by
  refine Moves.ite (fun _ => Moves.get_bind fun w => ?_) fun _ => Moves.pure _
  refine Moves.ite (fun _ => ?_) (fun _ => secured_consumeRearmFile env) w
  exact Moves.ite (fun _ => secured_kill cfg env _) fun _ => Moves.pure _

theorem secured_confirm (cfg : KernelConfig) (env : KernelEnv) (token : String) :
    Moves Secured (confirm cfg env token) := by
  intro w
  by_cases h : confirms token w = true
  · rw [confirm_of_confirms h]
    have hnonce : Secured w (w.withChallenge none) := Secured.of_standing rfl
    exact IsTrans.trans _ _ _ hnonce (secured_kill cfg env _ _)
  · obtain ⟨e, hrun⟩ := @confirm_refused cfg env token w (Bool.eq_false_iff.mpr h)
    rw [hrun]
    exact Secured.of_standing rfl

theorem secured_runVerificationCycle (cfg : KernelConfig) (env : KernelEnv)
    (view : VerifierEnv) : Moves Secured (runVerificationCycle cfg env view) := by
  have hcycle : ∀ tolerances, Moves Secured (runCycle tolerances env view env.clock) :=
    fun tolerances => runCycle_moves (fun _ _ => Secured.of_standing rfl)
      (fun _ => secured_record env _) tolerances view env.clock
  have hfeed : ∀ outcome, Moves Secured (feedMismatchMonitor cfg env outcome) := by
    intro outcome
    rw [feedMismatchMonitor]
    split
    · exact Moves.pure _
    · refine Moves.ite (fun _ => Moves.modify fun _ => Secured.of_standing rfl) fun _ => ?_
      refine Moves.bind (Moves.modify fun _ => Secured.of_standing rfl) fun _ => ?_
      exact Moves.get_bind fun w =>
        Moves.ite (fun _ => secured_kill cfg env _) (fun _ => Moves.pure _) w
  have hhalt : ∀ snapshot, Moves Secured (haltOnBreach env snapshot) := fun snapshot =>
    Moves.get_bind fun w => Moves.ite (fun _ => Moves.pure _) (fun _ =>
      Moves.bind (secured_transition (by decide)) fun _ => secured_record env _) w
  rw [runVerificationCycle]
  split
  · exact Moves.pure _
  · refine Moves.bind (hcycle _) fun snapshot => ?_
    refine Moves.bind (Moves.modify fun _ => Secured.of_standing rfl) fun _ => ?_
    refine Moves.bind (hfeed _) fun _ => ?_
    exact Moves.ite (fun _ => hhalt snapshot) fun _ => Moves.pure _

theorem secured_ledgerStep (cfg : KernelConfig) (w : KernelWorld) (op : LedgerOp) :
    Secured w (ledgerStep cfg w op).2 :=
  ledgerStep_moves cfg (fun _ _ => Secured.of_standing rfl)
    (fun env event _ => secured_record env event) (fun _ _ => Secured.of_standing rfl)
    (fun _ _ => Secured.of_standing rfl) w op

/-! ## The five ways -/

/-- How a call moved the mode. -/
inductive ModeStep (w w' : KernelWorld) : KernelOp → Prop
  | secured {op : KernelOp} (h : Secured w w') : ModeStep w w' op
  | demoted {op : KernelOp} (hmove : w.machine.demoteOneRung = .ok w'.machine)
      (hoverride : w'.overrideApplied = w.overrideApplied) : ModeStep w w' op
  | promoted (env : KernelEnv) (read : GatePlanRead) (evidence : GateEvidence)
      {gate : PromotionGate} (hgate : gateFor w.mode read = .ok gate)
      (hclears : clears gate evidence w.overrideApplied = true)
      (hmove : w.machine.promoteOneRung w.modeCeilingEffective = .ok w'.machine)
      (hoverride : w'.overrideApplied = w.overrideApplied) :
      ModeStep w w' (.requestPromotion env read evidence)
  | capped (env : KernelEnv) (hrecorded : env.recordRaises overrideEvent = false)
      (hmachine : w'.machine = w.machine) (hoverride : w'.overrideApplied = true) :
      ModeStep w w' (.applyOverride env significanceOverrideAckPhrase)

theorem standing_gateOrBlocked (cfg : KernelConfig) (env : KernelEnv) (current : Mode)
    (read : GatePlanRead) : Frames KernelWorld.standing (gateOrBlocked cfg env current read) := by
  rw [gateOrBlocked]
  split
  · exact Moves.pure _
  · exact Moves.ite (fun _ => Moves.bind (standing_record env _) fun _ => Moves.throw _)
      fun _ => Moves.throw _

/-- A gate that is built is the gate out of the mode. -/
theorem gateOrBlocked_ok {cfg : KernelConfig} {env : KernelEnv} {current : Mode}
    {read : GatePlanRead} {gate : PromotionGate} {w w' : KernelWorld}
    (h : (gateOrBlocked cfg env current read).run w = .ok gate w') :
    gateFor current read = .ok gate ∧ w' = w := by
  rw [gateOrBlocked] at h
  cases hgate : gateFor current read with
  | ok g =>
      rw [hgate] at h
      cases h
      exact ⟨rfl, rfl⟩
  | error e =>
      rw [hgate] at h
      dsimp only at h
      split_ifs at h with hblocked
      · obtain ⟨_, _, _, hthrow⟩ := run_bind_ok.mp h
        cases hthrow
      · cases h

/-- **A promotion request** leaves the mode alone, or promotes it through the gate out of it. -/
theorem requestPromotion_moves (cfg : KernelConfig) (env : KernelEnv) (read : GatePlanRead)
    (evidence : GateEvidence) (w : KernelWorld) :
    ModeStep w (finalState ((requestPromotion cfg env read evidence).run w))
      (.requestPromotion env read evidence) := by
  have hrecord : ∀ event v, (finalState ((record env event).run v)).standing = v.standing :=
    fun event v => standing_record env event v
  rw [requestPromotion, EStateM.run_bind, EStateM.run_get]
  dsimp only
  rw [EStateM.run_bind]
  cases hgate : (gateOrBlocked cfg env w.mode read).run w with
  | error e t =>
      have hstanding := standing_gateOrBlocked cfg env w.mode read w
      rw [hgate] at hstanding
      exact .secured (Secured.of_standing hstanding)
  | ok gate t =>
      obtain ⟨hfor, rfl⟩ := gateOrBlocked_ok hgate
      dsimp only
      -- whatever the record says, it leaves the standing alone
      generalize promotionEvaluatedEvent _ _ _ _ _ _ = event
      rw [EStateM.run_bind]
      cases hevaluated : (record env event).run t with
      | error e u =>
          have hstanding := hrecord event t
          rw [hevaluated] at hstanding
          exact .secured (Secured.of_standing hstanding)
      | ok a u =>
          have hstanding := hrecord event t
          rw [hevaluated] at hstanding
          have hmachine : u.machine = t.machine := congrArg Prod.fst hstanding
          have hoverride : u.overrideApplied = t.overrideApplied := congrArg Prod.snd hstanding
          dsimp only
          by_cases hclears : clears gate evidence t.overrideApplied = true
          · rw [clears] at hclears
            rw [if_pos hclears, EStateM.run_bind, moveMode_run, hmachine]
            cases hmove : t.machine.promoteOneRung
                (effectiveModeCeiling t.machine.modeCeiling t.overrideApplied) with
            | error e => exact .secured (Secured.of_standing hstanding)
            | ok machine => exact .promoted env read evidence hfor hclears hmove hoverride
          · rw [clears] at hclears
            rw [if_neg hclears]
            exact .secured (Secured.of_standing hstanding)

/-- **An override** caps the ceiling on the exact phrase, once it is recorded. -/
theorem applyLedgeredOverride_moves (env : KernelEnv) (ack : String) (w : KernelWorld) :
    ModeStep w (finalState ((applyLedgeredOverride env ack).run w)) (.applyOverride env ack) := by
  rw [applyLedgeredOverride]
  by_cases hack : ack ≠ significanceOverrideAckPhrase
  · rw [if_pos hack]
    exact .secured (Secured.of_standing rfl)
  · obtain rfl := not_not.mp hack
    rw [if_neg hack, record_bind_run]
    split_ifs with hraises
    · exact .secured (Secured.of_standing rfl)
    · exact .capped env (Bool.eq_false_iff.mpr hraises) rfl rfl

/-- **A demotion trigger** secures the mode or takes it down one rung. -/
theorem fireDemotionTrigger_moves (env : KernelEnv) (trigger : DemotionTrigger)
    (w : KernelWorld) :
    ModeStep w (finalState ((fireDemotionTrigger env trigger).run w))
      (.fireDemotionTrigger env trigger) := by
  have hlast : ∀ destination : Option Mode, Frames KernelWorld.standing (do
      record env (firingEvent trigger w.mode)
      return destination : KernelM (Option Mode)) := fun _ =>
    Moves.bind (standing_record env _) fun _ => Moves.pure _
  rw [fireDemotionTrigger, EStateM.run_bind, EStateM.run_get]
  dsimp only
  cases resolveDemotion w.mode trigger with
  | none => exact .secured (Secured.of_standing (hlast _ w))
  | some target =>
      dsimp only
      rw [EStateM.run_bind, applyDemotion]
      by_cases hsafety : target ∈ Mode.safetyModes
      · rw [if_pos hsafety]
        have hmove := secured_transition hsafety w
        cases hrun : (moveMode (·.transition target)).run w with
        | error e t =>
            rw [hrun] at hmove
            exact .secured hmove
        | ok a t =>
            rw [hrun] at hmove
            exact .secured (IsTrans.trans _ _ _ hmove (Secured.of_standing (hlast _ t)))
      · rw [if_neg hsafety, moveMode_run]
        cases hmove : w.machine.demoteOneRung with
        | error e => exact .secured (Secured.of_standing rfl)
        | ok machine =>
            have hstanding := hlast (some target) (w.withMachine machine)
            simp only [KernelWorld.standing, Prod.mk.injEq] at hstanding
            exact .demoted (hmove.trans (congrArg Except.ok hstanding.1.symm)) hstanding.2

/-- **Every call** moves the mode in one of the five ways. -/
theorem kernelStep_moves (cfg : KernelConfig) (w : KernelWorld) (call : KernelCall) :
    ModeStep w (callKernel cfg w call).2 call.1 := by
  obtain ⟨op, hop⟩ := call
  show ModeStep w (kernelStep cfg w op).2 op
  cases op with
  | machine move => exact absurd hop (by simp [KernelOp.isMachine])
  | ledger op =>
      have hsecured := secured_ledgerStep cfg w op
      rw [kernelStep]
      split <;> rename_i heq <;> rw [heq] at hsecured <;> exact .secured hsecured
  | requestPromotion env read evidence =>
      rw [kernelStep, settle_snd]
      exact requestPromotion_moves cfg env read evidence w
  | applyOverride env ack =>
      rw [kernelStep, settle_snd]
      exact applyLedgeredOverride_moves env ack w
  | fireDemotionTrigger env trigger =>
      rw [kernelStep, settle_snd]
      exact fireDemotionTrigger_moves env trigger w
  | runVerificationCycle env view =>
      rw [kernelStep, settle_snd]
      exact .secured (secured_runVerificationCycle cfg env view w)
  | kill env trigger =>
      rw [kernelStep, settle_snd]
      exact .secured (secured_kill cfg env trigger w)
  | pollKillTriggers env =>
      rw [kernelStep, settle_snd]
      exact .secured (secured_pollKillTriggers cfg env w)
  | confirm env token =>
      rw [kernelStep, settle_snd]
      exact .secured (secured_confirm cfg env token w)
  | rearm env confirmation =>
      rw [kernelStep, settle_snd]
      exact .secured (secured_rearm env confirmation w)
  | requestChallenge env => exact .secured (Secured.of_standing rfl)
  | dropKillFile present => exact .secured (Secured.of_standing rfl)
  | dropRearmFile file => exact .secured (Secured.of_standing rfl)

end Windbreak
