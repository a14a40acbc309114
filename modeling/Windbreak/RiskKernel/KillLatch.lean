import Windbreak.RiskKernel.KernelRuns

/-!
# The kill latch

What of the kernel a restart must recover is small: whether the kernel is killed, the number of the
last kill, and the events of the history that replay reads.  This is the latch, and the kernel
refines it: each operation does to the latch of its world exactly what its path does.

* **`LatchPath.apply`** — the abstract steps.
* **`kernelStep_latch`** — the refinement.
-/

namespace Windbreak

open Machine Effects

/-! ## The latch -/

/-- The kill latch: whether it is engaged, the number of the last kill, and what the history says
about it. -/
@[ext]
structure Latch where
  killed : Bool
  killSequence : ℤ
  history : List Event

/-- The latch of a world. -/
def KernelWorld.latch (w : KernelWorld) : Latch :=
  ⟨decide (w.mode = .KILLED), w.killSequence, w.log.filter Event.isLatch⟩

/-- What of an event reaches the log. -/
def KernelEnv.written (env : KernelEnv) (event : Event) : List Event :=
  if env.recordRaises event then [] else [event]

/-- What a path does to the latch. -/
def LatchPath.apply (latch : Latch) : LatchPath → Latch
  | .untouched => latch
  | .callsKill env trigger =>
    if latch.killed then latch
    else ⟨true, latch.killSequence + 1, latch.history ++
      env.written (killEngagedEvent trigger.name (latch.killSequence + 1) env.clock)⟩
  | .rearms env =>
    ⟨false, latch.killSequence,
      latch.history ++ env.written (killReArmedEvent latch.killSequence)⟩
  | .bypasses => { latch with killed := !latch.killed }

theorem latch_noted (w : KernelWorld) (call : Call) : (w.noted call).latch = w.latch := rfl

theorem latch_logged {w : KernelWorld} {event : Event} (h : event.isLatch = false) :
    (w.logged event).latch = w.latch :=
  Latch.ext rfl rfl (by simp [KernelWorld.latch, h])

theorem latch_record (env : KernelEnv) {event : Event} (h : event.isLatch = false) :
    Frames KernelWorld.latch (record env event) :=
  record_frames env event latch_noted fun _ => latch_logged h

/-- An event of replay extends the history when it is written. -/
theorem latch_record_latch (env : KernelEnv) {event : Event} (h : event.isLatch = true)
    (w : KernelWorld) :
    (finalState ((record env event).run w)).latch =
      { w.latch with history := w.latch.history ++ env.written event } := by
  rw [record_run, KernelEnv.written]
  split
  · simp [latch_noted]
  · exact Latch.ext rfl rfl (by simp [KernelWorld.latch, h])

/-- The machine in another mode, the latch engaged or not. -/
theorem latch_withMode (w : KernelWorld) (target : Mode) :
    (w.withMachine (w.machine.withMode target)).latch =
      { w.latch with killed := decide (target = .KILLED) } := rfl

/-- A step of the machine that neither starts nor ends in `KILLED` leaves the latch alone. -/
theorem latch_moveMode {step : ModeStateMachine → Except KernelError ModeStateMachine}
    {w : KernelWorld}
    (h : ∀ m', step w.machine = .ok m' → ∃ target, m' = w.machine.withMode target ∧
      w.mode ≠ .KILLED ∧ target ≠ .KILLED) :
    (finalState ((moveMode step).run w)).latch = w.latch := by
  rw [moveMode_run]
  cases hstep : step w.machine with
  | error e => rfl
  | ok m' =>
      obtain ⟨target, rfl, hmode, htarget⟩ := h m' hstep
      rw [finalState_ok, latch_withMode]
      simp [KernelWorld.latch, hmode, htarget]

/-- A transition that does not enter `KILLED` leaves the latch alone. -/
theorem latch_transition {target : Mode} {w : KernelWorld}
    (h : target = .KILLED → w.mode = .KILLED) :
    (finalState ((moveMode (·.transition target)).run w)).latch = w.latch := by
  refine latch_moveMode fun m' hm' => ?_
  obtain ⟨hm', hallowed⟩ := ModeStateMachine.transition_ok hm'
  have hmode : w.mode ≠ .KILLED := by
    intro hmode
    rw [show w.machine.mode = .KILLED from hmode, Mode.allowedTransitions_killed] at hallowed
    exact absurd hallowed List.not_mem_nil
  exact ⟨target, hm', hmode, fun htarget => hmode (h htarget)⟩

theorem latch_promoteOneRung (ceiling : Mode) :
    Frames KernelWorld.latch (moveMode (·.promoteOneRung ceiling)) := by
  refine fun w => latch_moveMode fun m' hm' => ?_
  obtain ⟨target, hrung, hm'⟩ := ModeStateMachine.promoteOneRung_ok hm'
  exact ⟨target, hm', Mode.nextRung_not_killed hrung⟩

theorem latch_demoteOneRung :
    Frames KernelWorld.latch (moveMode (·.demoteOneRung)) := by
  refine fun w => latch_moveMode fun m' hm' => ?_
  obtain ⟨target, hrung, hm'⟩ := ModeStateMachine.demoteOneRung_ok hm'
  exact ⟨target, hm', Mode.prevRung_not_killed hrung⟩

/-- **A kill engages the latch** and announces itself when the writer takes the record; whatever
comes after leaves the latch alone. -/
theorem latch_kill (cfg : KernelConfig) (env : KernelEnv) (trigger : KillTrigger)
    (w : KernelWorld) :
    (finalState ((kill cfg env trigger).run w)).latch =
      (LatchPath.callsKill env trigger).apply w.latch := by
  by_cases h : w.mode = .KILLED
  · rw [kill_of_killed cfg env trigger h]
    simp [LatchPath.apply, KernelWorld.latch, h]
  · set event := killEngagedEvent trigger.name (w.killSequence + 1) env.clock with hevent
    have hengaged : w.engaged.latch =
        ⟨true, w.killSequence + 1, w.latch.history⟩ := rfl
    have happly : (LatchPath.callsKill env trigger).apply w.latch =
        { w.engaged.latch with history := w.engaged.latch.history ++ env.written event } := by
      rw [hengaged]
      simp [LatchPath.apply, KernelWorld.latch, h, hevent]
    have hafter : Frames KernelWorld.latch (killAftermath cfg env) :=
      killAftermath_moves cfg latch_noted (fun _ he => latch_record env he) (fun _ _ => rfl)
        fun _ _ => rfl
    rw [kill_of_not_killed cfg env trigger h, happly,
      ← latch_record_latch env rfl w.engaged, killEffects, record_bind_run, record_run]
    split
    · rfl
    · exact hafter _

/-- What an accepted re-arm does: `PAUSED`, then the record. -/
theorem rearm_of_phrase (env : KernelEnv) {w : KernelWorld} {confirmation : String}
    (hmode : w.mode = .KILLED) (hphrase : confirmation = expectedRearmPhrase w.killSequence) :
    (rearm env confirmation).run w =
      (record env (killReArmedEvent w.killSequence)).run
        (w.withMachine (w.machine.withMode .PAUSED)) := by
  have hm : w.machine.mode = .KILLED := hmode
  have hfirst : w.machine.rearm rearmConfirmationPhrase =
      .ok (w.machine.withMode .RESEARCH) := by
    simp [ModeStateMachine.rearm, hm]
  have hsecond : (w.machine.withMode .RESEARCH).transition .PAUSED =
      .ok (w.machine.withMode .PAUSED) := rfl
  rw [rearm, EStateM.run_bind, EStateM.run_get]
  dsimp only
  rw [if_neg (not_not.mpr hmode), if_neg (not_not.mpr hphrase), EStateM.run_bind, moveMode_run,
    hfirst]
  dsimp only
  rw [EStateM.run_bind, moveMode_run, KernelWorld.withMachine_machine, hsecond]
  rfl

/-- A refused re-arm raises and moves nothing. -/
theorem rearm_refused (env : KernelEnv) {w : KernelWorld} {confirmation : String}
    (h : ¬ (w.mode = .KILLED ∧ confirmation = expectedRearmPhrase w.killSequence)) :
    ∃ text, (rearm env confirmation).run w = .error ⟨.killReArm, text⟩ w := by
  rw [rearm, EStateM.run_bind, EStateM.run_get]
  dsimp only
  by_cases hmode : w.mode = .KILLED
  · rw [if_neg (not_not.mpr hmode), if_pos fun hphrase => h ⟨hmode, hphrase⟩]
    exact ⟨_, rfl⟩
  · rw [if_pos hmode]
    exact ⟨_, rfl⟩

theorem latch_rearm (env : KernelEnv) {w : KernelWorld} {confirmation : String}
    (hmode : w.mode = .KILLED) (hphrase : confirmation = expectedRearmPhrase w.killSequence) :
    (finalState ((rearm env confirmation).run w)).latch =
      (LatchPath.rearms env).apply w.latch := by
  rw [rearm_of_phrase env hmode hphrase, latch_record_latch env rfl]
  rfl

/-! ## One operation -/

theorem latch_ledgerStep (cfg : KernelConfig) (w : KernelWorld) (op : LedgerOp) :
    (ledgerStep cfg w op).2.latch = w.latch :=
  ledgerStep_moves (R := fun s s' : KernelWorld => s'.latch = s.latch) cfg latch_noted
    (fun env _ h => latch_record env h) (fun _ _ => rfl) (fun _ _ => rfl) w op

/-- A method of the machine itself. -/
theorem latch_machine (cfg : KernelConfig) (w : KernelWorld) (move : MachineMove) :
    (finalState ((moveMode move.apply).run w)).latch =
      (latchPath cfg w (.machine move)).apply w.latch := by
  cases move with
  | transition target =>
      by_cases h : target = .KILLED ∧ w.mode ≠ .KILLED
      · obtain ⟨rfl, hmode⟩ := h
        have hmove := moveMode_ok (·.transition .KILLED) (transition_killed hmode)
        rw [MachineMove.apply, hmove, latchPath, if_pos ⟨rfl, hmode⟩]
        simp [LatchPath.apply, KernelWorld.latch, hmode]
      · rw [latchPath, if_neg h]
        exact latch_transition fun htarget => by_contra fun hmode => h ⟨htarget, hmode⟩
  | promoteOneRung ceiling => exact latch_promoteOneRung ceiling w
  | demoteOneRung => exact latch_demoteOneRung w
  | rearm confirmation =>
      by_cases h : w.mode = .KILLED ∧ confirmation = rearmConfirmationPhrase
      · obtain ⟨hmode, hphrase⟩ := h
        have hrearm : w.machine.rearm confirmation = .ok (w.machine.withMode .RESEARCH) := by
          have hm : w.machine.mode = .KILLED := hmode
          simp [ModeStateMachine.rearm, hm, hphrase]
        have hmove := moveMode_ok (·.rearm confirmation) hrearm
        rw [MachineMove.apply, hmove, latchPath, if_pos ⟨hmode, hphrase⟩]
        simp [LatchPath.apply, KernelWorld.latch, hmode]
      · rw [latchPath, if_neg h]
        refine latch_moveMode fun m' hm' => ?_
        obtain ⟨hmode, hphrase, -⟩ := ModeStateMachine.rearm_ok hm'
        exact absurd ⟨hmode, hphrase⟩ h

theorem latch_requestPromotion (cfg : KernelConfig) (env : KernelEnv) (read : GatePlanRead)
    (evidence : GateEvidence) :
    Frames KernelWorld.latch (requestPromotion cfg env read evidence) := by
  refine Moves.get_bind fun w => ?_
  refine Moves.bind ?_ (fun gate => Moves.bind (latch_record env rfl) fun _ => ?_) w
  · rw [gateOrBlocked]
    split
    · exact Moves.pure _
    · exact Moves.ite (fun _ => Moves.bind (latch_record env rfl) fun _ => Moves.throw _)
        fun _ => Moves.throw _
  · exact Moves.ite (fun _ => Moves.bind (latch_promoteOneRung _) fun _ => Moves.pure _)
      fun _ => Moves.pure _

theorem latch_applyOverride (env : KernelEnv) (ack : String) :
    Frames KernelWorld.latch (applyLedgeredOverride env ack) :=
  Moves.ite (fun _ => Moves.throw _) fun _ =>
    Moves.bind (latch_record env rfl) fun _ => Moves.modify fun _ => rfl

/-- A destination other than `KILLED` leaves the latch alone. -/
theorem latch_applyDemotion {destination : Mode} (h : destination ≠ .KILLED) :
    Frames KernelWorld.latch (applyDemotion destination) :=
  Moves.ite (fun _ _ => latch_transition fun htarget => absurd htarget h)
    fun _ => latch_demoteOneRung

/-- **A demotion trigger** meets the latch only as the manual kill, and then past the switch. -/
theorem latch_fireDemotionTrigger (cfg : KernelConfig) (env : KernelEnv)
    (trigger : DemotionTrigger) (w : KernelWorld) :
    (finalState ((fireDemotionTrigger env trigger).run w)).latch =
      (latchPath cfg w (.fireDemotionTrigger env trigger)).apply w.latch := by
  have hlast : ∀ destination : Option Mode, Frames KernelWorld.latch (do
      record env (firingEvent trigger w.mode)
      return destination : KernelM (Option Mode)) := fun _ =>
    Moves.bind (latch_record env rfl) fun _ => Moves.pure _
  rw [fireDemotionTrigger, EStateM.run_bind, EStateM.run_get]
  dsimp only
  by_cases hkill : trigger = .MANUAL_KILL ∧ w.mode ≠ .KILLED
  · have hdestination := resolveDemotion_killed.mpr hkill
    have hpath : latchPath cfg w (.fireDemotionTrigger env trigger) = .bypasses := if_pos hkill
    have hmove : (applyDemotion .KILLED).run w =
        .ok () (w.withMachine (w.machine.withMode .KILLED)) := by
      rw [applyDemotion, if_pos (by decide), moveMode_run, transition_killed hkill.2]
    rw [hpath, hdestination]
    dsimp only
    rw [EStateM.run_bind, hmove]
    refine (hlast _ _).trans ?_
    rw [latch_withMode]
    simp [LatchPath.apply, KernelWorld.latch, hkill.2]
  · have hpath : latchPath cfg w (.fireDemotionTrigger env trigger) = .untouched := if_neg hkill
    rw [hpath]
    cases hdestination : resolveDemotion w.mode trigger with
    | none => exact hlast _ w
    | some target =>
        have htarget : target ≠ .KILLED := fun h =>
          hkill (resolveDemotion_killed.mp (h ▸ hdestination))
        exact Moves.bind (latch_applyDemotion htarget) (fun _ => hlast _) w

/-! ## Verification cycles -/

theorem latch_runCycle (tolerances : VerificationTolerances) (env : KernelEnv)
    (view : VerifierEnv) (nowEpochS : ℤ) :
    Frames KernelWorld.latch (runCycle tolerances env view nowEpochS) :=
  runCycle_moves latch_noted
    (fun snapshot => latch_record env (verificationEvent_isLatch snapshot)) tolerances view
    nowEpochS

theorem latch_haltOnBreach (env : KernelEnv) (snapshot : VerificationSnapshot) :
    Frames KernelWorld.latch (haltOnBreach env snapshot) := by
  refine Moves.get_bind fun w => ?_
  have hmove : Frames KernelWorld.latch (moveMode (·.transition .HALT)) := fun u =>
    latch_transition fun h => absurd h (by decide)
  exact Moves.ite (fun _ => Moves.pure _) (fun _ => Moves.bind hmove fun _ =>
    latch_record env rfl) w

/-- A snapshot that does not trip the monitor leaves the latch alone. -/
theorem latch_absorbSnapshot {cfg : KernelConfig} {env : KernelEnv}
    {snapshot : VerificationSnapshot} {w : KernelWorld}
    (h : ∀ threshold, cfg.mismatchThreshold = some threshold → snapshot.outcome = .BREACH →
      ¬ threshold ≤ w.consecutiveBreaches + 1) :
    (finalState ((absorbSnapshot cfg env snapshot).run w)).latch = w.latch := by
  have hfeed : ∃ t, (feedMismatchMonitor cfg env snapshot.outcome).run
      (w.withVerification snapshot) = .ok () t ∧ t.latch = w.latch := by
    rw [feedMismatchMonitor_run]
    cases hcfg : cfg.mismatchThreshold with
    | none => exact ⟨w.withVerification snapshot, rfl, rfl⟩
    | some threshold =>
        dsimp only
        by_cases hbreach : snapshot.outcome = .BREACH
        · rw [if_neg (not_not.mpr hbreach), KernelWorld.withVerification_consecutiveBreaches,
            if_neg (h threshold hcfg hbreach)]
          exact ⟨_, rfl, rfl⟩
        · rw [if_pos hbreach]
          exact ⟨_, rfl, rfl⟩
  obtain ⟨t, hrun, hlatch⟩ := hfeed
  rw [absorbSnapshot_run, hrun]
  dsimp only
  split
  · exact (latch_haltOnBreach env snapshot t).trans hlatch
  · exact hlatch

theorem OnTheWay.latch {w v : KernelWorld} (h : OnTheWay w v) : v.latch = w.latch := by
  obtain ⟨new, hlog, hnew⟩ := h.log
  have hfilter : new.filter Event.isLatch = [] :=
    List.filter_eq_nil_iff.mpr fun event hevent => by simp [(hnew event hevent).1]
  simp only [KernelWorld.latch, h.mode, h.killSequence, hlog, List.filter_append, hfilter,
    List.append_nil]

/-- A cycle that does not trip the monitor leaves the latch alone. -/
theorem latch_runVerificationCycle {cfg : KernelConfig} {env : KernelEnv} {view : VerifierEnv}
    {w : KernelWorld} (h : cycleTripsMonitor cfg env view w = false) :
    (finalState ((runVerificationCycle cfg env view).run w)).latch = w.latch := by
  rw [runVerificationCycle]
  cases htolerances : cfg.verifierTolerances with
  | none => rfl
  | some tolerances =>
      have hframe := beyondCycles_runCycle tolerances env view env.clock w
      have hlatch := latch_runCycle tolerances env view env.clock w
      dsimp only
      rw [EStateM.run_bind]
      cases hcycle : (runCycle tolerances env view env.clock).run w with
      | error e t =>
          rw [hcycle] at hlatch
          exact hlatch
      | ok snapshot t =>
          rw [hcycle] at hframe hlatch
          simp only [finalState_ok, KernelWorld.beyondCycles, Prod.mk.injEq] at hframe hlatch
          refine (latch_absorbSnapshot fun threshold hthreshold hbreach htrip => ?_).trans hlatch
          rw [hframe.2.2.2] at htrip
          simp [cycleTripsMonitor, htolerances, hthreshold, cycleBreaches, hcycle, hbreach,
            htrip] at h

/-! ## The switch's triggers -/

/-- An attempt at a `REARM` file re-arms exactly on the phrase of the active kill; every other
file is refused and moves nothing. -/
theorem attemptRearm_refused (env : KernelEnv) {w : KernelWorld} {file : RearmFile}
    (hfile : w.rearmFile = some file)
    (h : ¬ (w.mode = .KILLED ∧ rearmFileConfirms w = true)) :
    (attemptRearm env file).run w = .ok false w := by
  cases file with
  | unreadable => rfl
  | phrase text =>
      have hrefused : ¬ (w.mode = .KILLED ∧ text = expectedRearmPhrase w.killSequence) := by
        simpa [rearmFileConfirms, hfile] using h
      obtain ⟨message, hrun⟩ := rearm_refused env hrefused
      rw [attemptRearm, run_tryCatch, EStateM.run_bind, hrun]
      rfl

/-- The latch after a `REARM` file that confirms was consumed. -/
theorem latch_consumeRearmFile {env : KernelEnv} {w : KernelWorld} (hmode : w.mode = .KILLED)
    (h : rearmFileConfirms w = true) :
    (finalState ((consumeRearmFile env).run w)).latch = (LatchPath.rearms env).apply w.latch := by
  cases hfile : w.rearmFile with
  | none => simp [rearmFileConfirms, hfile] at h
  | some file =>
      cases file with
      | unreadable => simp [rearmFileConfirms, hfile] at h
      | phrase text =>
          have hphrase : text = expectedRearmPhrase w.killSequence := by
            simpa [rearmFileConfirms, hfile] using h
          have hlatch := latch_rearm env hmode hphrase
          rw [consumeRearmFile, EStateM.run_bind, EStateM.run_get]
          dsimp only
          rw [hfile]
          dsimp only
          rw [EStateM.run_bind, run_tryCatch, attemptRearm, run_tryCatch, EStateM.run_bind]
          cases hrearm : (rearm env text).run w with
          | ok a t =>
              rw [hrearm] at hlatch
              exact hlatch
          | error e t =>
              -- only the record can raise once the phrase matches, and that is not a refusal
              have hkind : e.kind = .writer := by
                rw [rearm_of_phrase env hmode hphrase] at hrearm
                rw [record_run] at hrearm
                split_ifs at hrearm
                cases hrearm
                rfl
              rw [hrearm] at hlatch
              simp only [hkind]
              exact hlatch

theorem consumeRearmFile_refused (env : KernelEnv) {w : KernelWorld}
    (h : ¬ (w.mode = .KILLED ∧ rearmFileConfirms w = true)) :
    (finalState ((consumeRearmFile env).run w)).latch = w.latch := by
  rw [consumeRearmFile, EStateM.run_bind, EStateM.run_get]
  dsimp only
  cases hfile : w.rearmFile with
  | none => rfl
  | some file =>
      dsimp only
      rw [EStateM.run_bind, run_tryCatch, attemptRearm_refused env hfile h]
      rfl

theorem latch_pollKillTriggers (cfg : KernelConfig) (env : KernelEnv) (w : KernelWorld) :
    (finalState ((pollKillTriggers cfg env).run w)).latch =
      (latchPath cfg w (.pollKillTriggers env)).apply w.latch := by
  rw [pollKillTriggers, latchPath]
  by_cases hwatcher : cfg.hasWatcher = true
  · rw [if_pos hwatcher, pollOnce, EStateM.run_bind, EStateM.run_get]
    dsimp only
    by_cases hmode : w.mode = .KILLED
    · rw [if_neg (not_not.mpr hmode), if_neg fun h => h.2.1 hmode]
      by_cases hfile : rearmFileConfirms w = true
      · rw [if_pos ⟨hwatcher, hmode, hfile⟩]
        exact latch_consumeRearmFile hmode hfile
      · rw [if_neg fun h => hfile h.2.2]
        exact consumeRearmFile_refused env fun h => hfile h.2
    · rw [if_pos hmode]
      by_cases hfile : w.killFile = true
      · rw [if_pos hfile, if_pos ⟨hwatcher, hmode, hfile⟩]
        exact latch_kill cfg env .KILL_FILE w
      · rw [if_neg hfile, if_neg fun h => hfile h.2.2, if_neg fun h => hmode h.2.1]
        rfl
  · rw [if_neg hwatcher, if_neg fun h => hwatcher h.1, if_neg fun h => hwatcher h.1]
    rfl

theorem confirm_refused {cfg : KernelConfig} {env : KernelEnv} {token : String} {w : KernelWorld}
    (h : confirms token w = false) : ∃ e, (confirm cfg env token).run w = .error e w := by
  rw [confirm, EStateM.run_bind, EStateM.run_get]
  dsimp only
  cases hpending : w.pendingChallenge with
  | none => exact ⟨_, rfl⟩
  | some pending =>
      dsimp only
      simp only [confirms, hpending] at h
      cases hascii : isAscii token && isAscii pending with
      | false => exact ⟨_, rfl⟩
      | true =>
          have hother : token ≠ pending := by
            rintro rfl
            rw [hascii] at h
            simp at h
          rw [if_neg (by simp), if_pos hother]
          exact ⟨_, rfl⟩

/-! ## Every operation -/

/-- **The kernel refines the latch**: each operation does to the mode, to the kill's number and to
the history of replay what its path does to the latch. -/
theorem kernelStep_latch (cfg : KernelConfig) (w : KernelWorld) (op : KernelOp) :
    (kernelStep cfg w op).2.latch = (latchPath cfg w op).apply w.latch := by
  cases op with
  | ledger op =>
      have hlatch := latch_ledgerStep cfg w op
      rw [kernelStep]
      split
      · rename_i heq
        rw [heq] at hlatch
        exact hlatch
      · rename_i heq
        rw [heq] at hlatch
        exact hlatch
  | machine move => exact (congrArg _ (settle_snd _)).trans (latch_machine cfg w move)
  | requestPromotion env read evidence =>
      exact (congrArg _ (settle_snd _)).trans (latch_requestPromotion cfg env read evidence w)
  | applyOverride env ack =>
      exact (congrArg _ (settle_snd _)).trans (latch_applyOverride env ack w)
  | fireDemotionTrigger env trigger =>
      exact (congrArg _ (settle_snd _)).trans (latch_fireDemotionTrigger cfg env trigger w)
  | runVerificationCycle env view =>
      by_cases htrip : cycleTripsMonitor cfg env view w = true
      · obtain ⟨v, hv, hfinal⟩ :=
          @kernelStep_callsKill cfg w (.runVerificationCycle env view) _ _ (if_pos htrip)
        rw [hfinal, latch_kill, hv.latch, latchPath, if_pos htrip]
      · rw [latchPath, if_neg htrip]
        exact (congrArg _ (settle_snd _)).trans
          (latch_runVerificationCycle (Bool.eq_false_iff.mpr htrip))
  | kill env trigger => exact (congrArg _ (settle_snd _)).trans (latch_kill cfg env trigger w)
  | pollKillTriggers env =>
      exact (congrArg _ (settle_snd _)).trans (latch_pollKillTriggers cfg env w)
  | requestChallenge env => rfl
  | confirm env token =>
      refine (congrArg _ (settle_snd _)).trans ?_
      by_cases hnonce : confirms token w = true
      · rw [confirm_of_confirms hnonce, latch_kill, latchPath, if_pos hnonce]
        rfl
      · obtain ⟨e, hrun⟩ := @confirm_refused cfg env token w (Bool.eq_false_iff.mpr hnonce)
        rw [hrun, latchPath, if_neg hnonce]
        rfl
  | rearm env confirmation =>
      refine (congrArg _ (settle_snd _)).trans ?_
      by_cases h : w.mode = .KILLED ∧ confirmation = expectedRearmPhrase w.killSequence
      · rw [latchPath, if_pos h]
        exact latch_rearm env h.1 h.2
      · obtain ⟨text, hrun⟩ := rearm_refused env h
        rw [hrun, latchPath, if_neg h]
        rfl
  | dropKillFile present => rfl
  | dropRearmFile file => rfl

end Windbreak
