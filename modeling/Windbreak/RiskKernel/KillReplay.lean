import Windbreak.RiskKernel.KillLatch

/-!
# Does replay recover the latch?

After a restart the kernel is rebuilt from the recorded history: it comes back killed when the
history ends on a kill that nothing re-armed, and the switch comes back with the number of the last
kill.

* **`Latch.Durable`** — the history folds to the latch it belongs to.
* **`replay_agrees_iff`** — over a run, replay agrees with the live kernel in every state exactly
  when every operation goes through the switch and the switch's two records are written.
* **`manual_kill_not_replayed`** — the manual kill goes past the switch, and a restart forgets it.
-/

namespace Windbreak

open Machine Effects

/-! ## The fold -/

/-- Events that replay does not read leave the fold alone. -/
theorem killStateStep_of_not_latch {event : Event} (h : event.isLatch = false)
    (state : ReplayedKillState) : killStateStep state event = .ok state := by
  simp only [Event.isLatch, Bool.or_eq_false_iff, beq_eq_false_iff_ne] at h
  rw [killStateStep, if_neg h.1, if_neg h.2]
  rfl

@[simp] theorem killStateStep_engaged (state : ReplayedKillState) (trigger : String)
    (n epoch : ℤ) :
    killStateStep state (killEngagedEvent trigger n epoch) = .ok ⟨n, true⟩ := rfl

@[simp] theorem killStateStep_reArmed (state : ReplayedKillState) (n : ℤ) :
    killStateStep state (killReArmedEvent n) =
      .ok (if n = state.lastKillSequence then { state with killed := false } else state) := rfl

/-- Replay reads the events of the latch and no others. -/
theorem killStateIn_filter (events : List Event) :
    killStateIn (events.filter Event.isLatch) = killStateIn events := by
  have hfold : ∀ state, (events.filter Event.isLatch).foldlM killStateStep state =
      events.foldlM killStateStep state := by
    induction events with
    | nil => exact fun _ => rfl
    | cons event events ih =>
        intro state
        rw [List.foldlM_cons]
        cases h : event.isLatch with
        | false =>
            rw [List.filter_cons_of_neg (by simp [h]), killStateStep_of_not_latch h, ih]
            rfl
        | true =>
            rw [List.filter_cons_of_pos h, List.foldlM_cons]
            congr 1
            funext state'
            exact ih state'
  exact hfold _

theorem killStateIn_append (events : List Event) (event : Event) :
    killStateIn (events ++ [event]) =
      (killStateIn events).bind fun state => killStateStep state event := by
  rw [killStateIn, killStateIn, List.foldlM_append]
  simp only [List.foldlM_cons, List.foldlM_nil, bind_pure]
  rfl

/-! ## Durable latches -/

/-- **The history of a latch folds to the latch.** -/
def Latch.Durable (latch : Latch) : Prop :=
  killStateIn latch.history = .ok ⟨latch.killSequence, latch.killed⟩

/-- A path whose steps replay can follow: it does not go past the switch, and the record of the
kill or of the re-arm is written. -/
def LatchPath.Ledgered (latch : Latch) : LatchPath → Prop
  | .untouched => True
  | .callsKill env trigger => latch.killed = true ∨
      env.recordRaises (killEngagedEvent trigger.name (latch.killSequence + 1) env.clock) = false
  | .rearms env => env.recordRaises (killReArmedEvent latch.killSequence) = false
  | .bypasses => False

instance (latch : Latch) : ∀ path : LatchPath, Decidable (path.Ledgered latch)
  | .untouched => inferInstanceAs (Decidable True)
  | .callsKill _ _ => inferInstanceAs (Decidable (_ ∨ _))
  | .rearms _ => inferInstanceAs (Decidable (_ = false))
  | .bypasses => inferInstanceAs (Decidable False)

/-- **One step**: a durable latch stays durable exactly on the paths replay can follow.  Only an
engaged latch is ever re-armed. -/
theorem Latch.Durable.apply_iff {latch : Latch} (h : latch.Durable) {path : LatchPath}
    (hrearm : ∀ env, path = .rearms env → latch.killed = true) :
    (path.apply latch).Durable ↔ path.Ledgered latch := by
  cases path with
  | untouched => exact iff_of_true h trivial
  | callsKill env trigger =>
      simp only [LatchPath.apply, LatchPath.Ledgered]
      cases hkilled : latch.killed with
      | true =>
          rw [if_pos rfl]
          exact iff_of_true h (Or.inl rfl)
      | false =>
          rw [if_neg (by decide), Latch.Durable, KernelEnv.written]
          split
          · rename_i hraise
            rw [List.append_nil, h, hkilled]
            simp [hraise]
          · rename_i hwritten
            rw [killStateIn_append, h]
            simp [Except.bind, hwritten]
  | rearms env =>
      have hkilled : latch.killed = true := hrearm env rfl
      simp only [LatchPath.apply, LatchPath.Ledgered]
      rw [Latch.Durable, KernelEnv.written]
      split
      · rename_i hraise
        rw [List.append_nil, h, hkilled]
        simp [hraise]
      · rename_i hwritten
        rw [killStateIn_append, h]
        simp [Except.bind, hwritten]
  | bypasses =>
      simp only [LatchPath.apply, LatchPath.Ledgered, iff_false]
      rw [Latch.Durable, h]
      cases latch.killed <;> simp

/-! ## Replay against the live kernel -/

/-- **Replay of the recorded history agrees with the live kernel**: a kernel rebuilt around any
machine that is not already killed, and so the switch that shares its machine, is in `KILLED`
exactly when the live kernel is, and the rebuilt switch has the live switch's number. -/
structure ReplayAgrees (w : KernelWorld) : Prop where
  killed : ∀ machine : ModeStateMachine, machine.mode ≠ .KILLED →
    ∃ rebuilt, RiskKernel.fromEvents w.log machine = .ok rebuilt ∧
      (rebuilt.machine.mode = .KILLED ↔ w.mode = .KILLED)
  killSequence : KillSwitch.fromEvents w.log = .ok w.killSequence

/-- What a rebuilt kernel's machine is, from the fold. -/
theorem fromEvents_machine {events : List Event} {state : ReplayedKillState}
    (h : killStateIn events = .ok state) {machine : ModeStateMachine}
    (hmachine : machine.mode ≠ .KILLED) :
    ∃ rebuilt, RiskKernel.fromEvents events machine = .ok rebuilt ∧
      (rebuilt.machine.mode = .KILLED ↔ state.killed = true) := by
  rw [RiskKernel.fromEvents, h]
  cases hkilled : state.killed with
  | true =>
      refine ⟨⟨machine.withMode .KILLED, overrideAppliedIn events⟩, ?_, by simp⟩
      show (if state.killed = true ∧ machine.mode ≠ .KILLED then _ else _) = _
      rw [if_pos ⟨hkilled, hmachine⟩, transition_killed hmachine]
      rfl
  | false =>
      refine ⟨⟨machine, overrideAppliedIn events⟩, ?_, by simp [hmachine]⟩
      show (if state.killed = true ∧ machine.mode ≠ .KILLED then _ else _) = _
      rw [if_neg (by simp [hkilled])]
      rfl

/-- **Replay agrees exactly when the latch is durable.** -/
theorem replayAgrees_iff {w : KernelWorld} : ReplayAgrees w ↔ w.latch.Durable := by
  have hhistory : killStateIn w.latch.history = killStateIn w.log := killStateIn_filter w.log
  rw [Latch.Durable, hhistory]
  constructor
  · intro h
    have hsequence := h.killSequence
    rw [KillSwitch.fromEvents] at hsequence
    cases hstate : killStateIn w.log with
    | error e =>
        rw [hstate] at hsequence
        cases hsequence
    | ok state =>
        rw [hstate] at hsequence
        have hlast : state.lastKillSequence = w.killSequence := Except.ok.inj hsequence
        obtain ⟨rebuilt, hrebuilt, hiff⟩ := h.killed ⟨.RESEARCH, .RESEARCH, 0, rfl⟩ (by decide)
        obtain ⟨rebuilt', hrebuilt', hiff'⟩ :=
          @fromEvents_machine _ _ hstate ⟨.RESEARCH, .RESEARCH, 0, rfl⟩ (by decide)
        rw [hrebuilt] at hrebuilt'
        cases hrebuilt'
        have hkilled : state.killed = decide (w.mode = .KILLED) :=
          Bool.eq_iff_iff.mpr (by rw [← hiff', hiff, decide_eq_true_eq])
        exact congrArg Except.ok (ReplayedKillState.ext hlast hkilled)
  · intro h
    refine ⟨fun machine hmachine => ?_, ?_⟩
    · obtain ⟨rebuilt, hrebuilt, hiff⟩ := fromEvents_machine h hmachine
      exact ⟨rebuilt, hrebuilt, hiff.trans (by simp [KernelWorld.latch])⟩
    · rw [KillSwitch.fromEvents, h]
      rfl

/-- Only a killed kernel is re-armed. -/
theorem killed_of_rearms {cfg : KernelConfig} {w : KernelWorld} {op : KernelOp} {env : KernelEnv}
    (h : latchPath cfg w op = .rearms env) : w.latch.killed = true := by
  have hmode : w.mode = .KILLED := by
    cases latchPath_meets h (by simp) with
    | rearm _ _ hphrase => exact hphrase.1
    | rearmFile _ hfile => exact hfile.2.1
  simp [KernelWorld.latch, hmode]

/-- **Over a run, replay agrees with the live kernel in every state exactly when every operation
keeps to the switch and the writer takes the switch's records of kill and re-arm.** -/
theorem replay_agrees_iff (cfg : KernelConfig) (w : KernelWorld) (h : ReplayAgrees w)
    (ops : List KernelOp) :
    (∀ t ∈ trace (kernelStep cfg) w ops, ReplayAgrees t.post) ↔
      ∀ t ∈ trace (kernelStep cfg) w ops, (latchPath cfg t.pre t.input).Ledgered t.pre.latch := by
  refine trace_kept_iff (I := fun _ => True) (fun _ _ _ => trivial) (fun v op _ hv => ?_) trivial h
    ops
  have hdurable : v.latch.Durable := replayAgrees_iff.mp hv
  rw [replayAgrees_iff, kernelStep_latch]
  exact hdurable.apply_iff fun env hpath => killed_of_rearms hpath

/-- A fresh kernel agrees with the empty history. -/
theorem replayAgrees_fresh {machine : ModeStateMachine} (h : machine.mode ≠ .KILLED) :
    ReplayAgrees (KernelWorld.fresh machine) := by
  have hlatch : (KernelWorld.fresh machine).latch = ⟨false, 0, []⟩ :=
    Latch.ext (decide_eq_false h) rfl rfl
  rw [replayAgrees_iff, hlatch]
  rfl

/-- A kill and its re-arm are both replayed. -/
theorem kill_and_rearm_replayed :
    ReplayAgrees sampleWorld ∧ ∀ t ∈ trace (kernelStep sampleConfig) sampleWorld
      [.kill .quiet .CLI, .rearm .quiet (expectedRearmPhrase 1)], ReplayAgrees t.post := by
  have hfresh : ReplayAgrees sampleWorld := replayAgrees_fresh (by decide)
  refine ⟨hfresh, (replay_agrees_iff sampleConfig sampleWorld hfresh _).mpr ?_⟩
  simp only [trace_cons, trace_nil, List.forall_mem_cons]
  refine ⟨Or.inr rfl, ?_, by simp⟩
  decide +kernel

/-- The manual kill moves the machine past the switch: the kernel is killed, nothing says so in the
history, and a restart brings it back alive. -/
theorem manual_kill_not_replayed :
    ¬ ∀ (cfg : KernelConfig) (machine : ModeStateMachine) (ops : List KernelOp),
      machine.mode ≠ .KILLED →
        ∀ t ∈ trace (kernelStep cfg) (KernelWorld.fresh machine) ops, ReplayAgrees t.post := by
  intro hclaim
  let op : KernelOp := .fireDemotionTrigger .quiet .MANUAL_KILL
  have hpath : latchPath sampleConfig sampleWorld op = .bypasses := by
    rw [latchPath, if_pos (by decide)]
  have hlatch : (kernelStep sampleConfig sampleWorld op).2.latch = ⟨true, 0, []⟩ := by
    rw [kernelStep_latch, hpath]
    rfl
  have hdurable : (kernelStep sampleConfig sampleWorld op).2.latch.Durable :=
    replayAgrees_iff.mp (hclaim sampleConfig sampleMachine [op] (by decide) _ List.mem_cons_self)
  rw [hlatch] at hdurable
  -- the empty history does not fold to an engaged latch
  have hfold : killStateIn [] = .ok ⟨0, true⟩ := hdurable
  cases hfold

end Windbreak
