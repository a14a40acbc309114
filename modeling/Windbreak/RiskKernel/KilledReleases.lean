import Windbreak.RiskKernel.KillEffects
import Windbreak.RiskKernel.KillLatch

/-!
# Does every way into `KILLED` release what it should?

The mode belongs to the kernel, the effects of a kill to the switch.  A run is followed here
together with what each stay in `KILLED` owes: the reservations that were active when it began, and
a cancel-all request.

* **`KilledSince`** — the stay: the trigger it came by, what was held then, and whether a cancel-all
  was requested since.
* **`Performed`** — nothing is owed any more.
* **`killed_releases_iff`** — over a run, every calm entry into `KILLED` and every calm `kill` made
  on another's stay leave nothing owed, exactly when no such entry goes past the switch, the switch
  has the ledger of whatever is active, and no such `kill` finds anything owed.
-/

namespace Windbreak

open Machine Effects

/-! ## Calm operations -/

/-- No collaborator raises. -/
structure KernelEnv.Calm (env : KernelEnv) : Prop where
  records : ∀ event, env.recordRaises event = false
  issues : ∀ claims, env.issueRaises claims = false
  directive : ∃ delivery, env.directive = .ok delivery
  dispatches : ∀ alert message, ∃ report, env.dispatch alert message = .ok report
  killFile : env.killFileRaises = false

theorem KernelEnv.calm_quiet : KernelEnv.quiet.Calm :=
  ⟨fun _ => rfl, fun _ => rfl, ⟨none, rfl⟩, fun _ _ => ⟨none, rfl⟩, rfl⟩

/-- The environment an operation runs in, when it uses one. -/
def KernelOp.env? : KernelOp → Option KernelEnv
  | .ledger (.approve env ..) | .ledger (.release env ..) | .ledger (.releaseAllActive env ..)
  | .ledger (.adjust env ..) | .ledger (.expireDue env ..) => some env
  | .requestPromotion env .. | .applyOverride env .. | .fireDemotionTrigger env ..
  | .runVerificationCycle env .. | .kill env .. | .pollKillTriggers env | .requestChallenge env
  | .confirm env .. | .rearm env .. => some env
  | .machine _ | .dropKillFile _ | .dropRearmFile _ => none

/-- An operation during which nothing raises. -/
def KernelOp.Calm (op : KernelOp) : Prop := ∀ env, op.env? = some env → env.Calm

/-- The call of `kill` runs in the environment of the operation that makes it. -/
theorem env?_of_callsKill {cfg : KernelConfig} {w : KernelWorld} {op : KernelOp}
    {env : KernelEnv} {trigger : KillTrigger} (h : latchPath cfg w op = .callsKill env trigger) :
    op.env? = some env := by
  cases latchPath_meets h (by simp) <;> rfl

/-! ## What a stay in `KILLED` owes -/

/-- Whether a cancel-all was requested between two states. -/
def cancelAllRequested (w w' : KernelWorld) : Bool :=
  (w'.log.drop w.log.length).any fun event => event.eventType == "CancelAllDirective"

/-- A stay in `KILLED`: the trigger it came by, none when it came past the switch; the reservations
active when it began; whether a cancel-all was requested since. -/
structure KilledSince where
  path : Option KillTrigger
  held : List String
  cancelAll : Bool
  deriving DecidableEq, Repr

/-- The world, and the present stay in `KILLED` if a run has shown one begin. -/
structure KilledRun where
  world : KernelWorld
  since : Option KilledSince

/-- A run that has not begun. -/
def KilledRun.fresh (machine : ModeStateMachine) : KilledRun := ⟨KernelWorld.fresh machine, none⟩

/-- The trigger of the call of `kill` an operation makes, if it makes one. -/
def LatchPath.trigger? : LatchPath → Option KillTrigger
  | .callsKill _ trigger => some trigger
  | _ => none

/-- The stay after an operation that leads to `w'`. -/
def nextSince (cfg : KernelConfig) (s : KilledRun) (op : KernelOp) (w' : KernelWorld) :
    Option KilledSince :=
  if w'.mode ≠ .KILLED then none
  else if s.world.mode = .KILLED then
    s.since.map fun k => { k with cancelAll := k.cancelAll || cancelAllRequested s.world w' }
  else
    some ⟨(latchPath cfg s.world op).trigger?, s.world.ledger.active.keys,
      cancelAllRequested s.world w'⟩

/-- One operation. -/
def killedStep (cfg : KernelConfig) (s : KilledRun) (op : KernelOp) :
    Option KernelError × KilledRun :=
  ((kernelStep cfg s.world op).1,
    ⟨(kernelStep cfg s.world op).2, nextSince cfg s op (kernelStep cfg s.world op).2⟩)

/-- The transitions of the machine. -/
abbrev KilledTransition := Transition KilledRun KernelOp (Option KernelError)

/-- Nothing is owed: a cancel-all was requested, and every reservation held when the stay began has
been released. -/
def Performed (s : KilledRun) : Prop :=
  ∀ k, s.since = some k →
    k.cancelAll = true ∧ ∀ id ∈ k.held, id ∉ s.world.ledger.active.keys

/-- The operation enters `KILLED`. -/
def Enters (t : KilledTransition) : Prop :=
  t.pre.world.mode ≠ .KILLED ∧ t.post.world.mode = .KILLED

/-- The operation calls `kill` on a stay that began by another path. -/
def KillsAgain (cfg : KernelConfig) (t : KilledTransition) : Prop :=
  t.pre.world.mode = .KILLED ∧ ∃ env trigger,
    latchPath cfg t.pre.world t.input = .callsKill env trigger ∧
      ∀ k, t.pre.since = some k → k.path ≠ some trigger

/-- A calm entry into `KILLED`, and a calm `kill` on another's stay, leave nothing owed. -/
def Releases (cfg : KernelConfig) (t : KilledTransition) : Prop :=
  t.input.Calm → Enters t ∨ KillsAgain cfg t → Performed t.post

/-- A calm entry into `KILLED` goes through the switch, which has the ledger of whatever is active;
a calm `kill` on another's stay finds nothing owed. -/
def ReleasesWhen (cfg : KernelConfig) (t : KilledTransition) : Prop :=
  t.input.Calm →
    match latchPath cfg t.pre.world t.input with
    | .untouched | .rearms _ => True
    | .bypasses => t.pre.world.mode = .KILLED
    | .callsKill _ _ =>
      (t.pre.world.mode ≠ .KILLED →
        cfg.switchHasLedger = true ∨ t.pre.world.ledger.active.keys = []) ∧
      (KillsAgain cfg t → Performed t.pre)

/-! ## What the paths request and release -/

theorem cancelAllRequested_of_grows {w w' : KernelWorld}
    (h : Grows KernelWorld.log (fun event => event.eventType ≠ "CancelAllDirective") w w') :
    cancelAllRequested w w' = false := by
  obtain ⟨new, hlog, hnew⟩ := h
  rw [cancelAllRequested, hlog, List.drop_left, List.any_eq_false]
  exact fun event hevent => by simpa using hnew event hevent

theorem cancelAllRequested_of_mem {w w' : KernelWorld} {delivery : Option DirectiveDelivery}
    {events : List Event} (hlog : w'.log = w.log ++ events)
    (h : cancelAllRecord delivery ∈ events) : cancelAllRequested w w' = true := by
  rw [cancelAllRequested, hlog, List.drop_left, List.any_eq_true]
  exact ⟨_, h, rfl⟩

theorem record_log_grows (env : KernelEnv) {event : Event} {P : Event → Prop} (hP : P event) :
    Moves (Grows KernelWorld.log P) (record env event) := by
  intro w
  rw [record_run]
  split
  · exact Grows.of_eq rfl
  · exact Grows.one rfl hP

theorem log_moveMode (step : ModeStateMachine → Except KernelError ModeStateMachine) :
    Frames KernelWorld.log (moveMode step) := by
  intro w
  rw [moveMode_run]
  cases step w.machine with
  | ok machine => rfl
  | error e => rfl

/-- A move past the switch requests no cancel-all. -/
theorem cancelAllRequested_of_bypasses {cfg : KernelConfig} {w : KernelWorld} {op : KernelOp}
    (h : latchPath cfg w op = .bypasses) :
    cancelAllRequested w (kernelStep cfg w op).2 = false := by
  have hmove : ∀ step, Moves (Grows KernelWorld.log
      fun event => event.eventType ≠ "CancelAllDirective") (moveMode step) :=
    fun step => (log_moveMode step).mono fun _ _ => Grows.of_eq
  refine cancelAllRequested_of_grows ?_
  cases latchPath_meets h (by simp) with
  | machineKill hmode =>
      rw [kernelStep, settle_snd]
      exact hmove _ w
  | machineRearm hmode =>
      rw [kernelStep, settle_snd]
      exact hmove _ w
  | manualKill env hmode =>
      rw [kernelStep, settle_snd, fireDemotionTrigger, EStateM.run_bind, EStateM.run_get]
      dsimp only
      rw [resolveDemotion_killed.mpr ⟨rfl, hmode⟩]
      refine Moves.bind ?_ (fun _ => Moves.bind (record_log_grows env ?_) fun _ => Moves.pure _) w
      · exact Moves.ite (fun _ => hmove _) fun _ => hmove _
      · simp [firingEvent, demotionTriggerFiredEvent, kernelEvent]

/-- **A kill during which no record raises** requests a cancel-all, and releases everything active
exactly when the switch has the ledger. -/
theorem kill_of_recorded {cfg : KernelConfig} {env : KernelEnv} (trigger : KillTrigger)
    {w : KernelWorld} (hrecords : ∀ event, env.recordRaises event = false)
    (h : w.mode ≠ .KILLED) :
    let w' := finalState ((kill cfg env trigger).run w)
    (∃ events, w'.log = w.log ++ events ∧ cancelAllRecord (deliveryOf cfg env) ∈ events) ∧
      (if cfg.switchHasLedger = true then w'.ledger.active.keys = []
        else w'.ledger = w.ledger) := by
  intro w'
  set engagedEvent := killEngagedEvent trigger.name (w.killSequence + 1) env.clock
  set cancelEvent := cancelAllRecord (deliveryOf cfg env)
  set u := (w.engaged.noted (.record engagedEvent)).logged engagedEvent with hu
  set v := if cfg.switchHasDirectiveSink then u.noted (.submitDirective cancelAllScope) else u
    with hv
  set x := (v.noted (.record cancelEvent)).logged cancelEvent with hx
  have hxlog : x.log = w.log ++ [engagedEvent, cancelEvent] := by
    have hvlog : v.log = w.log ++ [engagedEvent] := by
      rw [hv]
      split <;> rfl
    rw [hx, KernelWorld.logged_log, KernelWorld.noted_log, hvlog, List.append_assoc]
    rfl
  have hxledger : x.ledger = w.ledger := by
    have hvledger : v.ledger = w.ledger := by
      rw [hv]
      split <;> rfl
    exact hvledger
  have hw' : w' = finalState ((do
      releaseReservations cfg env
      pageOperator cfg env (haltKillMessage (deliveryOf cfg env)) : KernelM Unit).run x) := by
    show finalState ((kill cfg env trigger).run w) = _
    rw [kill_of_not_killed cfg env trigger h, killEffects, record_bind_run, hrecords,
      if_neg (by decide), killAftermath_run, hrecords, if_neg (by decide)]
  have hrelease := releaseReservations_run cfg env x
  have hgrow : Moves (Grows KernelWorld.log fun _ => True) (releaseReservations cfg env) :=
    releaseReservations_moves cfg (fun event _ => record_log_grows env trivial)
      fun _ _ => Grows.of_eq rfl
  have hpage : ∀ message, Moves (Grows KernelWorld.log fun _ => True)
      (pageOperator cfg env message) := fun message =>
    pageOperator_moves cfg message (fun _ _ => Grows.of_eq rfl)
      (fun event _ => record_log_grows env trivial) fun _ _ => Grows.of_eq rfl
  have hpageLedger : ∀ message, Frames KernelWorld.ledger (pageOperator cfg env message) :=
    fun message => pageOperator_moves cfg message (fun _ _ => rfl)
      (fun event _ => record_frames env event (fun _ _ => rfl) fun _ => rfl) fun _ _ => rfl
  refine ⟨?_, ?_⟩
  · obtain ⟨later, hlater, -⟩ := Moves.bind hgrow (fun _ => hpage _) x
    refine ⟨[engagedEvent, cancelEvent] ++ later, ?_, by simp⟩
    rw [hw', hlater, hxlog, List.append_assoc]
  · rw [EStateM.run_bind] at hw'
    cases hrun : (releaseReservations cfg env).run x with
    | error e t =>
        rw [hrun] at hrelease
        obtain ⟨-, id, -, hraise⟩ := hrelease
        rw [hrecords] at hraise
        exact absurd hraise (by decide)
    | ok a t =>
        rw [hrun] at hrelease hw'
        have hledger : w'.ledger = t.ledger := by
          rw [hw']
          exact hpageLedger _ t
        rw [hledger]
        split
        · rename_i hwired
          exact hrelease.1 hwired
        · rename_i hunwired
          have ht : t = x := by
            rw [releaseReservations, if_neg hunwired] at hrun
            cases hrun
            rfl
          rw [ht, hxledger]

/-! ## Transition by transition -/

theorem mode_killed_iff {w : KernelWorld} : w.mode = .KILLED ↔ w.latch.killed = true := by
  simp [KernelWorld.latch]

/-- An entry leaves nothing owed exactly when it requested a cancel-all and released what was
active. -/
theorem performed_of_enters {cfg : KernelConfig} {s : KilledRun} {op : KernelOp}
    (hpre : s.world.mode ≠ .KILLED) (hpost : (kernelStep cfg s.world op).2.mode = .KILLED) :
    Performed (killedStep cfg s op).2 ↔
      cancelAllRequested s.world (kernelStep cfg s.world op).2 = true ∧
        ∀ id ∈ s.world.ledger.active.keys,
          id ∉ (kernelStep cfg s.world op).2.ledger.active.keys := by
  have hsince : (killedStep cfg s op).2.since =
      some ⟨(latchPath cfg s.world op).trigger?, s.world.ledger.active.keys,
        cancelAllRequested s.world (kernelStep cfg s.world op).2⟩ := by
    show nextSince cfg s op (kernelStep cfg s.world op).2 = _
    rw [nextSince, if_neg (not_not.mpr hpost), if_neg hpre]
  rw [Performed, hsince]
  exact ⟨fun h => h _ rfl, fun h k hk => Option.some.inj hk ▸ h⟩

/-- A `kill` on a stay changes nothing of what the stay owes. -/
theorem performed_of_callsKill {cfg : KernelConfig} {s : KilledRun} {op : KernelOp}
    {env : KernelEnv} {trigger : KillTrigger}
    (hpath : latchPath cfg s.world op = .callsKill env trigger) (hpre : s.world.mode = .KILLED) :
    Performed (killedStep cfg s op).2 ↔ Performed s := by
  obtain ⟨v, hv, hfinal⟩ := kernelStep_callsKill hpath
  have hworld : (kernelStep cfg s.world op).2 = v := by
    rw [hfinal, kill_of_killed cfg env trigger (hv.mode.trans hpre), finalState_ok]
  have hrequest : cancelAllRequested s.world v = false :=
    cancelAllRequested_of_grows (hv.log.mono fun _ h => h.2)
  have hsince : (killedStep cfg s op).2.since = s.since := by
    show nextSince cfg s op (kernelStep cfg s.world op).2 = _
    rw [hworld, nextSince, if_neg (not_not.mpr (hv.mode.trans hpre)), if_pos hpre, hrequest]
    simp
  have hledger : (killedStep cfg s op).2.world.ledger = s.world.ledger := by
    show (kernelStep cfg s.world op).2.ledger = _
    rw [hworld, hv.ledger]
  rw [Performed, Performed, hsince, hledger]

/-- A calm `kill` from another mode leaves nothing owed exactly when the switch has the ledger of
whatever is active. -/
theorem performed_of_kill {cfg : KernelConfig} {s : KilledRun} {op : KernelOp} {env : KernelEnv}
    {trigger : KillTrigger} (hpath : latchPath cfg s.world op = .callsKill env trigger)
    (hcalm : env.Calm) (hpre : s.world.mode ≠ .KILLED) :
    Performed (killedStep cfg s op).2 ↔
      cfg.switchHasLedger = true ∨ s.world.ledger.active.keys = [] := by
  obtain ⟨v, hv, hfinal⟩ := kernelStep_callsKill hpath
  have hvmode : v.mode ≠ .KILLED := by
    rw [hv.mode]
    exact hpre
  obtain ⟨⟨events, hlog, hmem⟩, hledger⟩ :=
    @kill_of_recorded cfg env trigger v hcalm.records hvmode
  obtain ⟨early, hearly, -⟩ := hv.log
  rw [performed_of_enters hpre (by rw [hfinal]; exact kill_mode cfg env trigger v), hfinal]
  have hrequest := cancelAllRequested_of_mem (w := s.world)
    (by rw [hlog, hearly, List.append_assoc]) (List.mem_append_right early hmem)
  rw [hrequest]
  split at hledger
  · rename_i hwired
    rw [hledger]
    exact iff_of_true ⟨rfl, fun _ _ => List.not_mem_nil⟩ (Or.inl hwired)
  · rename_i hunwired
    rw [hledger, hv.ledger]
    constructor
    · rintro ⟨-, h⟩
      exact Or.inr (List.eq_nil_iff_forall_not_mem.mpr fun id hid => h id hid hid)
    · rintro (hwired | hempty)
      · exact absurd hwired hunwired
      · exact ⟨rfl, fun id hid => by simp [hempty] at hid⟩

theorem releases_iff_releasesWhen (cfg : KernelConfig) (s : KilledRun) (op : KernelOp) :
    Releases cfg (transition (killedStep cfg) s op) ↔
      ReleasesWhen cfg (transition (killedStep cfg) s op) := by
  refine imp_congr_right fun hcalm => ?_
  have hlatch := kernelStep_latch cfg s.world op
  have hentered : ∀ h : Enters (transition (killedStep cfg) s op),
      s.world.latch.killed = false ∧
        ((latchPath cfg s.world op).apply s.world.latch).killed = true := by
    rintro ⟨hpre, hpost⟩
    rw [← hlatch]
    exact ⟨decide_eq_false hpre, mode_killed_iff.mp hpost⟩
  have hagain : ∀ h : KillsAgain cfg (transition (killedStep cfg) s op),
      ∃ env trigger, latchPath cfg s.world op = .callsKill env trigger := by
    rintro ⟨-, env, trigger, hpath, -⟩
    exact ⟨env, trigger, hpath⟩
  simp only [transition] at hentered hagain hcalm ⊢
  cases hpath : latchPath cfg s.world op with
  | untouched =>
      refine iff_of_true (fun h => ?_) trivial
      rw [hpath] at hentered
      rcases h with h | h
      · obtain ⟨hpre, hpost⟩ := hentered h
        exact absurd (hpre.symm.trans hpost) (by decide)
      · obtain ⟨env, trigger, hkill⟩ := hagain h
        exact absurd (hpath.symm.trans hkill) (by simp)
  | rearms env =>
      refine iff_of_true (fun h => ?_) trivial
      rw [hpath] at hentered
      rcases h with h | h
      · exact absurd (hentered h).2 (by simp [LatchPath.apply])
      · obtain ⟨env, trigger, hkill⟩ := hagain h
        exact absurd (hpath.symm.trans hkill) (by simp)
  | bypasses =>
      by_cases hpre : s.world.mode = .KILLED
      · refine iff_of_true (fun h => ?_) hpre
        rcases h with h | h
        · exact absurd hpre h.1
        · obtain ⟨env, trigger, hkill⟩ := hagain h
          exact absurd (hpath.symm.trans hkill) (by simp)
      · have hpost : (kernelStep cfg s.world op).2.mode = .KILLED := by
          rw [mode_killed_iff, hlatch, hpath]
          simp [LatchPath.apply, KernelWorld.latch, hpre]
        refine iff_of_false (fun h => ?_) hpre
        have hperformed := (performed_of_enters hpre hpost).mp (h (Or.inl ⟨hpre, hpost⟩))
        rw [cancelAllRequested_of_bypasses hpath] at hperformed
        exact absurd hperformed.1 (by decide)
  | callsKill env trigger =>
      have henv : env.Calm := hcalm env (env?_of_callsKill hpath)
      by_cases hpre : s.world.mode = .KILLED
      · rw [performed_of_callsKill hpath hpre]
        constructor
        · exact fun h => ⟨fun hnot => absurd hpre hnot, fun hkills => h (Or.inr hkills)⟩
        · rintro ⟨-, h⟩ (henters | hkills)
          · exact absurd hpre henters.1
          · exact h hkills
      · have hpost : (kernelStep cfg s.world op).2.mode = .KILLED := by
          obtain ⟨v, hv, hfinal⟩ := kernelStep_callsKill hpath
          rw [hfinal]
          exact kill_mode cfg env trigger v
        have hnot : ∀ P : Prop,
            KillsAgain cfg ⟨s, op, (killedStep cfg s op).1, (killedStep cfg s op).2⟩ → P :=
          fun _ h => absurd h.1 hpre
        rw [performed_of_kill hpath henv hpre]
        constructor
        · exact fun h => ⟨fun _ => h (Or.inl ⟨hpre, hpost⟩), hnot _⟩
        · exact fun h _ => h.1 hpre

/-- **Over a run, every calm entry into `KILLED` and every calm `kill` on another's stay leave
nothing owed exactly when each of them is one the switch can serve.** -/
theorem killed_releases_iff (cfg : KernelConfig) (machine : ModeStateMachine)
    (ops : List KernelOp) :
    (∀ t ∈ trace (killedStep cfg) (KilledRun.fresh machine) ops, Releases cfg t) ↔
      ∀ t ∈ trace (killedStep cfg) (KilledRun.fresh machine) ops, ReleasesWhen cfg t :=
  trace_iff (I := fun _ => True) (fun _ _ _ => trivial)
    (fun s op _ => releases_iff_releasesWhen cfg s op) trivial ops

/-! ## The manual kill -/

/-- An approval, and then the manual kill. -/
def killedPastTheSwitch : List KernelOp :=
  [.ledger (.approve .quiet sampleIntent sampleContext), .fireDemotionTrigger .quiet .MANUAL_KILL]

/-- The manual kill requests nothing and releases nothing, and the `kill` after it finds the mode
already `KILLED` and does nothing either. -/
theorem manual_kill_owes :
    ¬ ∀ (cfg : KernelConfig) (machine : ModeStateMachine) (ops : List KernelOp),
      ∀ t ∈ trace (killedStep cfg) (KilledRun.fresh machine) ops, Releases cfg t := by
  intro hclaim
  let s := run (killedStep sampleConfig) (KilledRun.fresh sampleMachine) killedPastTheSwitch
  let after := (killedStep sampleConfig s (.kill .quiet .CLI)).2
  have hsince : s.since = some ⟨none, ["intent-0001"], false⟩ := by decide +kernel
  have hafter : after.since = some ⟨none, ["intent-0001"], false⟩ := by decide +kernel
  have hmode : s.world.mode = .KILLED := by decide +kernel
  have hcalm : KernelOp.Calm (.kill .quiet .CLI) := by
    rintro env ⟨⟩
    exact KernelEnv.calm_quiet
  have hagain : KillsAgain sampleConfig (transition (killedStep sampleConfig) s (.kill .quiet .CLI)) := by
    refine ⟨hmode, .quiet, .CLI, rfl, fun k hk => ?_⟩
    cases hsince.symm.trans hk
    exact nofun
  have hperformed : Performed after :=
    hclaim sampleConfig sampleMachine (killedPastTheSwitch ++ [.kill .quiet .CLI])
      (transition (killedStep sampleConfig) s (.kill .quiet .CLI))
      (mem_trace.mpr ⟨killedPastTheSwitch, [], rfl, rfl⟩) hcalm (Or.inr hagain)
  exact absurd (hperformed _ hafter).1 (by decide)

end Windbreak
