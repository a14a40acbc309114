import Windbreak.RiskKernel.ModeMoves

/-!
# Mode safety

Along every run of calls, from a fresh kernel or from a replayed one: the mode stays at or below
the effective ceiling, climbs one rung at a time and only through a gate whose criteria passed, is
never `LIVE` once the override is in force, and leaves `KILLED` only by a re-arm.

**One call breaks it.**  The override lowers the effective ceiling to `LIVE_MICRO` and leaves the
mode alone, so an override accepted while the mode is `LIVE` leaves the kernel above its ceiling.
Nothing else does: `modeSafety_iff` says that a run that starts within its ceiling is safe exactly
when no override is accepted in `LIVE`.

* **`Lawful`** — what every transition satisfies, override or not.
* **`ModeSafe`** — what every state satisfies as long as no override is accepted in `LIVE`.
-/

namespace Windbreak

open Machine Effects

/-! ## The property -/

/-- A mode at or below a ceiling on the ladder; the safety modes are below every ceiling. -/
def Mode.atMost (mode ceiling : Mode) : Prop :=
  ∀ rank, mode.ladderRank = some rank →
    ∃ cap, ceiling.ladderRank = some cap ∧ rank ≤ cap

/-- **A safe mode**: at or below the effective ceiling, and not `LIVE` under an override. -/
structure ModeSafe (w : KernelWorld) : Prop where
  within : w.mode.atMost w.modeCeilingEffective
  capped : w.overrideApplied = true → w.mode ≠ .LIVE

/-- A promotion request whose gate is the gate out of the mode, every criterion of which passed or
is one that an applied override may rescue. -/
def PassesGate (w : KernelWorld) (op : KernelOp) : Prop :=
  ∃ env read evidence gate, op = .requestPromotion env read evidence ∧
    gateFor w.mode read = .ok gate ∧
    ∀ criterion ∈ gate.criteria, (evaluateCriterion criterion evidence).passed = true ∨
      (criterion.overridable = true ∧ w.overrideApplied = true)

/-- **A lawful transition**: the rank rises by one rung only, through a gate; no call lands on the
ladder from off it (a re-arm passes through `RESEARCH` on its way to `PAUSED`); and only a re-arm
takes the mode out of `KILLED`. -/
structure Lawful (cfg : KernelConfig) (t : Transition KernelWorld KernelCall (Option KernelError)) :
    Prop where
  rises : ∀ rank rank', t.pre.mode.ladderRank = some rank → t.post.mode.ladderRank = some rank' →
    rank < rank' → rank' = rank + 1 ∧ PassesGate t.pre t.input.1
  staysOff : t.pre.mode ∈ Mode.safetyModes → t.post.mode ∈ Mode.safetyModes
  leavesKilled : t.pre.mode = .KILLED → t.post.mode ≠ .KILLED →
    ∃ env, latchPath cfg t.pre t.input.1 = .rearms env

/-- An override accepted and recorded while the mode is `LIVE`. -/
def OverridesLive (t : Transition KernelWorld KernelCall (Option KernelError)) : Prop :=
  ∃ env, t.input.1 = .applyOverride env significanceOverrideAckPhrase ∧
    env.recordRaises overrideEvent = false ∧ t.pre.mode = .LIVE

/-- A start whose machine stands at or below its own ceiling, and not in `LIVE` if an override was
replayed. -/
def StartsWithin (w : KernelWorld) : Prop :=
  w.machine.exceedsCeiling w.mode = false ∧ (w.overrideApplied = true → w.mode ≠ .LIVE)

/-! ## The ladder -/

namespace Mode

theorem nextRung_rank {m target : Mode} (h : m.nextRung = some target) :
    ∃ rank, m.ladderRank = some rank ∧ target.ladderRank = some (rank + 1) := by
  cases m <;> cases target <;> simp [nextRung, ladderRank, promotionLadder] at h ⊢

theorem prevRung_rank {m target : Mode} (h : m.prevRung = some target) :
    ∃ rank, m.ladderRank = some (rank + 1) ∧ target.ladderRank = some rank := by
  cases m <;> cases target <;> simp [prevRung, ladderRank, promotionLadder] at h ⊢

theorem ladderRank_of_safety {m : Mode} (h : m ∈ safetyModes) : m.ladderRank = none := by
  cases m <;> simp [safetyModes, ladderRank] at h ⊢

theorem atMost_of_safety {m ceiling : Mode} (h : m ∈ safetyModes) : m.atMost ceiling := by
  intro rank hrank
  rw [ladderRank_of_safety h] at hrank
  cases hrank

/-- One rung down stays at or below the ceiling. -/
theorem atMost_prevRung {m target ceiling : Mode} (hm : m.atMost ceiling)
    (h : m.prevRung = some target) : target.atMost ceiling := by
  obtain ⟨below, hrank, htarget⟩ := prevRung_rank h
  intro rank hsame
  obtain ⟨cap, hcap, hle⟩ := hm _ hrank
  rw [htarget] at hsame
  cases hsame
  exact ⟨cap, hcap, by omega⟩

end Mode

/-- A promotion ends at or below the ceiling it was asked to honour. -/
theorem promoteOneRung_atMost {m m' : ModeStateMachine} {ceiling : Mode}
    (h : m.promoteOneRung ceiling = .ok m') : m'.mode.atMost ceiling := by
  intro rank hrank
  obtain ⟨target, hnext, rfl⟩ := ModeStateMachine.promoteOneRung_ok h
  rw [ModeStateMachine.withMode_mode] at hrank
  unfold ModeStateMachine.promoteOneRung at h
  simp only [hnext] at h
  split_ifs at h
  cases hcap : ceiling.ladderRank with
  | none => simp [hcap] at h
  | some cap =>
      simp only [hcap, hrank, Option.any_some, decide_eq_true_eq] at h
      split_ifs at h with habove
      exact ⟨cap, rfl, not_lt.mp habove⟩

/-! ## The effective ceiling -/

theorem atMost_effective {machine : ModeStateMachine} {overrideApplied : Bool} {mode : Mode} :
    mode.atMost (effectiveModeCeiling machine.modeCeiling overrideApplied) ↔
      machine.exceedsCeiling mode = false ∧ (overrideApplied = true → mode ≠ .LIVE) := by
  obtain ⟨ceiling, current, rank, hrank⟩ := machine
  cases ceiling <;> cases mode <;> cases overrideApplied <;>
    simp [Mode.ladderRank] at hrank <;> subst hrank <;>
    simp [Mode.atMost, effectiveModeCeiling, overrideCeiling, ModeStateMachine.exceedsCeiling,
      Mode.ladderRank]

/-- **A safe mode is a start within its ceiling**, whatever the history behind it. -/
theorem modeSafe_iff_startsWithin (w : KernelWorld) : ModeSafe w ↔ StartsWithin w := by
  constructor
  · intro h
    exact atMost_effective.mp h.within
  · intro h
    exact ⟨atMost_effective.mpr h, h.2⟩

/-! ## Where runs start -/

/-! ## One transition -/

/-- Criteria that share an id are overridable together, in every gate. -/
theorem gateFor_overridable {current : Mode} {read : GatePlanRead} {gate : PromotionGate}
    (hgate : gateFor current read = .ok gate) {criterion : GateCriterion}
    (hmem : criterion ∈ gate.criteria)
    (hid : criterion.criterionId ∈ (gate.criteria.filter (·.overridable)).map (·.criterionId)) :
    criterion.overridable = true := by
  cases current with
  | RESEARCH =>
      cases hgate
      simp [researchToPaperGate] at hid
  | PAPER =>
      cases read with
      | registered plan =>
          cases hgate
          simp only [paperGateFromThresholds, List.mem_cons, List.not_mem_nil, or_false] at hmem
          rcases hmem with rfl | rfl | rfl | rfl | rfl | rfl | rfl | rfl | rfl | rfl <;>
            simp [paperGateFromThresholds] at hid ⊢
      | _ => cases hgate
  | LIVE_MICRO =>
      cases hgate
      simp [liveMicroToLiveGate] at hid
  | _ => cases hgate

/-- **A gate that lets evidence through** failed on nothing but what an applied override rescues. -/
theorem passed_of_clears {current : Mode} {read : GatePlanRead} {gate : PromotionGate}
    {evidence : GateEvidence} {overrideApplied : Bool}
    (hgate : gateFor current read = .ok gate)
    (hclears : clears gate evidence overrideApplied = true) {criterion : GateCriterion}
    (hmem : criterion ∈ gate.criteria) :
    (evaluateCriterion criterion evidence).passed = true ∨
      (criterion.overridable = true ∧ overrideApplied = true) := by
  have hresult : evaluateCriterion criterion evidence ∈ (evaluatePromotion gate evidence).results :=
    List.mem_map_of_mem hmem
  rw [clears, Bool.or_eq_true] at hclears
  rcases hclears with happroved | hrescued
  · have hall : ∀ result ∈ (evaluatePromotion gate evidence).results, result.passed = true := by
      simpa [evaluatePromotion] using happroved
    exact Or.inl (hall _ hresult)
  · simp only [overridePromotes, Bool.and_eq_true, List.all_eq_true, List.mem_filter,
      decide_eq_true_eq] at hrescued
    by_cases hpassed : (evaluateCriterion criterion evidence).passed = true
    · exact Or.inl hpassed
    · have hid := hrescued.2 _ ⟨hresult, by simp [hpassed]⟩
      exact Or.inr ⟨gateFor_overridable hgate hmem hid, hrescued.1.1.1⟩

/-- No call but a re-arm takes the machine out of `KILLED`. -/
theorem rearms_of_leavesKilled {cfg : KernelConfig} {w : KernelWorld} {call : KernelCall}
    (hkilled : w.mode = .KILLED) (hleft : (callKernel cfg w call).2.mode ≠ .KILLED) :
    ∃ env, latchPath cfg w call.1 = .rearms env := by
  have hlatch : (callKernel cfg w call).2.latch = (latchPath cfg w call.1).apply w.latch :=
    kernelStep_latch cfg w call.1
  have hengaged : w.latch.killed = true := decide_eq_true hkilled
  have hreleased : (callKernel cfg w call).2.latch.killed = false := decide_eq_false hleft
  rw [hlatch] at hreleased
  cases hpath : latchPath cfg w call.1 with
  | untouched => simp [hpath, LatchPath.apply, hengaged] at hreleased
  | callsKill env trigger => simp [hpath, LatchPath.apply, hengaged] at hreleased
  | rearms env => exact ⟨env, rfl⟩
  | bypasses =>
      -- past the switch lie only the machine's own methods and the kill of a live kernel
      obtain ⟨op, hop⟩ := call
      cases latchPath_meets hpath (by simp) with
      | machineKill => exact absurd hop (by simp [KernelOp.isMachine])
      | machineRearm => exact absurd hop (by simp [KernelOp.isMachine])
      | manualKill env hmode => exact absurd hkilled hmode

/-- A rank that rises rises by one, through a gate that its criteria opened. -/
theorem ModeStep.rises {w w' : KernelWorld} {op : KernelOp} (h : ModeStep w w' op)
    {rank rank' : ℕ} (hpre : w.mode.ladderRank = some rank)
    (hpost : w'.mode.ladderRank = some rank') (hlt : rank < rank') :
    rank' = rank + 1 ∧ PassesGate w op := by
  cases h with
  | secured hsecured =>
      rcases hsecured.machine with hsame | ⟨target, htarget, hmoved⟩
      · rw [KernelWorld.mode, hsame, hpre] at hpost
        cases hpost
        omega
      · rw [KernelWorld.mode, hmoved, ModeStateMachine.withMode_mode,
          Mode.ladderRank_of_safety htarget] at hpost
        cases hpost
  | demoted hmove hoverride =>
      obtain ⟨target, hprev, hmoved⟩ := ModeStateMachine.demoteOneRung_ok hmove
      obtain ⟨below, habove, hbelow⟩ := Mode.prevRung_rank hprev
      rw [KernelWorld.mode, hmoved, ModeStateMachine.withMode_mode, hbelow] at hpost
      rw [KernelWorld.mode, habove] at hpre
      cases hpre
      cases hpost
      omega
  | promoted env read evidence hgate hclears hmove hoverride =>
      obtain ⟨target, hnext, hmoved⟩ := ModeStateMachine.promoteOneRung_ok hmove
      obtain ⟨below, hbelow, habove⟩ := Mode.nextRung_rank hnext
      rw [KernelWorld.mode, hmoved, ModeStateMachine.withMode_mode, habove] at hpost
      rw [KernelWorld.mode, hbelow] at hpre
      cases hpre
      cases hpost
      exact ⟨rfl, env, read, evidence, _, rfl, hgate,
        fun _ hmem => passed_of_clears hgate hclears hmem⟩
  | capped env hrecorded hmachine hoverride =>
      rw [KernelWorld.mode, hmachine, hpre] at hpost
      cases hpost
      omega

/-- From off the ladder no call lands on it. -/
theorem ModeStep.staysOff {w w' : KernelWorld} {op : KernelOp} (h : ModeStep w w' op)
    (hpre : w.mode ∈ Mode.safetyModes) : w'.mode ∈ Mode.safetyModes := by
  have hrank : w.machine.mode.ladderRank = none := Mode.ladderRank_of_safety hpre
  cases h with
  | secured hsecured =>
      rcases hsecured.machine with hsame | ⟨target, htarget, hmoved⟩
      · rw [KernelWorld.mode, hsame]
        exact hpre
      · rw [KernelWorld.mode, hmoved]
        exact htarget
  | demoted hmove hoverride =>
      obtain ⟨target, hprev, -⟩ := ModeStateMachine.demoteOneRung_ok hmove
      obtain ⟨below, habove, -⟩ := Mode.prevRung_rank hprev
      rw [hrank] at habove
      cases habove
  | promoted env read evidence hgate hclears hmove hoverride =>
      obtain ⟨target, hnext, -⟩ := ModeStateMachine.promoteOneRung_ok hmove
      obtain ⟨below, hbelow, -⟩ := Mode.nextRung_rank hnext
      rw [hrank] at hbelow
      cases hbelow
  | capped env hrecorded hmachine hoverride =>
      rw [KernelWorld.mode, hmachine]
      exact hpre

/-- **Every transition is lawful**, whatever the state it starts in. -/
theorem lawful_transition (cfg : KernelConfig) (w : KernelWorld) (call : KernelCall) :
    Lawful cfg (transition (callKernel cfg) w call) :=
  ⟨fun _ _ hpre hpost hlt => (kernelStep_moves cfg w call).rises hpre hpost hlt,
    fun hpre => (kernelStep_moves cfg w call).staysOff hpre, rearms_of_leavesKilled⟩

/-! ## The ceiling over a run -/

/-- A safe mode stays safe when nothing but the mode changes, to one at or below the ceiling. -/
theorem ModeSafe.move {w w' : KernelWorld} (hmode : w'.mode.atMost w.modeCeilingEffective)
    (hceiling : w'.machine.modeCeiling = w.machine.modeCeiling)
    (hoverride : w'.overrideApplied = w.overrideApplied) : ModeSafe w' := by
  have hwithin : w'.mode.atMost w'.modeCeilingEffective := by
    rw [KernelWorld.modeCeilingEffective, hceiling, hoverride]
    exact hmode
  exact ⟨hwithin, (atMost_effective.mp hwithin).2⟩

/-- **One call keeps the mode safe** unless it accepts an override in `LIVE`. -/
theorem ModeSafe.step {w w' : KernelWorld} {op : KernelOp} (hsafe : ModeSafe w)
    (h : ModeStep w w' op)
    (hop : ∀ env, op = .applyOverride env significanceOverrideAckPhrase →
      env.recordRaises overrideEvent = false → w.mode ≠ .LIVE) : ModeSafe w' := by
  cases h with
  | secured hsecured =>
      rcases hsecured.machine with hsame | ⟨target, htarget, hmoved⟩
      · refine ModeSafe.move ?_ (congrArg _ hsame) hsecured.overrideApplied
        rw [KernelWorld.mode, hsame]
        exact hsafe.within
      · refine ModeSafe.move ?_ (by rw [hmoved]; rfl) hsecured.overrideApplied
        rw [KernelWorld.mode, hmoved]
        exact Mode.atMost_of_safety htarget
  | demoted hmove hoverride =>
      obtain ⟨target, hprev, hmoved⟩ := ModeStateMachine.demoteOneRung_ok hmove
      refine ModeSafe.move ?_ (by rw [hmoved]; rfl) hoverride
      rw [KernelWorld.mode, hmoved]
      exact Mode.atMost_prevRung hsafe.within hprev
  | promoted env read evidence hgate hclears hmove hoverride =>
      obtain ⟨target, -, hmoved⟩ := ModeStateMachine.promoteOneRung_ok hmove
      exact ModeSafe.move (promoteOneRung_atMost hmove) (by rw [hmoved]; rfl) hoverride
  | capped env hrecorded hmachine hoverride =>
      have hlive : w.mode ≠ .LIVE := hop env rfl hrecorded
      refine (modeSafe_iff_startsWithin w').mpr ?_
      rw [StartsWithin, KernelWorld.mode, hmachine]
      exact ⟨((modeSafe_iff_startsWithin w).mp hsafe).1, fun _ => hlive⟩

/-- An accepted override is in force, and leaves the mode where it was. -/
theorem applyOverride_accepted (cfg : KernelConfig) {env : KernelEnv} (w : KernelWorld)
    (h : env.recordRaises overrideEvent = false) :
    (kernelStep cfg w (.applyOverride env significanceOverrideAckPhrase)).2.mode = w.mode ∧
      (kernelStep cfg w (.applyOverride env significanceOverrideAckPhrase)).2.overrideApplied =
        true := by
  have hraises : ¬ env.recordRaises (significanceOverrideAppliedEvent significanceOverrideAckPhrase
      overrideCeiling.name) = true := by simpa [overrideEvent] using h
  rw [kernelStep, settle_snd, applyLedgeredOverride, if_neg (not_not.mpr rfl), record_bind_run,
    if_neg hraises]
  exact ⟨rfl, rfl⟩

theorem modeSafe_step_iff (cfg : KernelConfig) {w : KernelWorld} (call : KernelCall)
    (hsafe : ModeSafe w) :
    ModeSafe (callKernel cfg w call).2 ↔ ¬ OverridesLive (transition (callKernel cfg) w call) := by
  constructor
  · rintro hpost ⟨env, hcall, hrecorded, hlive⟩
    change call.1 = _ at hcall
    change w.mode = .LIVE at hlive
    obtain ⟨hmode, hoverride⟩ := applyOverride_accepted cfg w hrecorded
    rw [← hcall] at hmode hoverride
    exact hpost.capped hoverride (hmode.trans hlive)
  · intro hnot
    refine hsafe.step (kernelStep_moves cfg w call) fun env hcall hrecorded hlive => ?_
    exact hnot ⟨env, hcall, hrecorded, hlive⟩

/-- **Mode safety.**  A run is safe and lawful throughout exactly when it starts within its ceiling
and accepts no override in `LIVE`. -/
theorem modeSafety_iff (cfg : KernelConfig) (w : KernelWorld) (calls : List KernelCall) :
    (ModeSafe w ∧ ∀ t ∈ trace (callKernel cfg) w calls, Lawful cfg t ∧ ModeSafe t.post) ↔
      (StartsWithin w ∧ ∀ t ∈ trace (callKernel cfg) w calls, ¬ OverridesLive t) := by
  have hkept : ModeSafe w → ((∀ t ∈ trace (callKernel cfg) w calls, ModeSafe t.post) ↔
      ∀ t ∈ trace (callKernel cfg) w calls, ¬ OverridesLive t) := fun hsafe =>
    trace_kept_iff (I := fun _ => True) (B := ModeSafe) (fun _ _ _ => trivial)
      (fun _ call _ hB => modeSafe_step_iff cfg call hB) trivial hsafe calls
  have hlawful : ∀ t ∈ trace (callKernel cfg) w calls, Lawful cfg t :=
    trace_forall (I := fun _ => True) (fun _ _ _ => trivial)
      (fun v call _ => lawful_transition cfg v call) trivial calls
  rw [← modeSafe_iff_startsWithin]
  refine and_congr_right fun hsafe => ?_
  rw [← hkept hsafe]
  exact ⟨fun h t ht => (h t ht).2, fun h t ht => ⟨hlawful t ht, h t ht⟩⟩

/-! ## The override in `LIVE` -/

/-- Evidence that every gate lets through. -/
def readyEvidence : GateEvidence where
  forecastCount := 50
  adversarialSuiteGreen := true
  daysWithoutUnhandledErrors := 14
  ledgerRebuildVerified := true
  resolvedRealtimeForecastCount := 100
  independentEventGroupCount := 30
  brierSkillPpm := 10000
  brierSkillCiLowerPpm := 1
  brierSkillCiUpperPpm := 20000
  paperPnlNetMicroUsd := 1
  paperWindowDays := 90
  calibrationSlopePpm := 1000000
  liveMicroDays := 60
  operatorConfirmation := true

/-- A promotion request on that evidence. -/
def climb : KernelCall :=
  ⟨.requestPromotion .quiet (.registered ⟨100, 30, 10000⟩) readyEvidence, rfl⟩

/-- The override, typed exactly. -/
def typeOverride : KernelCall := ⟨.applyOverride .quiet significanceOverrideAckPhrase, rfl⟩

/-- A fresh kernel on the lowest rung, under the highest ceiling. -/
def lowestRung : KernelWorld := KernelWorld.fresh ⟨.LIVE, .RESEARCH, 3, Mode.ladderRank_live⟩

/-- A fresh kernel climbs all the way to `LIVE`; an override after that leaves it there. -/
theorem override_in_live_exceeds :
    ¬ ∀ calls, ∀ t ∈ trace (callKernel sampleConfig) lowestRung calls, ModeSafe t.post := by
  intro hclaim
  have hmem : transition (callKernel sampleConfig)
        (run (callKernel sampleConfig) lowestRung [climb, climb, climb]) typeOverride ∈
      trace (callKernel sampleConfig) lowestRung [climb, climb, climb, typeOverride] :=
    mem_trace.mpr ⟨[climb, climb, climb], [], rfl, rfl⟩
  exact (hclaim _ _ hmem).capped rfl rfl

end Windbreak
