import Windbreak.RiskKernel.GovernanceReplay

/-!
# When the floor falls

A life of the object: operations, and rebuilds from what was recorded.

* **`Governed`** — the floor falls only by a confirmation, after its cool-off, of a request that was
  made before and not confirmed since; and what is rejected changes nothing.
* **`falls_governed`** — every life is governed in which no rebuild finds a lower floor on record and
  no collaborator raises within a confirmation.
-/

namespace Windbreak

open Machine Effects

/-! ## Lives -/

/-- An operation, or a rebuild from the log. -/
inductive GovernanceLife where
  | call (i : GovernanceInput)
  | rebuild

def lifeStep (cfg : GovernanceConfig) (w : GovernanceWorld) :
    GovernanceLife → Option GovernanceError × GovernanceWorld
  | .call i => governanceStep cfg w i
  | .rebuild =>
    match fromEvents w.log with
    | .ok g => (none, w.withGovernance g)
    | .error e => (some e, w)

abbrev LifeTransition := Machine.Transition GovernanceWorld GovernanceLife (Option GovernanceError)

/-! ## The law -/

/-- A confirmation that passes its checks. -/
def Confirms (t : LifeTransition) : Prop :=
  ∃ env nonce pending, t.input = .call ⟨env, .confirmLower nonce⟩ ∧
    t.pre.governance.pending = some pending ∧ Confirmable env nonce pending

/-- **A lawful fall**: the transition confirms a request of the life before it by its nonce, at least
the cool-off after it, with no confirmation in between; the floor is the one requested, and the mode is
below the live rungs. -/
def LawfulFall (cfg : GovernanceConfig) (start : GovernanceWorld) (before : List GovernanceLife)
    (t : LifeTransition) : Prop :=
  ∃ earlier between env target env',
    before = earlier ++ .call ⟨env, .requestLower target .CLI⟩ :: between ∧
      (run (lifeStep cfg) start earlier).governance.pending = none ∧
        (∀ u ∈ trace (lifeStep cfg) (run (lifeStep cfg) start
            (earlier ++ [.call ⟨env, .requestLower target .CLI⟩])) between, ¬ Confirms u) ∧
          t.input = .call ⟨env', .confirmLower env.freshNonce⟩ ∧
            env.clock + cfg.coolOffSeconds ≤ env'.clock ∧ t.post.governance.floor = target ∧
              t.post.machine.mode ∉ liveModes

/-- The errors that reject an operation, as opposed to those of a collaborator. -/
def Rejects (e : GovernanceError) : Prop := e.kind ∉ [.writer, .dispatcher]

/-- **A transition is governed.** -/
structure Governed (cfg : GovernanceConfig) (start : GovernanceWorld) (before : List GovernanceLife)
    (t : LifeTransition) : Prop where
  falls : t.post.governance.floor < t.pre.governance.floor → LawfulFall cfg start before t
  rejected : ∀ e, t.output = some e → Rejects e → t.post.governance = t.pre.governance

/-! ## One operation -/

/-- The errors that collaborators raise. -/
theorem not_rejects_writer : ¬ Rejects writerError := fun h => h (by decide)

theorem not_rejects_dispatcher : ¬ Rejects dispatcherError := fun h => h (by decide)

/-- A collaborator raises within a confirmation. -/
def ConfirmationFault (w : GovernanceWorld) (env : GovernanceEnv) (pending : PendingFloorLower) :
    Prop :=
  env.dispatchRaises .FLOOR_CHANGE_REQUEST ∨ env.recordRaises (confirmedEvent w pending)

/-- **What an operation does** to the floor and to the pending lowering. -/
structure GovernedStep (cfg : GovernanceConfig) (w : GovernanceWorld) (i : GovernanceInput) : Prop where
  /-- The floor falls by a confirmation that passes its checks only. -/
  falls : (governanceStep cfg w i).2.governance.floor < w.governance.floor →
    ∃ nonce pending, i.op = .confirmLower nonce ∧ w.governance.pending = some pending ∧
      Confirmable i.env nonce pending ∧
        (governanceStep cfg w i).2.governance.floor = pending.targetFloorMicros ∧
          (governanceStep cfg w i).2.machine.mode ∉ liveModes
  /-- A lowering that is pending after was pending before, or is the one requested. -/
  pending : ∀ pending, (governanceStep cfg w i).2.governance.pending = some pending →
    w.governance.pending = some pending ∨ ∃ target, i.op = .requestLower target .CLI ∧
      w.governance.pending = none ∧ pending = newPending cfg i.env target
  /-- A confirmation without a fault leaves none. -/
  confirmed : ∀ nonce pending, i.op = .confirmLower nonce → w.governance.pending = some pending →
    Confirmable i.env nonce pending → ¬ ConfirmationFault w i.env pending →
      (governanceStep cfg w i).2.governance.pending = none
  rejected : ∀ e, (governanceStep cfg w i).1 = some e → Rejects e →
    (governanceStep cfg w i).2.governance = w.governance

/-- The floor does not fall, and the pending lowering stays. -/
def Rises (w w' : GovernanceWorld) : Prop :=
  w.governance.floor.value ≤ w'.governance.floor.value ∧
    w'.governance.pending = w.governance.pending

instance risesPreorder : IsPreorder GovernanceWorld Rises where
  refl _ := ⟨le_refl _, rfl⟩
  trans _ _ _ h h' := ⟨h.1.trans h'.1, h'.2.trans h.2⟩

section

variable {cfg : GovernanceConfig} {w : GovernanceWorld}

/-- An operation other than a confirmation that lets the floor and the pending lowering be. -/
theorem GovernedStep.of_rises {i : GovernanceInput} (hop : ∀ nonce, i.op ≠ .confirmLower nonce)
    (h : Rises w (governanceStep cfg w i).2)
    (hrejected : ∀ e, (governanceStep cfg w i).1 = some e → Rejects e →
      (governanceStep cfg w i).2.governance = w.governance) : GovernedStep cfg w i where
  falls hfalls := absurd h.1 (not_le.mpr hfalls)
  pending _ hpending := .inl (h.2.symm.trans hpending)
  confirmed nonce _ hconfirm := absurd hconfirm (hop nonce)
  rejected := hrejected

theorem raiseFloor_governed (env : GovernanceEnv) (newFloor : MoneyMicros) (origin : ChangeOrigin) :
    GovernedStep cfg w ⟨env, .raiseFloor newFloor origin⟩ := by
  have hstep : governanceStep cfg w ⟨env, .raiseFloor newFloor origin⟩ =
      settle ((raiseFloor env newFloor origin).run w) := rfl
  rw [raiseFloor_run] at hstep
  by_cases hle : newFloor ≤ w.governance.floor
  · rw [if_pos hle] at hstep
    refine .of_rises (fun nonce h => by cases h) ?_ fun e _ _ => ?_
    · rw [hstep]
      exact ⟨le_refl _, rfl⟩
    · rw [hstep]
      rfl
  · rw [if_neg hle] at hstep
    have hlt : w.governance.floor.value ≤ newFloor.value := (Int.not_le.mp hle).le
    by_cases hraises : env.recordRaises (floorRaisedEvent w.governance.floor newFloor origin)
    · rw [if_pos hraises] at hstep
      refine .of_rises (fun nonce h => by cases h) ?_ fun e he hrejects => ?_
      · rw [hstep]
        exact ⟨hlt, rfl⟩
      · rw [hstep] at he
        cases he
        exact absurd hrejects not_rejects_writer
    · rw [if_neg hraises] at hstep
      refine .of_rises (fun nonce h => by cases h) ?_ fun e he hrejects => ?_
      · rw [hstep]
        exact ⟨hlt, rfl⟩
      · rw [hstep] at he
        cases he

theorem requestLower_governed (env : GovernanceEnv) (newFloor : MoneyMicros) (origin : ChangeOrigin) :
    GovernedStep cfg w ⟨env, .requestLower newFloor origin⟩ := by
  have hstep : governanceStep cfg w ⟨env, .requestLower newFloor origin⟩ =
      settle ((requestLower cfg env newFloor origin).run w) := rfl
  rw [requestLower_run] at hstep
  by_cases horigin : origin ≠ .CLI
  · rw [if_pos horigin] at hstep
    by_cases hraises : env.recordRaises (originRefusal newFloor origin)
    · rw [if_pos hraises] at hstep
      refine .of_rises (fun nonce h => by cases h) ?_ fun e he hrejects => ?_
      · rw [hstep]
        exact ⟨le_refl _, rfl⟩
      · rw [hstep]
        rfl
    · rw [if_neg hraises] at hstep
      refine .of_rises (fun nonce h => by cases h) ?_ fun e he hrejects => ?_
      · rw [hstep]
        exact ⟨le_refl _, rfl⟩
      · rw [hstep]
        rfl
  · rw [if_neg horigin] at hstep
    by_cases hpending : w.governance.pending.isSome
    · rw [if_pos hpending] at hstep
      refine .of_rises (fun nonce h => by cases h) ?_ fun e he hrejects => ?_
      · rw [hstep]
        exact ⟨le_refl _, rfl⟩
      · rw [hstep]
        rfl
    · rw [if_neg hpending] at hstep
      dsimp only at hstep
      have hnone := Option.not_isSome_iff_eq_none.mp hpending
      obtain ⟨hfloor, hissued, hrejected⟩ :
          (governanceStep cfg w ⟨env, .requestLower newFloor origin⟩).2.governance.floor =
              w.governance.floor ∧
            (governanceStep cfg w ⟨env, .requestLower newFloor origin⟩).2.governance.pending =
                some (newPending cfg env newFloor) ∧
              ∀ e, (governanceStep cfg w ⟨env, .requestLower newFloor origin⟩).1 = some e →
                ¬ Rejects e := by
        by_cases hraises : env.recordRaises
            (floorLowerRequestedEvent (newPending cfg env newFloor) env.clock origin)
        · rw [hstep, if_pos hraises]
          refine ⟨rfl, rfl, fun e he => ?_⟩
          cases he
          exact not_rejects_writer
        · rw [hstep, if_neg hraises]
          by_cases hdispatch : env.dispatchRaises .FLOOR_CHANGE_REQUEST
          · rw [if_pos hdispatch]
            refine ⟨rfl, rfl, fun e he => ?_⟩
            cases he
            exact not_rejects_dispatcher
          · rw [if_neg hdispatch]
            exact ⟨rfl, rfl, fun e he => by cases he⟩
      refine ⟨fun hfalls => ?_, fun pending hafter => .inr ⟨newFloor, ?_, hnone, ?_⟩,
        fun nonce _ hconfirm => absurd hconfirm (by simp), fun e he hrejects => absurd hrejects (hrejected e he)⟩
      · rw [hfloor] at hfalls
        exact absurd hfalls (Int.lt_irrefl _)
      · rw [not_not.mp horigin]
      · exact Option.some.inj (hafter.symm.trans hissued)

/-- What a confirmation comes to that does not pass its checks. -/
theorem confirmLower_refused {env : GovernanceEnv} {nonce : String}
    (h : ∀ pending, w.governance.pending = some pending → ¬ Confirmable env nonce pending) :
    ∃ e w', (confirmLower env nonce).run w = .error e w' ∧ w'.governance = w.governance := by
  rw [confirmLower_run]
  cases hpending : w.governance.pending with
  | none => exact ⟨_, _, rfl, rfl⟩
  | some pending =>
      have hnot := h pending hpending
      dsimp only
      rw [EStateM.run_bind, rejectUnlessConfirmable_run]
      by_cases hearly : env.clock < pending.readyAt
      · rw [if_pos hearly]
        by_cases hraises : env.recordRaises (coolOffRefusal pending)
        · rw [if_pos hraises]
          exact ⟨_, _, rfl, rfl⟩
        · rw [if_neg hraises]
          exact ⟨_, _, rfl, rfl⟩
      · rw [if_neg hearly]
        by_cases hascii : ¬ (comparable nonce ∧ comparable pending.nonce)
        · rw [if_pos hascii]
          exact ⟨_, _, rfl, rfl⟩
        · rw [if_neg hascii]
          by_cases hnonce : nonce ≠ pending.nonce
          · rw [if_pos hnonce]
            by_cases hraises : env.recordRaises nonceRefusal
            · rw [if_pos hraises]
              exact ⟨_, _, rfl, rfl⟩
            · rw [if_neg hraises]
              exact ⟨_, _, rfl, rfl⟩
          · exact absurd ⟨not_lt.mp hearly, not_not.mp hascii, not_not.mp hnonce⟩ hnot

/-- What a confirmation comes to that passes its checks, whatever raises in it. -/
theorem confirmLower_passes {env : GovernanceEnv} {nonce : String} {pending : PendingFloorLower}
    (hpending : w.governance.pending = some pending) (h : Confirmable env nonce pending) :
    ∃ w', finalState ((confirmLower env nonce).run w) = w' ∧
      w'.governance.floor = pending.targetFloorMicros ∧ w'.machine.mode = landing w.machine.mode ∧
        (w'.governance.pending = some pending ∨ w'.governance.pending = none) ∧
          (¬ ConfirmationFault w env pending → w'.governance.pending = none) ∧
            ∀ e, (settle ((confirmLower env nonce).run w)).1 = some e → ¬ Rejects e := by
  obtain ⟨hready, hascii, hnonce⟩ := h
  have hrun : (confirmLower env nonce).run w = (applyConfirmedLower env pending).run w := by
    rw [confirmLower_run, hpending]
    dsimp only
    rw [EStateM.run_bind, rejectUnlessConfirmable_run, if_neg (not_lt.mpr hready),
      if_neg (not_not.mpr hascii), if_neg (not_not.mpr hnonce)]
  rw [hrun, applyConfirmedLower_run]
  dsimp only
  by_cases hdispatch : env.dispatchRaises .FLOOR_CHANGE_REQUEST
  · rw [if_pos hdispatch]
    refine ⟨_, rfl, rfl, rfl, .inl hpending, fun hwhole => absurd (.inl hdispatch) hwhole,
      fun e he => ?_⟩
    cases he
    exact not_rejects_dispatcher
  · rw [if_neg hdispatch]
    by_cases hraises : env.recordRaises (confirmedEvent w pending)
    · rw [if_pos hraises]
      refine ⟨_, rfl, rfl, rfl, .inl hpending, fun hwhole => absurd (.inr hraises) hwhole,
        fun e he => ?_⟩
      cases he
      exact not_rejects_writer
    · rw [if_neg hraises]
      exact ⟨_, rfl, rfl, rfl, .inr rfl, fun _ => rfl, fun e he => by cases he⟩

theorem confirmLower_governed (env : GovernanceEnv) (nonce : String) :
    GovernedStep cfg w ⟨env, .confirmLower nonce⟩ := by
  have hstep : governanceStep cfg w ⟨env, .confirmLower nonce⟩ =
      settle ((confirmLower env nonce).run w) := rfl
  by_cases hpasses : ∃ pending, w.governance.pending = some pending ∧ Confirmable env nonce pending
  · obtain ⟨pending, hpending, hconfirmable⟩ := hpasses
    obtain ⟨w', hfinal, hfloor, hmode, hafter, hwhole, herror⟩ :=
      confirmLower_passes hpending hconfirmable
    have hsecond : (governanceStep cfg w ⟨env, .confirmLower nonce⟩).2 = w' := by
      rw [hstep, settle_snd, hfinal]
    refine ⟨fun _ => ⟨nonce, pending, rfl, hpending, hconfirmable, ?_, ?_⟩, fun other hother => ?_,
      fun n other hop hother _ hfault => ?_, fun e he hrejects => ?_⟩
    · rw [hsecond]
      exact hfloor
    · rw [hsecond, hmode]
      exact landing_not_live _
    · rw [hsecond] at hother
      rcases hafter with hsame | hnone
      · exact .inl (hpending.trans (hsame.symm.trans hother))
      · rw [hnone] at hother
        cases hother
    · have hsame : other = pending := Option.some.inj (hother.symm.trans hpending)
      rw [hsecond]
      exact hwhole (hsame ▸ hfault)
    · rw [hstep] at he
      exact absurd hrejects (herror e he)
  · have hnot : ∀ pending, w.governance.pending = some pending → ¬ Confirmable env nonce pending :=
      fun pending hpending hconfirmable => hpasses ⟨pending, hpending, hconfirmable⟩
    obtain ⟨e, w', hrun, hsame⟩ := confirmLower_refused hnot
    have hsecond : (governanceStep cfg w ⟨env, .confirmLower nonce⟩).2 = w' := by
      rw [hstep, hrun]
      rfl
    rw [← hsecond] at hsame
    refine ⟨fun hfalls => ?_, fun other hother => .inl ?_, fun n other hop hother hconfirmable => ?_,
      fun _ _ _ => hsame⟩
    · rw [hsame] at hfalls
      exact absurd hfalls (Int.lt_irrefl _)
    · rw [← hsame]
      exact hother
    · cases hop
      exact absurd ⟨other, hother, hconfirmable⟩ hpasses

theorem recordGovernance_rises (env : GovernanceEnv) (event : Event) :
    Moves Rises (recordGovernance env event) :=
  Moves.ite (fun _ => .throw _) fun _ => .modify fun _ => ⟨le_refl _, rfl⟩

theorem maybeAdviseProfitSweep_rises (env : GovernanceEnv) (gain : MoneyMicros) :
    Moves Rises (maybeAdviseProfitSweep cfg env gain) :=
  Moves.ite (fun _ => Moves.ite (fun _ => .throw _) fun _ => .modify fun _ => ⟨le_refl _, rfl⟩)
    fun _ => .pure ()

theorem maybeRatchet_rises (env : GovernanceEnv) (gain : MoneyMicros) :
    Moves Rises (maybeRatchet cfg env gain) := by
  intro v
  rw [maybeRatchet_run]
  by_cases hnone : ppmOf gain.value cfg.ratchetPpm ≤ 0
  · rw [if_pos hnone]
    exact ⟨le_refl _, rfl⟩
  · rw [if_neg hnone]
    have hrises : v.governance.floor.value ≤ (ratcheted cfg v.governance gain).value := by
      have hvalue : (ratcheted cfg v.governance gain).value =
          v.governance.floor.value + ppmOf gain.value cfg.ratchetPpm := rfl
      omega
    dsimp only
    by_cases hraises : env.recordRaises (ratchetEvent cfg v.governance gain)
    · rw [if_pos hraises]
      exact ⟨hrises, rfl⟩
    · rw [if_neg hraises]
      exact ⟨hrises, rfl⟩

/-- What an observation raises comes from a collaborator. -/
theorem observeEquity_error {env : GovernanceEnv} {equity : MoneyMicros} {e : GovernanceError}
    {w' : GovernanceWorld} (h : (observeEquity cfg env equity).run w = .error e w') : ¬ Rejects e := by
  rw [observeEquity_run] at h
  by_cases hle : equity ≤ w.governance.highWaterMark
  · rw [if_pos hle] at h
    cases h
  · rw [if_neg hle] at h
    rcases run_bind_error.mp h with hadvice | ⟨_, v, -, h⟩
    · rw [maybeAdviseProfitSweep_run] at hadvice
      split_ifs at hadvice
      cases hadvice
      exact not_rejects_dispatcher
    · rcases run_bind_error.mp h with hratchet | ⟨_, u, -, h⟩
      · rw [maybeRatchet_run] at hratchet
        dsimp only at hratchet
        split_ifs at hratchet
        cases hratchet
        exact not_rejects_writer
      · rcases run_bind_error.mp h with hrecord | ⟨_, t, -, hgovern⟩
        · unfold recordGovernance at hrecord
          split_ifs at hrecord
          · cases hrecord
            exact not_rejects_writer
          · cases hrecord
        · cases hgovern

theorem observeEquity_governed (env : GovernanceEnv) (equity : MoneyMicros) :
    GovernedStep cfg w ⟨env, .observeEquity equity⟩ := by
  have hrises : Rises w (finalState ((observeEquity cfg env equity).run w)) := by
    rw [observeEquity_run]
    by_cases hle : equity ≤ w.governance.highWaterMark
    · rw [if_pos hle]
      exact ⟨le_refl _, rfl⟩
    · rw [if_neg hle]
      refine Moves.bind (maybeAdviseProfitSweep_rises env _) (fun _ => ?_) w
      refine Moves.bind (maybeRatchet_rises env _) fun _ => ?_
      refine Moves.bind (recordGovernance_rises env _) fun _ => ?_
      exact .modify fun v => ⟨le_refl _, rfl⟩
  refine .of_rises (fun nonce h => by cases h) ?_ fun e he hrejects => ?_
  · change Rises w (settle ((observeEquity cfg env equity).run w)).2
    rw [settle_snd]
    exact hrises
  · change (settle ((observeEquity cfg env equity).run w)).1 = some e at he
    cases hrun : (observeEquity cfg env equity).run w with
    | ok a w' =>
        rw [hrun] at he
        cases he
    | error e' w' =>
        rw [hrun] at he
        cases he
        exact absurd hrejects (observeEquity_error hrun)

/-- **What an operation does** to the floor and to the pending lowering. -/
theorem governanceStep_governed (i : GovernanceInput) : GovernedStep cfg w i := by
  obtain ⟨env, op⟩ := i
  cases op with
  | raiseFloor newFloor origin => exact raiseFloor_governed env newFloor origin
  | requestLower newFloor origin => exact requestLower_governed env newFloor origin
  | confirmLower nonce => exact confirmLower_governed env nonce
  | observeEquity equity => exact observeEquity_governed env equity
  | modeMoves machine =>
      exact .of_rises (fun nonce h => by cases h) ⟨le_refl _, rfl⟩ fun _ _ _ => rfl

end

/-! ## Every life -/

/-- The lowering that is pending was requested in the life before, and not confirmed since. -/
def PendingSince (cfg : GovernanceConfig) (start : GovernanceWorld) (before : List GovernanceLife) :
    Prop :=
  ∀ pending, (run (lifeStep cfg) start before).governance.pending = some pending →
    ∃ earlier between env target,
      before = earlier ++ .call ⟨env, .requestLower target .CLI⟩ :: between ∧
        (run (lifeStep cfg) start earlier).governance.pending = none ∧
          pending = newPending cfg env target ∧
            ∀ u ∈ trace (lifeStep cfg) (run (lifeStep cfg) start
              (earlier ++ [.call ⟨env, .requestLower target .CLI⟩])) between, ¬ Confirms u

/-- The log replays, to no other pending lowering than the live one. -/
def ReplaysPending (w : GovernanceWorld) : Prop :=
  ∃ r, fromEvents w.log = .ok r ∧ (r.pending = none ∨ r.pending = w.governance.pending)

/-- The floor on record after an event. -/
def floorAfter (floor : MoneyMicros) (event : Event) : MoneyMicros :=
  if event.eventType ∈ floorEventTypes then
    match event.int? "new_floor_micros" with
    | some value => ⟨value⟩
    | none => floor
  else floor

/-- The floor on record: that of the last event that sets one, or zero. -/
def floorOnRecord (log : List Event) : MoneyMicros := log.foldl floorAfter ⟨0⟩

/-- **The two conditions**: a rebuild does not find a lower floor on record, and nothing raises within
a confirmation that passes its checks. -/
structure Meets (t : LifeTransition) : Prop where
  rebuilds : t.input = .rebuild → t.pre.governance.floor ≤ floorOnRecord t.pre.log
  confirms : ∀ env nonce pending, t.input = .call ⟨env, .confirmLower nonce⟩ →
    t.pre.governance.pending = some pending → Confirmable env nonce pending →
      ¬ ConfirmationFault t.pre env pending

section

variable {cfg : GovernanceConfig} {start : GovernanceWorld}

/-- An amount that is replayed stands in the payload. -/
theorem int?_of_replayedMoney {event : Event} {key : String} {money : MoneyMicros}
    (h : replayedMoney event key = .ok money) : event.int? key = some money.value := by
  unfold replayedMoney at h
  cases hvalue : event.int? key with
  | none =>
      rw [hvalue] at h
      cases h
  | some value =>
      rw [hvalue] at h
      cases h
      rfl

theorem floor_absorbReplayedEvent {g g' : FloorGovernance} {event : Event}
    (h : absorbReplayedEvent g event = .ok g') : g'.floor = floorAfter g.floor event := by
  unfold absorbReplayedEvent at h
  rw [floorAfter]
  split at h
  · next hset =>
      have hset' : event.eventType ∈ floorEventTypes :=
        List.mem_append_left ["FloorLowerConfirmed"] hset
      obtain ⟨money, hmoney, hg⟩ := Effects.except_bind_ok.mp h
      rw [if_pos hset', int?_of_replayedMoney hmoney, ← Except.ok.inj hg]
      rfl
  · next hset =>
      split at h
      · next hmark =>
          obtain ⟨money, -, hg⟩ := Effects.except_bind_ok.mp h
          rw [hmark, if_neg (by decide), ← Except.ok.inj hg]
          rfl
      · split at h
        · next hrequested =>
            obtain ⟨pending, -, hg⟩ := Effects.except_bind_ok.mp h
            rw [hrequested, if_neg (by decide), ← Except.ok.inj hg]
            rfl
        · split at h
          · next hconfirmed =>
              obtain ⟨money, hmoney, hg⟩ := Effects.except_bind_ok.mp h
              rw [hconfirmed, if_pos (by decide), int?_of_replayedMoney hmoney,
                ← Except.ok.inj hg]
              rfl
          · next hother =>
              cases h
              refine (if_neg fun hset' => ?_).symm
              rcases List.mem_append.mp
                (show _ ∈ ["FloorRaised", "FloorRatchetApplied"] ++ ["FloorLowerConfirmed"] from hset')
                with hin | hin
              · exact hset hin
              · exact hother (List.mem_singleton.mp hin)

/-- A rebuild finds the floor on record. -/
theorem floor_fromEvents {log : List Event} {g : FloorGovernance} (h : fromEvents log = .ok g) :
    g.floor = floorOnRecord log := by
  have hfold : ∀ (start : FloorGovernance), log.foldlM absorbReplayedEvent start = .ok g →
      g.floor = log.foldl floorAfter start.floor := by
    clear h
    induction log with
    | nil =>
        intro start h
        cases h
        rfl
    | cons event log ih =>
        intro start h
        obtain ⟨next, hnext, hrest⟩ := Effects.except_bind_ok.mp h
        rw [List.foldl_cons, ← floor_absorbReplayedEvent hnext]
        exact ih next hrest
  exact hfold _ h

/-- An operation keeps the log and the pending lowering in step. -/
theorem ReplaysPending.call {w : GovernanceWorld} (h : ReplaysPending w) (i : GovernanceInput) :
    ReplaysPending (governanceStep cfg w i).2 := by
  obtain ⟨r, hr, hpending⟩ := h
  obtain ⟨live, recorded, heffect⟩ := governanceStep_effect cfg w i
  obtain ⟨new, hlog, hnew, -⟩ := heffect.log
  have hlive : (governanceStep cfg w i).2.governance.pending =
      live.pending.getD w.governance.pending := congrArg FloorGovernance.pending heffect.governance
  refine ⟨recorded.apply r, by rw [hlog, fromEvents_append hr]; exact hnew r, ?_⟩
  change recorded.pending.getD r.pending = none ∨ recorded.pending.getD r.pending = _
  rw [hlive]
  rcases heffect.whole with hsame | hlost
  · rw [hsame]
    cases live.pending with
    | none => exact hpending
    | some after => exact .inr rfl
  · -- what the log misses is a request, and there was none before it
    have hkept := heffect.pending hlost
    rw [hlost]
    change r.pending = none ∨ r.pending = _
    rcases hkept with huntouched | hnone
    · rw [huntouched]
      exact hpending
    · rw [hnone, or_self] at hpending
      exact .inl hpending

theorem ReplaysPending.step {w : GovernanceWorld} (h : ReplaysPending w) (l : GovernanceLife) :
    ReplaysPending (lifeStep cfg w l).2 := by
  cases l with
  | call i => exact h.call i
  | rebuild =>
      obtain ⟨r, hr, -⟩ := h
      refine ⟨r, ?_, .inr ?_⟩
      · unfold lifeStep
        rw [hr]
        exact hr
      · unfold lifeStep
        rw [hr]
        rfl

/-- A step that leaves the pending lowering pending and confirms nothing keeps its request on record. -/
theorem PendingSince.kept {before : List GovernanceLife} (h : PendingSince cfg start before)
    {l : GovernanceLife}
    (hquiet : ∀ pending, (lifeStep cfg (run (lifeStep cfg) start before) l).2.governance.pending =
      some pending → ¬ Confirms (transition (lifeStep cfg) (run (lifeStep cfg) start before) l))
    {pending : PendingFloorLower}
    (hpre : (run (lifeStep cfg) start before).governance.pending = some pending)
    (hpost : (lifeStep cfg (run (lifeStep cfg) start before) l).2.governance.pending = some pending) :
    ∃ earlier between env target,
      before ++ [l] = earlier ++ .call ⟨env, .requestLower target .CLI⟩ :: between ∧
        (run (lifeStep cfg) start earlier).governance.pending = none ∧
          pending = newPending cfg env target ∧
            ∀ u ∈ trace (lifeStep cfg) (run (lifeStep cfg) start
              (earlier ++ [.call ⟨env, .requestLower target .CLI⟩])) between, ¬ Confirms u := by
  obtain ⟨earlier, between, env, target, hbefore, hnone, hsame, hunconfirmed⟩ := h pending hpre
  refine ⟨earlier, between ++ [l], env, target, by rw [hbefore]; simp, hnone, hsame, ?_⟩
  have hreached : run (lifeStep cfg) (run (lifeStep cfg) start
      (earlier ++ [.call ⟨env, .requestLower target .CLI⟩])) between =
        run (lifeStep cfg) start before := by
    rw [← run_append, hbefore, List.append_assoc]
    rfl
  intro u hu
  rw [trace_append, hreached] at hu
  rcases List.mem_append.mp hu with hearlier | hlast
  · exact hunconfirmed u hearlier
  · rw [List.mem_singleton.mp hlast]
    exact hquiet pending hpost

/-- Along a life that meets the conditions, what is pending was requested and is not yet confirmed. -/
theorem pendingSince_of_meets {initialFloor : MoneyMicros} {machine : ModeStateMachine}
    {before : List GovernanceLife}
    (h : ∀ t ∈ trace (lifeStep cfg) (.fresh initialFloor machine) before, Meets t) :
    PendingSince cfg (.fresh initialFloor machine) before := by
  induction before using List.reverseRecOn with
  | nil =>
      intro pending hpending
      cases hpending
  | append_singleton before l ih =>
      rw [trace_append] at h
      have hsince := ih fun t ht => h t (List.mem_append_left _ ht)
      set w := run (lifeStep cfg) (.fresh initialFloor machine) before with hw
      have hmeets : Meets (transition (lifeStep cfg) w l) :=
        h _ (List.mem_append_right _ (.head _))
      have hreplays : ReplaysPending w :=
        run_invariant (fun _ l hw => hw.step l) ⟨_, rfl, .inl rfl⟩ before
      -- a confirmation leaves nothing pending
      have hquiet : ∀ pending, (lifeStep cfg w l).2.governance.pending = some pending →
          ¬ Confirms (transition (lifeStep cfg) w l) := by
        rintro pending hpending ⟨env, nonce, other, hinput, hother, hconfirmable⟩
        have hcall : l = .call ⟨env, .confirmLower nonce⟩ := hinput
        have hnone : (lifeStep cfg w l).2.governance.pending = none := by
          rw [hcall]
          exact (governanceStep_governed _).confirmed nonce other rfl hother hconfirmable
            (hmeets.confirms env nonce other hinput hother hconfirmable)
        rw [hnone] at hpending
        cases hpending
      intro pending hpending
      rw [run_append] at hpending
      change (lifeStep cfg w l).2.governance.pending = some pending at hpending
      cases l with
      | call i =>
          rcases (governanceStep_governed i).pending pending hpending with hbefore | hrequest
          · exact hsince.kept hquiet hbefore hpending
          · obtain ⟨target, hop, hnone, hsame⟩ := hrequest
            refine ⟨before, [], i.env, target, ?_, hnone, hsame, fun u hu => absurd hu List.not_mem_nil⟩
            rw [← hop]
      | rebuild =>
          obtain ⟨r, hr, hrecorded⟩ := hreplays
          have hrebuilt : r.pending = some pending := by
            unfold lifeStep at hpending
            rw [hr] at hpending
            exact hpending
          have hbefore : w.governance.pending = some pending := by
            rcases hrecorded with hnone | hsame
            · rw [hnone] at hrebuilt
              cases hrebuilt
            · exact hsame.symm.trans hrebuilt
          exact hsince.kept hquiet hbefore hpending

/-- **When the floor falls**: a life is governed in which no rebuild finds a lower floor on record and
nothing raises within a confirmation. -/
theorem falls_governed (cfg : GovernanceConfig) (initialFloor : MoneyMicros)
    (machine : ModeStateMachine) (ops : List GovernanceLife)
    (h : ∀ t ∈ trace (lifeStep cfg) (.fresh initialFloor machine) ops, Meets t) :
    ∀ before l after, ops = before ++ l :: after →
      Governed cfg (.fresh initialFloor machine) before (transition (lifeStep cfg)
        (run (lifeStep cfg) (.fresh initialFloor machine) before) l) := by
  rintro before l after rfl
  rw [trace_append] at h
  have hsince := pendingSince_of_meets fun t ht => h t (List.mem_append_left _ ht)
  set w := run (lifeStep cfg) (.fresh initialFloor machine) before with hw
  have hmeets : Meets (transition (lifeStep cfg) w l) := h _ (List.mem_append_right _ (.head _))
  cases l with
  | call i =>
      refine ⟨fun hfalls => ?_, (governanceStep_governed i).rejected⟩
      obtain ⟨nonce, pending, hop, hpending, hconfirmable, hfloor, hmode⟩ :=
        (governanceStep_governed i).falls hfalls
      obtain ⟨earlier, between, env, target, hbefore, hnone, hsame, hunconfirmed⟩ :=
        hsince pending hpending
      obtain ⟨hready, -, hnonce⟩ := hconfirmable
      rw [hsame] at hready hnonce hfloor
      refine ⟨earlier, between, env, target, i.env, hbefore, hnone, hunconfirmed, ?_, hready, hfloor,
        hmode⟩
      change GovernanceLife.call i = _
      rw [show nonce = env.freshNonce from hnonce] at hop
      rw [← hop]
  | rebuild =>
      have hreplays : ReplaysPending w :=
        run_invariant (fun _ l hw => hw.step l) ⟨_, rfl, .inl rfl⟩ before
      obtain ⟨r, hr, -⟩ := hreplays
      have hpost : transition (lifeStep cfg) w .rebuild = ⟨w, .rebuild, none, w.withGovernance r⟩ := by
        unfold transition lifeStep
        rw [hr]
      have hrises : w.governance.floor ≤ r.floor := by
        rw [floor_fromEvents hr]
        exact hmeets.rebuilds rfl
      rw [hpost]
      exact ⟨fun hfalls => absurd hfalls (Int.not_lt.mpr hrises), fun e he => by cases he⟩

end

/-- Where no rebuild occurs and nothing raises, a life meets the conditions. -/
theorem meets_of_quiet {t : LifeTransition} {clock : ℤ} {nonce : String} {op : GovernanceOp}
    (h : t.input = .call ⟨quietGovernance clock nonce, op⟩) : Meets t where
  rebuilds hrebuild := by
    rw [h] at hrebuild
    cases hrebuild
  confirms env other pending hconfirm _ _ := by
    rw [h] at hconfirm
    cases hconfirm
    rintro (hraises | hraises)
    · cases hraises
    · cases hraises

/-- A request, and its confirmation when it has cooled off. -/
def cooledOff : List GovernanceLife :=
  [.call ⟨quietGovernance 0 "4f", .requestLower ⟨3000000⟩ .CLI⟩,
    .call ⟨quietGovernance 172800 "", .confirmLower "4f"⟩]

/-- The floor falls in it, as governed. -/
theorem cooledOff_governed :
    (run (lifeStep idleConfig) (.fresh ⟨5000000⟩ researchMachine) cooledOff).governance.floor =
        ⟨3000000⟩ ∧
      ∀ before l after, cooledOff = before ++ l :: after →
        Governed idleConfig (.fresh ⟨5000000⟩ researchMachine) before (transition (lifeStep idleConfig)
          (run (lifeStep idleConfig) (.fresh ⟨5000000⟩ researchMachine) before) l) := by
  refine ⟨by decide +kernel, falls_governed idleConfig ⟨5000000⟩ researchMachine cooledOff ?_⟩
  unfold cooledOff
  rw [trace_cons, List.forall_mem_cons, trace_cons, List.forall_mem_cons]
  exact ⟨meets_of_quiet rfl, meets_of_quiet rfl, fun t ht => absurd ht List.not_mem_nil⟩

/-- The dispatcher raises within the first confirmation; the same nonce then confirms again. -/
def confirmedTwice : List GovernanceLife :=
  [.call ⟨quietGovernance 0 "4f", .requestLower ⟨3000000⟩ .CLI⟩,
    .call ⟨⟨fun _ => true, fun _ => false, 172800, ""⟩, .confirmLower "4f"⟩,
    .call ⟨quietGovernance 172801 "", .raiseFloor ⟨5000000⟩ .CLI⟩]

/-- **Ungoverned falls**: a nonce that confirms twice, and a rebuild that finds no floor on record. -/
theorem ungoverned_falls :
    ¬ Governed idleConfig (.fresh ⟨5000000⟩ researchMachine) confirmedTwice (transition
        (lifeStep idleConfig)
          (run (lifeStep idleConfig) (.fresh ⟨5000000⟩ researchMachine) confirmedTwice)
            (.call ⟨quietGovernance 172802 "", .confirmLower "4f"⟩)) ∧
      ¬ Governed idleConfig (.fresh ⟨5000000⟩ researchMachine) [] (transition (lifeStep idleConfig)
        (.fresh ⟨5000000⟩ researchMachine) .rebuild) := by
  constructor
  · intro hgoverned
    obtain ⟨earlier, between, env, target, env', hbefore, -, hunconfirmed, -⟩ :=
      hgoverned.falls (by decide +kernel)
    unfold confirmedTwice at hbefore
    -- the request is the first call, and the second confirms it
    rcases earlier with _ | ⟨first, _ | ⟨second, _ | ⟨third, rest⟩⟩⟩
    · cases hbefore
      refine hunconfirmed _ (.head _) ⟨_, _, newPending idleConfig (quietGovernance 0 "4f") ⟨3000000⟩,
        rfl, rfl, by decide, by decide +kernel, rfl⟩
    · cases hbefore
    · cases hbefore
    · simp at hbefore
  · intro hgoverned
    obtain ⟨earlier, between, env, target, env', hbefore, -⟩ := hgoverned.falls (by decide +kernel)
    exact absurd hbefore.symm (by simp)

end Windbreak
