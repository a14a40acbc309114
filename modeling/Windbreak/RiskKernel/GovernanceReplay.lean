import Windbreak.RiskKernel.Governance

/-!
# Replaying governance

The object and the object rebuilt from its events are moved by the same updates, as long as every
update reaches the log.

* **`governanceStep_effect`** — an operation is one update of the object; it is recorded, or not.
* **`replay_iff`** — which runs can be replayed.
-/

namespace Windbreak

open Machine Effects

/-! ## Updates -/

/-- An assignment of some of the fields. -/
structure GovernanceUpdate where
  floor : Option MoneyMicros
  mark : Option MoneyMicros
  pending : Option (Option PendingFloorLower)

namespace GovernanceUpdate

def none : GovernanceUpdate := ⟨.none, .none, .none⟩

def apply (u : GovernanceUpdate) (g : FloorGovernance) : FloorGovernance :=
  ⟨u.floor.getD g.floor, u.mark.getD g.highWaterMark, u.pending.getD g.pending⟩

@[simp] theorem none_apply (g : FloorGovernance) : none.apply g = g := rfl

end GovernanceUpdate

/-! ## Events as updates -/

/-- The event types that set the floor. -/
def floorEventTypes : List String := ["FloorRaised", "FloorRatchetApplied", "FloorLowerConfirmed"]

/-- Some event of a log sets the floor. -/
def FloorRecorded (log : List Event) : Prop := ∃ event ∈ log, event.eventType ∈ floorEventTypes

theorem floorRecorded_append (log new : List Event) :
    FloorRecorded (log ++ new) ↔ FloorRecorded log ∨ FloorRecorded new := by
  unfold FloorRecorded
  simp only [List.mem_append, or_and_right, exists_or]

theorem fromEvents_append {log new : List Event} {r : FloorGovernance}
    (h : fromEvents log = .ok r) :
    fromEvents (log ++ new) = new.foldlM absorbReplayedEvent r := by
  have hsplit : fromEvents (log ++ new) =
      fromEvents log >>= fun r => new.foldlM absorbReplayedEvent r := List.foldlM_append
  rw [hsplit, h]
  rfl

/-! ## What an operation does -/

/-- A pending lowering may be confirmed by a nonce now. -/
def Confirmable (env : GovernanceEnv) (nonce : String) (pending : PendingFloorLower) : Prop :=
  pending.readyAt ≤ env.clock ∧ (comparable nonce ∧ comparable pending.nonce) ∧ nonce = pending.nonce

/-- A profit-sweep advisory that is due and raises. -/
def AdvisoryRaises (cfg : GovernanceConfig) (env : GovernanceEnv) (gain : MoneyMicros) : Prop :=
  cfg.profitSweepThreshold < gain ∧ env.dispatchRaises .PROFIT_SWEEP_ADVISORY

/-- An operation changes the object, and the event that says so does not reach the log: the writer
raises on it, or an alert raises before it. -/
def Loses (cfg : GovernanceConfig) (t : GovernanceTransition) : Prop :=
  let g := t.pre.governance
  let env := t.input.env
  match t.input.op with
  | .raiseFloor newFloor origin =>
    g.floor < newFloor ∧ env.recordRaises (floorRaisedEvent g.floor newFloor origin)
  | .requestLower newFloor origin =>
    origin = .CLI ∧ g.pending = none ∧
      env.recordRaises (floorLowerRequestedEvent (newPending cfg env newFloor) env.clock origin)
  | .confirmLower nonce =>
    ∃ pending, g.pending = some pending ∧ Confirmable env nonce pending ∧
      pending.targetFloorMicros ≠ g.floor ∧ (env.dispatchRaises .FLOOR_CHANGE_REQUEST ∨
        env.recordRaises (confirmedEvent t.pre pending))
  | .observeEquity equity =>
    g.highWaterMark < equity ∧ ¬ AdvisoryRaises cfg env (equity - g.highWaterMark) ∧
      0 < ppmOf (equity - g.highWaterMark).value cfg.ratchetPpm ∧
        env.recordRaises (ratchetEvent cfg g (equity - g.highWaterMark))
  | .modeMoves _ => False

/-- An operation is an update of the object; the log records it, or nothing. -/
structure GovernanceEffect (cfg : GovernanceConfig) (w : GovernanceWorld) (i : GovernanceInput)
    (live recorded : GovernanceUpdate) : Prop where
  governance : (governanceStep cfg w i).2.governance = live.apply w.governance
  log : ∃ new, (governanceStep cfg w i).2.log = w.log ++ new ∧
    (∀ r, new.foldlM absorbReplayedEvent r = .ok (recorded.apply r)) ∧
      (FloorRecorded new ↔ recorded.floor.isSome)
  whole : recorded = live ∨ recorded = .none
  pending : recorded = .none → live.pending = .none ∨ w.governance.pending = .none
  loses : Loses cfg (transition (governanceStep cfg) w i) ↔
    recorded ≠ live ∧ live.apply w.governance ≠ w.governance

/-- An operation is an update in this sense. -/
def Effective (cfg : GovernanceConfig) (w : GovernanceWorld) (i : GovernanceInput) : Prop :=
  ∃ live recorded, GovernanceEffect cfg w i live recorded

section

variable {cfg : GovernanceConfig} {w : GovernanceWorld} {i : GovernanceInput}

/-- What is updated is recorded. -/
theorem Effective.of_kept (u : GovernanceUpdate) (new : List Event)
    (hgovernance : (governanceStep cfg w i).2.governance = u.apply w.governance)
    (hlog : (governanceStep cfg w i).2.log = w.log ++ new)
    (hnew : ∀ r, new.foldlM absorbReplayedEvent r = .ok (u.apply r))
    (hfloor : FloorRecorded new ↔ u.floor.isSome)
    (hloses : ¬ Loses cfg (transition (governanceStep cfg) w i)) :
    Effective cfg w i :=
  ⟨u, u, hgovernance, ⟨new, hlog, hnew, hfloor⟩, .inl rfl,
    fun h => .inl (congrArg GovernanceUpdate.pending h), iff_of_false hloses fun h => h.1 rfl⟩

theorem not_floorRecorded_nil : ¬ FloorRecorded [] := by
  rintro ⟨event, hevent, -⟩
  exact List.not_mem_nil hevent

/-- What is updated is not recorded. -/
theorem Effective.of_lost (u : GovernanceUpdate)
    (hgovernance : (governanceStep cfg w i).2.governance = u.apply w.governance)
    (hlog : (governanceStep cfg w i).2.log = w.log) (hu : .none ≠ u)
    (hpending : u.pending = .none ∨ w.governance.pending = .none)
    (hloses : Loses cfg (transition (governanceStep cfg) w i) ↔
      u.apply w.governance ≠ w.governance) :
    Effective cfg w i :=
  ⟨u, .none, hgovernance, ⟨[], by rw [hlog, List.append_nil], fun r => rfl,
    iff_of_false not_floorRecorded_nil Bool.false_ne_true⟩, .inr rfl, fun _ => hpending, by
      rw [hloses]
      exact (and_iff_right hu).symm⟩

/-- Nothing happens to the object, and at most a refusal is logged. -/
theorem Effective.of_still (new : List Event)
    (hgovernance : (governanceStep cfg w i).2.governance = w.governance)
    (hlog : (governanceStep cfg w i).2.log = w.log ++ new)
    (hnew : ∀ event ∈ new, event.eventType = "FloorLowerRefused")
    (hloses : ¬ Loses cfg (transition (governanceStep cfg) w i)) :
    Effective cfg w i := by
  refine Effective.of_kept .none new hgovernance hlog (fun r => ?_) ?_ hloses
  · clear hlog
    induction new generalizing r with
    | nil => rfl
    | cons event rest ih =>
        have htype := hnew event (.head _)
        have habsorb : absorbReplayedEvent r event = .ok r := by
          simp [absorbReplayedEvent, htype]
        rw [List.foldlM_cons, habsorb]
        exact ih (fun e he => hnew e (.tail _ he)) r
  · refine iff_of_false ?_ Bool.false_ne_true
    rintro ⟨event, hevent, htype⟩
    rw [hnew event hevent] at htype
    exact absurd htype (by decide)

theorem raiseFloor_effect (env : GovernanceEnv) (newFloor : MoneyMicros) (origin : ChangeOrigin) :
    Effective cfg w ⟨env, .raiseFloor newFloor origin⟩ := by
  have hstep : (governanceStep cfg w ⟨env, .raiseFloor newFloor origin⟩).2 =
      finalState ((raiseFloor env newFloor origin).run w) := settle_snd _
  rw [raiseFloor_run] at hstep
  by_cases hle : newFloor ≤ w.governance.floor
  · rw [if_pos hle] at hstep
    refine .of_still [] (by rw [hstep]; rfl) (by rw [hstep]; exact (List.append_nil _).symm)
      (fun event hevent => absurd hevent List.not_mem_nil) ?_
    exact fun hloses => absurd hloses.1 (Int.not_lt.mpr hle)
  · rw [if_neg hle] at hstep
    have hlt : w.governance.floor < newFloor := Int.not_le.mp hle
    by_cases hraises : env.recordRaises (floorRaisedEvent w.governance.floor newFloor origin)
    · rw [if_pos hraises] at hstep
      refine .of_lost ⟨some newFloor, none, none⟩ (by rw [hstep]; rfl) (by rw [hstep]; rfl)
        (fun h => by cases h) (.inl rfl) (iff_of_true ⟨hlt, hraises⟩ fun hsame => ?_)
      have hfloor := congrArg FloorGovernance.floor hsame
      exact absurd hlt (by rw [← hfloor]; exact Int.lt_irrefl _)
    · rw [if_neg hraises] at hstep
      refine .of_kept ⟨some newFloor, none, none⟩ [_] (by rw [hstep]; rfl) (by rw [hstep]; rfl)
        (fun r => rfl)
        (iff_of_true ⟨_, List.mem_singleton.mpr rfl, (by decide : "FloorRaised" ∈ floorEventTypes)⟩ rfl)
        fun hloses => hraises hloses.2

theorem requestLower_effect (env : GovernanceEnv) (newFloor : MoneyMicros) (origin : ChangeOrigin) :
    Effective cfg w ⟨env, .requestLower newFloor origin⟩ := by
  have hstep : (governanceStep cfg w ⟨env, .requestLower newFloor origin⟩).2 =
      finalState ((requestLower cfg env newFloor origin).run w) := settle_snd _
  rw [requestLower_run] at hstep
  by_cases horigin : origin ≠ .CLI
  · rw [if_pos horigin] at hstep
    by_cases hraises : env.recordRaises (originRefusal newFloor origin)
    · rw [if_pos hraises] at hstep
      exact .of_still [] (by rw [hstep]; rfl)
        (by rw [hstep]; exact (List.append_nil _).symm)
        (fun event hevent => absurd hevent List.not_mem_nil) fun hloses => horigin hloses.1
    · rw [if_neg hraises] at hstep
      refine .of_still [originRefusal newFloor origin] (by rw [hstep]; rfl)
        (by rw [hstep]; rfl) (fun event hevent => ?_) fun hloses => horigin hloses.1
      rw [List.mem_singleton.mp hevent]
      rfl
  · rw [if_neg horigin] at hstep
    by_cases hpending : w.governance.pending.isSome
    · rw [if_pos hpending] at hstep
      refine .of_still [] (by rw [hstep]; rfl)
        (by rw [hstep]; exact (List.append_nil _).symm)
        (fun event hevent => absurd hevent List.not_mem_nil) fun hloses => ?_
      have hnone : w.governance.pending = none := hloses.2.1
      rw [hnone] at hpending
      cases hpending
    · rw [if_neg hpending] at hstep
      have hnone : w.governance.pending = none := Option.not_isSome_iff_eq_none.mp hpending
      dsimp only at hstep
      by_cases hraises :
          env.recordRaises (floorLowerRequestedEvent (newPending cfg env newFloor) env.clock origin)
      · rw [if_pos hraises] at hstep
        refine .of_lost ⟨none, none, some (some (newPending cfg env newFloor))⟩
          (by rw [hstep]; rfl) (by rw [hstep]; rfl) (fun h => by cases h) (.inr hnone)
          (iff_of_true ⟨not_not.mp horigin, hnone, hraises⟩ fun hsame => ?_)
        have hsome := congrArg FloorGovernance.pending hsame
        rw [hnone] at hsome
        cases hsome
      · rw [if_neg hraises] at hstep
        have hkept : (governanceStep cfg w ⟨env, .requestLower newFloor origin⟩).2.governance =
              w.governance.withPending (some (newPending cfg env newFloor)) ∧
            (governanceStep cfg w ⟨env, .requestLower newFloor origin⟩).2.log =
              w.log ++ [floorLowerRequestedEvent (newPending cfg env newFloor) env.clock origin] := by
          rw [hstep]
          split
          · exact ⟨rfl, rfl⟩
          · exact ⟨rfl, rfl⟩
        refine .of_kept ⟨none, none, some (some (newPending cfg env newFloor))⟩ [_] hkept.1 hkept.2
          (fun r => rfl) (iff_of_false ?_ Bool.false_ne_true) fun hloses => hraises hloses.2.2
        rintro ⟨event, hevent, htype⟩
        rw [List.mem_singleton.mp hevent] at htype
        exact absurd htype (by decide : "FloorLowerRequested" ∉ floorEventTypes)

theorem confirmLower_effect (env : GovernanceEnv) (nonce : String) :
    Effective cfg w ⟨env, .confirmLower nonce⟩ := by
  have hstep : (governanceStep cfg w ⟨env, .confirmLower nonce⟩).2 =
      finalState ((confirmLower env nonce).run w) := settle_snd _
  rw [confirmLower_run] at hstep
  cases hpending : w.governance.pending with
  | none =>
      rw [hpending] at hstep
      refine .of_still [] (by rw [hstep]; rfl)
        (by rw [hstep]; exact (List.append_nil _).symm)
        (fun event hevent => absurd hevent List.not_mem_nil) ?_
      rintro ⟨pending, hsome, -⟩
      have hnone : some pending = none := hsome.symm.trans hpending
      cases hnone
  | some pending =>
      rw [hpending] at hstep
      dsimp only at hstep
      rw [EStateM.run_bind, rejectUnlessConfirmable_run] at hstep
      have hmine : ∀ {other}, w.governance.pending = some other → other = pending := fun hother =>
        Option.some.inj (hother.symm.trans hpending)
      by_cases hearly : env.clock < pending.readyAt
      · rw [if_pos hearly] at hstep
        have hnot : ¬ Loses cfg (transition (governanceStep cfg) w ⟨env, .confirmLower nonce⟩) := by
          rintro ⟨other, hother, ⟨hready, -⟩, -⟩
          rw [hmine hother] at hready
          exact absurd hearly (Int.not_lt.mpr hready)
        by_cases hraises : env.recordRaises (coolOffRefusal pending)
        · rw [if_pos hraises] at hstep
          exact .of_still [] (by rw [hstep]; rfl)
            (by rw [hstep]; exact (List.append_nil _).symm)
            (fun event hevent => absurd hevent List.not_mem_nil) hnot
        · rw [if_neg hraises] at hstep
          refine .of_still [coolOffRefusal pending] (by rw [hstep]; rfl)
            (by rw [hstep]; rfl) (fun event hevent => ?_) hnot
          rw [List.mem_singleton.mp hevent]
          rfl
      · rw [if_neg hearly] at hstep
        by_cases hascii : ¬ (comparable nonce ∧ comparable pending.nonce)
        · rw [if_pos hascii] at hstep
          refine .of_still [] (by rw [hstep]; rfl)
            (by rw [hstep]; exact (List.append_nil _).symm)
            (fun event hevent => absurd hevent List.not_mem_nil) ?_
          rintro ⟨other, hother, ⟨-, hcomparable, -⟩, -⟩
          rw [hmine hother] at hcomparable
          exact hascii hcomparable
        · rw [if_neg hascii] at hstep
          by_cases hnonce : nonce ≠ pending.nonce
          · rw [if_pos hnonce] at hstep
            have hnot :
                ¬ Loses cfg (transition (governanceStep cfg) w ⟨env, .confirmLower nonce⟩) := by
              rintro ⟨other, hother, ⟨-, -, hsame⟩, -⟩
              rw [hmine hother] at hsame
              exact hnonce hsame
            by_cases hraises : env.recordRaises nonceRefusal
            · rw [if_pos hraises] at hstep
              exact .of_still [] (by rw [hstep]; rfl)
                (by rw [hstep]; exact (List.append_nil _).symm)
                (fun event hevent => absurd hevent List.not_mem_nil) hnot
            · rw [if_neg hraises] at hstep
              refine .of_still [nonceRefusal] (by rw [hstep]; rfl)
                (by rw [hstep]; rfl) (fun event hevent => ?_) hnot
              rw [List.mem_singleton.mp hevent]
              rfl
          · rw [if_neg hnonce] at hstep
            dsimp only at hstep
            rw [applyConfirmedLower_run] at hstep
            dsimp only at hstep
            have hconfirmable : Confirmable env nonce pending :=
              ⟨Int.not_lt.mp hearly, not_not.mp hascii, not_not.mp hnonce⟩
            have hlost : env.dispatchRaises .FLOOR_CHANGE_REQUEST ∨
                env.recordRaises (confirmedEvent w pending) →
                  (Loses cfg (transition (governanceStep cfg) w ⟨env, .confirmLower nonce⟩) ↔
                    GovernanceUpdate.apply ⟨some pending.targetFloorMicros, none, none⟩ w.governance ≠
                      w.governance) := by
              intro hfault
              constructor
              · rintro ⟨other, hother, -, hne, -⟩ hsame
                rw [hmine hother] at hne
                exact hne (congrArg FloorGovernance.floor hsame)
              · intro hne
                refine ⟨pending, hpending, hconfirmable, fun hsame => hne ?_, hfault⟩
                have hfloor : pending.targetFloorMicros = w.governance.floor := hsame
                rw [hfloor]
                rfl
            by_cases hdispatch : env.dispatchRaises .FLOOR_CHANGE_REQUEST
            · rw [if_pos hdispatch] at hstep
              exact .of_lost ⟨some pending.targetFloorMicros, none, none⟩ (by rw [hstep]; rfl)
                (by rw [hstep]; rfl) (fun h => by cases h) (.inl rfl) (hlost (.inl hdispatch))
            · rw [if_neg hdispatch] at hstep
              by_cases hraises : env.recordRaises (confirmedEvent w pending)
              · rw [if_pos hraises] at hstep
                exact .of_lost ⟨some pending.targetFloorMicros, none, none⟩
                  (by rw [hstep]; rfl) (by rw [hstep]; rfl) (fun h => by cases h) (.inl rfl)
                  (hlost (.inr hraises))
              · rw [if_neg hraises] at hstep
                refine .of_kept ⟨some pending.targetFloorMicros, none, some none⟩
                  [confirmedEvent w pending] (by rw [hstep]; rfl) (by rw [hstep]; rfl)
                  (fun r => rfl) (iff_of_true ⟨_, List.mem_singleton.mpr rfl,
                    (by decide : "FloorLowerConfirmed" ∈ floorEventTypes)⟩ rfl) ?_
                rintro ⟨other, hother, -, -, hfault⟩
                rw [hmine hother] at hfault
                exact hfault.elim hdispatch hraises

theorem observeEquity_effect (env : GovernanceEnv) (equity : MoneyMicros) :
    Effective cfg w ⟨env, .observeEquity equity⟩ := by
  have hstep : (governanceStep cfg w ⟨env, .observeEquity equity⟩).2 =
      finalState ((observeEquity cfg env equity).run w) := settle_snd _
  rw [observeEquity_run] at hstep
  set gain := equity - w.governance.highWaterMark with hgain
  by_cases hle : equity ≤ w.governance.highWaterMark
  · rw [if_pos hle] at hstep
    refine .of_still [] (by rw [hstep]; rfl) (by rw [hstep]; exact (List.append_nil _).symm)
      (fun event hevent => absurd hevent List.not_mem_nil) ?_
    exact fun hloses => absurd hloses.1 (Int.not_lt.mpr hle)
  · rw [if_neg hle, EStateM.run_bind, maybeAdviseProfitSweep_run] at hstep
    have hhigh : w.governance.highWaterMark < equity := Int.not_le.mp hle
    by_cases hadvisory : AdvisoryRaises cfg env gain
    · rw [if_pos hadvisory.1, if_pos hadvisory.2] at hstep
      exact .of_still [] (by rw [hstep]; rfl) (by rw [hstep]; exact (List.append_nil _).symm)
        (fun event hevent => absurd hevent List.not_mem_nil) fun hloses => hloses.2.1 hadvisory
    · -- the advisory, if there is one, is an alert and nothing else
      obtain ⟨v, hv, hsame, hlog⟩ : ∃ v : GovernanceWorld, (if cfg.profitSweepThreshold < gain then
            if env.dispatchRaises .PROFIT_SWEEP_ADVISORY then .error dispatcherError w
            else .ok () (w.alerted .PROFIT_SWEEP_ADVISORY (sweepText gain cfg.profitSweepThreshold))
          else .ok () w : EStateM.Result GovernanceError GovernanceWorld Unit) = .ok () v ∧
            v.governance = w.governance ∧ v.log = w.log := by
        by_cases hdue : cfg.profitSweepThreshold < gain
        · rw [if_pos hdue, if_neg fun hraises => hadvisory ⟨hdue, hraises⟩]
          exact ⟨_, rfl, rfl, rfl⟩
        · rw [if_neg hdue]
          exact ⟨_, rfl, rfl, rfl⟩
      rw [hv] at hstep
      dsimp only at hstep
      rw [EStateM.run_bind, maybeRatchet_run, hsame] at hstep
      have hmark : ∀ u : GovernanceWorld,
          finalState ((recordGovernance env
              (equityHighWaterMarkAdvancedEvent w.governance.highWaterMark equity) >>= fun _ =>
            govern (·.withMark equity)).run u) =
          if env.recordRaises (equityHighWaterMarkAdvancedEvent w.governance.highWaterMark equity) then u
          else (u.logged (equityHighWaterMarkAdvancedEvent w.governance.highWaterMark
            equity)).withGovernance (u.governance.withMark equity) := by
        intro u
        by_cases hraises :
            env.recordRaises (equityHighWaterMarkAdvancedEvent w.governance.highWaterMark equity)
        · simp [recordGovernance, govern, hraises]
        · simp [recordGovernance, govern, hraises]
      by_cases hnone : ppmOf gain.value cfg.ratchetPpm ≤ 0
      · rw [if_pos hnone] at hstep
        dsimp only at hstep
        rw [hmark] at hstep
        have hnot : ¬ Loses cfg (transition (governanceStep cfg) w ⟨env, .observeEquity equity⟩) :=
          fun hloses => absurd hloses.2.2.1 (not_lt.mpr hnone)
        split at hstep
        · exact .of_still [] (by rw [hstep, hsame])
            (by rw [hstep, hlog]; exact (List.append_nil _).symm)
            (fun event hevent => absurd hevent List.not_mem_nil) hnot
        · refine .of_kept ⟨none, some equity, none⟩
            [equityHighWaterMarkAdvancedEvent w.governance.highWaterMark equity]
            (by rw [hstep]; change v.governance.withMark equity = _; rw [hsame]; rfl)
            (by rw [hstep]; change v.log ++ _ = _; rw [hlog]) (fun r => rfl)
            (iff_of_false ?_ Bool.false_ne_true) hnot
          rintro ⟨event, hevent, htype⟩
          rw [List.mem_singleton.mp hevent] at htype
          exact absurd htype (by decide : "EquityHighWaterMarkAdvanced" ∉ floorEventTypes)
      · rw [if_neg hnone] at hstep
        dsimp only at hstep
        by_cases hratchet : env.recordRaises (ratchetEvent cfg w.governance gain)
        · rw [if_pos hratchet] at hstep
          refine .of_lost ⟨some (ratcheted cfg w.governance gain), none, none⟩
            (by rw [hstep]; rfl) (by rw [hstep]; exact hlog) (fun h => by cases h) (.inl rfl) ?_
          refine iff_of_true ⟨hhigh, hadvisory, not_le.mp hnone, hratchet⟩ fun hsame => ?_
          have hfloor := congrArg (fun g => g.floor.value) hsame
          have hratcheted : (ratcheted cfg w.governance gain).value =
              w.governance.floor.value + ppmOf gain.value cfg.ratchetPpm := rfl
          change (ratcheted cfg w.governance gain).value = w.governance.floor.value at hfloor
          omega
        · rw [if_neg hratchet] at hstep
          dsimp only at hstep
          rw [hmark] at hstep
          have hnot : ¬ Loses cfg (transition (governanceStep cfg) w ⟨env, .observeEquity equity⟩) :=
            fun hloses => hratchet hloses.2.2.2
          split at hstep
          · exact .of_kept ⟨some (ratcheted cfg w.governance gain), none, none⟩
              [ratchetEvent cfg w.governance gain] (by rw [hstep]; rfl)
              (by rw [hstep]; change v.log ++ _ = _; rw [hlog]) (fun r => rfl)
              (iff_of_true ⟨_, .head _, (by decide : "FloorRatchetApplied" ∈ floorEventTypes)⟩ rfl) hnot
          · exact .of_kept ⟨some (ratcheted cfg w.governance gain), some equity, none⟩
              [ratchetEvent cfg w.governance gain,
                equityHighWaterMarkAdvancedEvent w.governance.highWaterMark equity]
              (by rw [hstep]; rfl)
              (by rw [hstep]; change (v.log ++ _) ++ _ = _; rw [hlog, List.append_assoc]; rfl)
              (fun r => rfl)
              (iff_of_true ⟨_, .head _, (by decide : "FloorRatchetApplied" ∈ floorEventTypes)⟩ rfl) hnot

/-- **An operation is one update of the object**; it is recorded as a whole, or not at all. -/
theorem governanceStep_effect (cfg : GovernanceConfig) (w : GovernanceWorld) (i : GovernanceInput) :
    Effective cfg w i := by
  obtain ⟨env, op⟩ := i
  cases op with
  | raiseFloor newFloor origin => exact raiseFloor_effect env newFloor origin
  | requestLower newFloor origin => exact requestLower_effect env newFloor origin
  | confirmLower nonce => exact confirmLower_effect env nonce
  | observeEquity equity => exact observeEquity_effect env equity
  | modeMoves machine =>
      exact .of_still [] rfl (List.append_nil _).symm
        (fun event hevent => absurd hevent List.not_mem_nil) id

end

/-! ## Runs -/

/-- The object rebuilt from the log is the live one: floor, mark and pending lowering agree, and every
later run is the same on both. -/
def Replays (cfg : GovernanceConfig) (w : GovernanceWorld) : Prop :=
  ∃ g, fromEvents w.log = .ok g ∧ g.floor = w.governance.floor ∧
    g.highWaterMark = w.governance.highWaterMark ∧ g.pending = w.governance.pending ∧
      ∀ later : List GovernanceInput,
        trace (governanceStep cfg) (w.withGovernance g) later = trace (governanceStep cfg) w later

theorem replays_iff_eq {cfg : GovernanceConfig} {w : GovernanceWorld} :
    Replays cfg w ↔ fromEvents w.log = .ok w.governance := by
  constructor
  · rintro ⟨g, hg, hfloor, hmark, hpending, -⟩
    rw [hg]
    exact congrArg Except.ok (FloorGovernance.ext hfloor hmark hpending)
  · exact fun h => ⟨w.governance, h, rfl, rfl, rfl, fun later => rfl⟩

/-- The log replays to the object, except perhaps for the floor: that agrees once an event has set it,
and until then the log replays to zero and the object is at its initial floor. -/
structure NearlyReplays (initialFloor : MoneyMicros) (w : GovernanceWorld) (r : FloorGovernance) :
    Prop where
  replayed : fromEvents w.log = .ok r
  mark : r.highWaterMark = w.governance.highWaterMark
  pending : r.pending = w.governance.pending
  recorded : FloorRecorded w.log → r.floor = w.governance.floor
  unrecorded : ¬ FloorRecorded w.log → r.floor = ⟨0⟩ ∧ w.governance.floor = initialFloor

theorem fresh_nearlyReplays (initialFloor : MoneyMicros) (machine : ModeStateMachine) :
    NearlyReplays initialFloor (.fresh initialFloor machine) (.fresh ⟨0⟩) where
  replayed := rfl
  mark := rfl
  pending := rfl
  recorded h := absurd h not_floorRecorded_nil
  unrecorded _ := ⟨rfl, rfl⟩

section

variable {cfg : GovernanceConfig} {initialFloor : MoneyMicros}

/-- An operation that loses nothing keeps this. -/
theorem NearlyReplays.step {w : GovernanceWorld} {r : FloorGovernance}
    (h : NearlyReplays initialFloor w r) {i : GovernanceInput}
    (hkept : ¬ Loses cfg (transition (governanceStep cfg) w i)) :
    ∃ r, NearlyReplays initialFloor (governanceStep cfg w i).2 r := by
  obtain ⟨live, recorded, heffect⟩ := governanceStep_effect cfg w i
  obtain ⟨new, hlog, hnew, hfloor⟩ := heffect.log
  have hreplayed : fromEvents (governanceStep cfg w i).2.log = .ok (recorded.apply r) := by
    rw [hlog, fromEvents_append h.replayed]
    exact hnew r
  have hrecorded : FloorRecorded (governanceStep cfg w i).2.log ↔
      FloorRecorded w.log ∨ recorded.floor.isSome := by
    rw [hlog, floorRecorded_append, hfloor]
  -- what is not recorded changes nothing
  have hlive : live.apply w.governance = recorded.apply w.governance := by
    rcases heffect.whole with hsame | hnone
    · rw [hsame]
    · rw [hnone, GovernanceUpdate.none_apply]
      by_contra hne
      refine hkept (heffect.loses.mpr ⟨fun hsame => hne ?_, hne⟩)
      rw [← hsame, hnone, GovernanceUpdate.none_apply]
  have hgovernance : (governanceStep cfg w i).2.governance = recorded.apply w.governance :=
    heffect.governance.trans hlive
  refine ⟨recorded.apply r, hreplayed, ?_, ?_, ?_, ?_⟩
  · rw [hgovernance]
    exact congrArg recorded.mark.getD h.mark
  · rw [hgovernance]
    exact congrArg recorded.pending.getD h.pending
  · rw [hrecorded, hgovernance]
    intro hset
    change recorded.floor.getD r.floor = recorded.floor.getD w.governance.floor
    cases hfloorOf : recorded.floor with
    | some floor => rfl
    | none =>
        rw [hfloorOf] at hset
        exact h.recorded (hset.resolve_right Bool.false_ne_true)
  · rw [hrecorded, hgovernance]
    intro hunset
    change recorded.floor.getD r.floor = ⟨0⟩ ∧ recorded.floor.getD w.governance.floor = initialFloor
    cases hfloorOf : recorded.floor with
    | some floor =>
        rw [hfloorOf] at hunset
        exact absurd (.inr rfl) hunset
    | none => exact h.unrecorded fun hset => hunset (.inl hset)

/-- **From a state that replays**, an operation leads to one exactly when it loses nothing. -/
theorem replays_step_iff {w : GovernanceWorld} (h : Replays cfg w) (i : GovernanceInput) :
    Replays cfg (governanceStep cfg w i).2 ↔
      ¬ Loses cfg (transition (governanceStep cfg) w i) := by
  rw [replays_iff_eq] at h ⊢
  obtain ⟨live, recorded, heffect⟩ := governanceStep_effect cfg w i
  obtain ⟨new, hlog, hnew, -⟩ := heffect.log
  have hreplayed : fromEvents (governanceStep cfg w i).2.log =
      .ok (recorded.apply w.governance) := by
    rw [hlog, fromEvents_append h]
    exact hnew w.governance
  rw [hreplayed, heffect.governance, heffect.loses, Except.ok.injEq]
  rcases heffect.whole with hsame | hnone
  · rw [hsame]
    exact iff_of_true rfl fun hloses => hloses.1 rfl
  · rw [hnone, GovernanceUpdate.none_apply]
    constructor
    · exact fun heq hloses => hloses.2 heq.symm
    · intro hkept
      by_contra hne
      refine hkept ⟨fun hsame => hne ?_, Ne.symm hne⟩
      rw [← hsame, GovernanceUpdate.none_apply]

/-- **Replaying governance**: a run that loses nothing replays exactly when it started from a floor of
zero or has recorded a floor, and an operation that loses something breaks the replay at once. -/
theorem replay_iff (cfg : GovernanceConfig) (initialFloor : MoneyMicros) (machine : ModeStateMachine)
    (ops : List GovernanceInput) :
    ((∀ t ∈ trace (governanceStep cfg) (.fresh initialFloor machine) ops, ¬ Loses cfg t) →
        (Replays cfg (run (governanceStep cfg) (.fresh initialFloor machine) ops) ↔
          initialFloor.value = 0 ∨
            FloorRecorded (run (governanceStep cfg) (.fresh initialFloor machine) ops).log)) ∧
      ∀ t ∈ trace (governanceStep cfg) (.fresh initialFloor machine) ops,
        Replays cfg t.pre → (Replays cfg t.post ↔ ¬ Loses cfg t) := by
  refine ⟨fun hkept => ?_, fun t ht hpre => ?_⟩
  · obtain ⟨r, hnear⟩ := run_invariant_of_guard
      (I := fun w => ∃ r, NearlyReplays initialFloor w r) (G := fun t => ¬ Loses cfg t)
      (fun w i hw hG => hw.elim fun r hr => hr.step hG)
      ⟨_, fresh_nearlyReplays initialFloor machine⟩ hkept
    rw [replays_iff_eq, hnear.replayed, Except.ok.injEq]
    constructor
    · intro hsame
      by_cases hset : FloorRecorded (run (governanceStep cfg) (.fresh initialFloor machine) ops).log
      · exact .inr hset
      · obtain ⟨hzero, hinitial⟩ := hnear.unrecorded hset
        rw [← hsame, hzero] at hinitial
        exact .inl (congrArg IntUnit.value hinitial).symm
    · intro hcase
      refine FloorGovernance.ext ?_ hnear.mark hnear.pending
      by_cases hset : FloorRecorded (run (governanceStep cfg) (.fresh initialFloor machine) ops).log
      · exact hnear.recorded hset
      · obtain ⟨hzero, hinitial⟩ := hnear.unrecorded hset
        rw [hzero, hinitial]
        exact IntUnit.ext (hcase.resolve_right hset).symm
  · obtain ⟨before, after, -, hsame⟩ := mem_trace.mp ht
    rw [hsame] at hpre ⊢
    exact replays_step_iff hpre t.input

end

/-! ## A floor that no event carries -/

/-- A ratchet of nothing. -/
def idleConfig : GovernanceConfig := ⟨0, ⟨1000000⟩, 172800⟩

/-- Nothing raises. -/
def quietGovernance (clock : ℤ) (nonce : String) : GovernanceEnv :=
  ⟨fun _ => false, fun _ => false, clock, nonce⟩

def researchMachine : ModeStateMachine := ⟨.LIVE, .RESEARCH, 3, Mode.ladderRank_live⟩

/-- **The initial floor is in no event**: rebuilt after one observation of the equity, the floor is
zero. -/
theorem initial_floor_lost :
    ¬ ∀ (cfg : GovernanceConfig) (initialFloor : MoneyMicros) (machine : ModeStateMachine)
      (ops : List GovernanceInput),
        Replays cfg (run (governanceStep cfg) (.fresh initialFloor machine) ops) := by
  intro hall
  have hreplays := hall idleConfig ⟨5000000⟩ researchMachine
    [⟨quietGovernance 0 "", .observeEquity ⟨7000000⟩⟩]
  rw [replays_iff_eq] at hreplays
  exact absurd hreplays (by decide +kernel)

end Windbreak
