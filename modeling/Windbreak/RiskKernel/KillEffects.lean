import Windbreak.RiskKernel.KillSwitch
import Windbreak.RiskKernel.LedgerRuns

/-!
# Which failures cut a kill short

The effects of a kill run in sequence and only the directive sink is guarded, so an effect that
raises takes every later effect with it.  The machine is in `KILLED` by then, whatever happens.

* **`KillAttempts`** — every effect was attempted: both records, the directive, the release of
  every active reservation, the alert, the `KILL` file.
* **`NothingCutsShort`** — the condition on the environment and on the reservations for that: a
  failing sink or a failing file write is harmless, a failing record or a failing alert is not.
* **`kill_failsafe_iff`** — from every state that is not `KILLED`, the two agree.
-/

namespace Windbreak

open Effects

/-! ## Calls made between two states -/

/-- The calls made to collaborators since an earlier state. -/
def newCalls (w w' : KernelWorld) : List Call := w'.calls.drop w.calls.length

theorem newCalls_of_append {w w' : KernelWorld} {n : List Call}
    (h : w'.calls = w.calls ++ n) : newCalls w w' = n := by
  rw [newCalls, h, List.drop_left]

/-- Calls that a growing history appended are among the new ones. -/
theorem mem_newCalls {w v w' : KernelWorld} {n : List Call} {call : Call}
    (hv : v.calls = w.calls ++ n) (hgrow : Grows KernelWorld.calls (fun _ => True) v w')
    (hmem : call ∈ n) : call ∈ newCalls w w' := by
  obtain ⟨later, hlater, -⟩ := hgrow
  rw [newCalls_of_append (n := n ++ later) (by rw [hlater, hv, List.append_assoc])]
  exact List.mem_append_left _ hmem

/-- Every call appended between two states satisfies what the growth says. -/
theorem newCalls_forall {w v w' : KernelWorld} {n : List Call} {P : Call → Prop}
    (hv : v.calls = w.calls ++ n) (hnew : ∀ call ∈ n, P call)
    (hgrow : Grows KernelWorld.calls P v w') : ∀ call ∈ newCalls w w', P call := by
  obtain ⟨later, hlater, hP⟩ := hgrow
  rw [newCalls_of_append (n := n ++ later) (by rw [hlater, hv, List.append_assoc])]
  intro call hcall
  exact (List.mem_append.mp hcall).elim (hnew call) (hP call)

/-- A call that pages the operator or leaves the on-disk signal. -/
def Call.isPage : Call → Bool
  | .dispatch .. => true
  | .writeKillFile => true
  | _ => false

theorem record_grows (env : KernelEnv) (event : Event) {P : Call → Prop}
    (hP : P (.record event)) : Moves (Grows KernelWorld.calls P) (record env event) := by
  intro w
  rw [record_run]
  split
  · exact Grows.one rfl hP
  · exact Grows.one rfl hP

theorem releaseReservations_moves {R : KernelWorld → KernelWorld → Prop} [IsPreorder KernelWorld R]
    (cfg : KernelConfig) {env : KernelEnv}
    (hrecord : ∀ event, event.isLatch = false → Moves R (record env event))
    (hdrop : ∀ w id, R w (w.withLedger (w.ledger.drop id))) :
    Moves R (releaseReservations cfg env) :=
  Moves.ite (fun _ => Moves.get_bind fun w => releaseEach_moves hrecord hdrop _ _ w)
    fun _ => Moves.pure _

theorem releaseReservations_grows (cfg : KernelConfig) (env : KernelEnv) :
    Moves (Grows KernelWorld.calls fun call => call.isPage = false)
      (releaseReservations cfg env) :=
  releaseReservations_moves cfg (fun event _ => record_grows env event rfl)
    fun _ _ => Grows.of_eq rfl

/-! ## Attempts and what cuts them short -/

/-- Every effect of a kill was attempted between two states. -/
structure KillAttempts (cfg : KernelConfig) (env : KernelEnv) (trigger : KillTrigger)
    (w w' : KernelWorld) : Prop where
  engaged : .record (killEngagedEvent trigger.name (w.killSequence + 1) env.clock) ∈ newCalls w w'
  directive : cfg.switchHasDirectiveSink = true → .submitDirective cancelAllScope ∈ newCalls w w'
  cancelAll : ∃ delivery, .record (cancelAllRecord delivery) ∈ newCalls w w'
  released : cfg.switchHasLedger = true → w'.ledger.active.keys = []
  alert : ∃ message, .dispatch .HALT_KILL message ∈ newCalls w w'
  killFile : cfg.switchHasStateDir = true → .writeKillFile ∈ newCalls w w'

/-- What the wired directive sink reports, a raising one included. -/
def deliveryOf (cfg : KernelConfig) (env : KernelEnv) : Option DirectiveDelivery :=
  if cfg.switchHasDirectiveSink then
    match env.directive with
    | .ok delivery => delivery
    | .error _ => some ⟨0, 0, true⟩
  else
    none

/-- No effect of a kill cuts the later ones short: the two records before the alert and the record
of every active reservation's release are written, and the alert goes out unless nothing comes
after it. -/
structure NothingCutsShort (cfg : KernelConfig) (env : KernelEnv) (trigger : KillTrigger)
    (w : KernelWorld) : Prop where
  engaged : env.recordRaises
    (killEngagedEvent trigger.name (w.killSequence + 1) env.clock) = false
  cancelAll : env.recordRaises (cancelAllRecord (deliveryOf cfg env)) = false
  releases : cfg.switchHasLedger = true → ∀ id ∈ w.ledger.active.keys,
    env.recordRaises (reservationReleasedEvent id killReleaseReason) = false
  alert : cfg.switchHasStateDir = true →
    ∃ report, env.dispatch .HALT_KILL (haltKillMessage (deliveryOf cfg env)) = .ok report

/-! ## Stage by stage -/

theorem deliver_run (cfg : KernelConfig) (env : KernelEnv) (w : KernelWorld) :
    (deliver cfg env).run w = .ok (deliveryOf cfg env)
      (if cfg.switchHasDirectiveSink then w.noted (.submitDirective cancelAllScope) else w) := by
  unfold deliver deliveryOf
  split
  · rw [EStateM.run_bind, noteCall_run]
    dsimp only
    cases env.directive with
    | ok delivery => rfl
    | error text => rfl
  · rfl

/-- A loop of releases returns exactly when no record of it raises. -/
theorem releaseEach_recordRaises (env : KernelEnv) (reason : String) (ids : List String)
    (w : KernelWorld) :
    match (releaseEach env ids reason).run w with
    | .ok _ _ => ∀ id ∈ ids, env.recordRaises (reservationReleasedEvent id reason) = false
    | .error _ _ => ∃ id ∈ ids, env.recordRaises (reservationReleasedEvent id reason) = true := by
  induction ids generalizing w with
  | nil =>
      intro id hid
      exact absurd hid List.not_mem_nil
  | cons id ids ih =>
      have hcons : releaseEach env (id :: ids) reason =
          (releaseLocked env id reason >>= fun _ => releaseEach env ids reason) := by
        simp only [releaseEach, List.forM_cons]
      have hone := releaseLocked_recordRaises env id reason w
      rw [hcons, EStateM.run_bind]
      cases h : (releaseLocked env id reason).run w with
      | error e t =>
          rw [h] at hone
          exact ⟨id, List.mem_cons_self, hone⟩
      | ok a t =>
          rw [h] at hone
          have hrest := ih t
          dsimp only
          cases h' : (releaseEach env ids reason).run t with
          | ok a' t' =>
              rw [h'] at hrest
              intro j hj
              rcases List.mem_cons.mp hj with rfl | hj
              · exact hone
              · exact hrest j hj
          | error e' t' =>
              rw [h'] at hrest
              obtain ⟨j, hj, hraise⟩ := hrest
              exact ⟨j, List.mem_cons_of_mem _ hj, hraise⟩

theorem releasedIntents_of_recorded {env : KernelEnv} {reason : String} {ids : List String}
    (h : ∀ id ∈ ids, env.recordRaises (reservationReleasedEvent id reason) = false) :
    releasedIntents env reason ids = ids := by
  induction ids with
  | nil => rfl
  | cons id ids ih =>
      rw [releasedIntents, h id List.mem_cons_self,
        ih fun j hj => h j (List.mem_cons_of_mem _ hj)]
      simp

/-- Dropping every active reservation leaves none. -/
theorem keys_dropAll_self (ledger : ReservationLedger) :
    (ledger.dropAll ledger.active.keys).active.keys = [] := by
  refine List.eq_nil_iff_forall_not_mem.mpr fun id hid => ?_
  obtain ⟨hnot, hkey⟩ := ReservationLedger.mem_keys_dropAll.mp hid
  exact hnot hkey

/-- The release stage returns exactly when no release record raises, and then nothing is active. -/
theorem releaseReservations_run (cfg : KernelConfig) (env : KernelEnv) (w : KernelWorld) :
    match (releaseReservations cfg env).run w with
    | .ok _ w' => (cfg.switchHasLedger = true → w'.ledger.active.keys = []) ∧
        (cfg.switchHasLedger = true → ∀ id ∈ w.ledger.active.keys,
          env.recordRaises (reservationReleasedEvent id killReleaseReason) = false)
    | .error _ _ => cfg.switchHasLedger = true ∧ ∃ id ∈ w.ledger.active.keys,
        env.recordRaises (reservationReleasedEvent id killReleaseReason) = true := by
  by_cases hledger : cfg.switchHasLedger = true
  · have hrun : (releaseReservations cfg env).run w =
        (releaseEach env w.ledger.active.keys killReleaseReason).run w := by
      rw [releaseReservations, if_pos hledger]
      rfl
    have hraises := releaseEach_recordRaises env killReleaseReason w.ledger.active.keys w
    have hfinal := releaseEach_finalState env w.ledger.active.keys killReleaseReason w
    rw [hrun]
    cases h : (releaseEach env w.ledger.active.keys killReleaseReason).run w with
    | ok a w' =>
        rw [h] at hraises hfinal
        refine ⟨fun _ => ?_, fun _ => hraises⟩
        rw [releasedIntents_of_recorded hraises] at hfinal
        rw [finalState_ok] at hfinal
        rw [hfinal]
        exact keys_dropAll_self _
    | error e w' =>
        rw [h] at hraises
        exact ⟨hledger, hraises⟩
  · have hrun : (releaseReservations cfg env).run w = .ok () w := by
      rw [releaseReservations, if_neg hledger]
      rfl
    rw [hrun]
    exact ⟨fun h => absurd h hledger, fun h => absurd h hledger⟩

/-! ## Paging the operator -/

section Page

variable (cfg : KernelConfig) (env : KernelEnv) (message : String) (w : KernelWorld)

theorem pageOperator_ledger :
    (finalState ((pageOperator cfg env message).run w)).ledger = w.ledger := by
  have hrecord : ∀ event, Frames KernelWorld.ledger (record env event) :=
    fun event => record_frames env event (fun _ _ => rfl) fun _ => rfl
  exact pageOperator_moves cfg message (R := fun v v' => v'.ledger = v.ledger)
    (fun _ _ => rfl) (fun event _ => hrecord event) (fun _ _ => rfl) w

theorem pageOperator_grows :
    Grows KernelWorld.calls (fun _ => True) w (finalState ((pageOperator cfg env message).run w)) :=
  pageOperator_moves cfg message (fun _ _ => Grows.one rfl trivial)
    (fun event _ => record_grows env event trivial) (fun _ _ => Grows.of_eq rfl) w

theorem writeKillFile_grows :
    Moves (Grows KernelWorld.calls fun _ => True) (writeKillFile cfg env) := by
  refine Moves.ite (fun _ => Moves.bind (fun _ => Grows.one rfl trivial) fun _ => ?_)
    fun _ => Moves.pure _
  exact Moves.ite (fun _ => Moves.throw _) fun _ => Moves.modify fun _ => Grows.of_eq rfl

/-- A wired state directory is written to, whether or not the write succeeds. -/
theorem writeKillFile_attempts (h : cfg.switchHasStateDir = true) :
    Grows KernelWorld.calls (fun _ => True) (w.noted .writeKillFile)
      (finalState ((writeKillFile cfg env).run w)) := by
  have hrest : Moves (Grows KernelWorld.calls fun _ => True)
      (if env.killFileRaises then throw ⟨.filesystem, "KILL file not written"⟩
        else modify fun w => w.withKillFile true : KernelM Unit) :=
    Moves.ite (fun _ => Moves.throw _) fun _ => Moves.modify fun _ => Grows.of_eq rfl
  rw [writeKillFile, if_pos h, EStateM.run_bind, noteCall_run]
  exact hrest _

variable {env message}

/-- An alert that does not go out is the last thing attempted. -/
theorem pageOperator_unsent {text : String} (h : env.dispatch .HALT_KILL message = .error text) :
    newCalls w (finalState ((pageOperator cfg env message).run w)) =
      [.dispatch .HALT_KILL message] := by
  rw [pageOperator, EStateM.run_bind, dispatchAlert_run, h]
  exact newCalls_of_append rfl

/-- An alert that goes out is followed by the `KILL` file and its own record. -/
theorem pageOperator_sent {report : Option (List SinkDelivery)}
    (h : env.dispatch .HALT_KILL message = .ok report) :
    (pageOperator cfg env message).run w =
      (writeKillFile cfg env >>= fun _ => record env (alertEmittedEvent haltKillSeverity message
        (ledgerDeliveries report) report.isSome)).run (w.noted (.dispatch .HALT_KILL message)) := by
  rw [pageOperator, EStateM.run_bind, dispatchAlert_run, h]

/-- The alert is always attempted. -/
theorem pageOperator_alerts : .dispatch .HALT_KILL message ∈
    newCalls w (finalState ((pageOperator cfg env message).run w)) := by
  cases h : env.dispatch .HALT_KILL message with
  | error text =>
      rw [pageOperator_unsent cfg w h]
      exact List.mem_singleton_self _
  | ok report =>
      have hlater := Moves.bind (writeKillFile_grows cfg env) fun _ =>
        record_grows env (alertEmittedEvent haltKillSeverity message (ledgerDeliveries report)
          report.isSome) trivial
      rw [pageOperator_sent cfg w h]
      exact mem_newCalls (n := [.dispatch .HALT_KILL message]) rfl (hlater _)
        (List.mem_singleton_self _)

/-- The `KILL` file is attempted exactly when the alert went out. -/
theorem pageOperator_writes (hdir : cfg.switchHasStateDir = true) :
    .writeKillFile ∈ newCalls w (finalState ((pageOperator cfg env message).run w)) ↔
      ∃ report, env.dispatch .HALT_KILL message = .ok report := by
  cases h : env.dispatch .HALT_KILL message with
  | error text =>
      rw [pageOperator_unsent cfg w h]
      simp
  | ok report =>
      refine iff_of_true ?_ ⟨report, rfl⟩
      have hfile := writeKillFile_attempts cfg env (w.noted (.dispatch .HALT_KILL message)) hdir
      have hrecord : Moves (Grows KernelWorld.calls fun _ => True)
          (record env (alertEmittedEvent haltKillSeverity message (ledgerDeliveries report)
            report.isSome)) := record_grows env _ trivial
      have hlater : Grows KernelWorld.calls (fun _ => True)
          ((w.noted (.dispatch .HALT_KILL message)).noted .writeKillFile)
          (finalState ((pageOperator cfg env message).run w)) := by
        rw [pageOperator_sent cfg w h, EStateM.run_bind]
        cases hrun : (writeKillFile cfg env).run (w.noted (.dispatch .HALT_KILL message)) with
        | error e t =>
            rw [hrun] at hfile
            exact hfile
        | ok a t =>
            rw [hrun] at hfile
            exact IsTrans.trans _ _ _ hfile (hrecord t)
      exact mem_newCalls (n := [.dispatch .HALT_KILL message, .writeKillFile]) (by simp) hlater
        (by simp)

end Page

/-- What follows the announcement, up to the releases. -/
theorem killAftermath_run (cfg : KernelConfig) (env : KernelEnv) (w : KernelWorld) :
    let delivery := deliveryOf cfg env
    let v := if cfg.switchHasDirectiveSink then w.noted (.submitDirective cancelAllScope) else w
    let v' := v.noted (.record (cancelAllRecord delivery))
    (killAftermath cfg env).run w =
      if env.recordRaises (cancelAllRecord delivery) then
        .error ⟨.writer, "event writer failed"⟩ v'
      else
        (do
          releaseReservations cfg env
          pageOperator cfg env (haltKillMessage delivery) : KernelM Unit).run
            (v'.logged (cancelAllRecord delivery)) := by
  intro delivery v v'
  rw [killAftermath, EStateM.run_bind, emitCancelAll, EStateM.run_bind, deliver_run]
  dsimp only
  rw [EStateM.run_bind, record_run]
  by_cases h : env.recordRaises (cancelAllRecord (deliveryOf cfg env)) = true
  · simp only [h, if_true, delivery, v', v]
  · simp only [h, if_false, delivery, v', v, Bool.false_eq_true]
    rfl

/-! ## The stages of a kill -/

section Stages

variable (cfg : KernelConfig) (env : KernelEnv) (trigger : KillTrigger) (w : KernelWorld)

/-- The record that announces a kill. -/
def announcement : Event := killEngagedEvent trigger.name (w.killSequence + 1) env.clock

/-- The calls of a kill up to the record of its directive. -/
def callsBeforeRelease : List Call :=
  .record (announcement env trigger w) ::
    ((if cfg.switchHasDirectiveSink then [.submitDirective cancelAllScope] else []) ++
      [.record (cancelAllRecord (deliveryOf cfg env))])

/-- The world with the kill announced and its directive handed over. -/
def KernelWorld.directed : KernelWorld :=
  let announced :=
    (w.engaged.noted (.record (announcement env trigger w))).logged (announcement env trigger w)
  if cfg.switchHasDirectiveSink then announced.noted (.submitDirective cancelAllScope)
  else announced

theorem directed_ledger : (w.directed cfg env trigger).ledger = w.ledger := by
  unfold KernelWorld.directed
  split <;> rfl

theorem directed_calls :
    ((w.directed cfg env trigger).noted (.record (cancelAllRecord (deliveryOf cfg env)))).calls =
      w.calls ++ callsBeforeRelease cfg env trigger w := by
  rw [KernelWorld.directed, callsBeforeRelease]
  split <;> simp

theorem callsBeforeRelease_quiet :
    ∀ call ∈ callsBeforeRelease cfg env trigger w, call.isPage = false := by
  intro call hcall
  unfold callsBeforeRelease at hcall
  split at hcall
  · simp only [List.cons_append, List.nil_append, List.mem_cons, List.not_mem_nil,
      or_false] at hcall
    rcases hcall with rfl | rfl | rfl <;> rfl
  · simp only [List.nil_append, List.mem_cons, List.not_mem_nil, or_false] at hcall
    rcases hcall with rfl | rfl <;> rfl

variable {cfg env trigger w}

/-- A kill whose announcement raises makes no further call. -/
theorem kill_of_announcement_raises (h : w.mode ≠ .KILLED)
    (hraises : env.recordRaises (announcement env trigger w) = true) :
    newCalls w (finalState ((kill cfg env trigger).run w)) =
      [.record (announcement env trigger w)] := by
  unfold announcement at hraises ⊢
  rw [kill_of_not_killed cfg env trigger h, killEffects, EStateM.run_bind, record_run,
    if_pos hraises]
  exact newCalls_of_append rfl

theorem kill_of_announced (h : w.mode ≠ .KILLED)
    (hannounced : env.recordRaises (announcement env trigger w) = false) :
    (kill cfg env trigger).run w =
      if env.recordRaises (cancelAllRecord (deliveryOf cfg env)) then
        .error ⟨.writer, "event writer failed"⟩
          ((w.directed cfg env trigger).noted (.record (cancelAllRecord (deliveryOf cfg env))))
      else
        (releaseReservations cfg env >>= fun _ =>
          pageOperator cfg env (haltKillMessage (deliveryOf cfg env))).run
            (((w.directed cfg env trigger).noted
              (.record (cancelAllRecord (deliveryOf cfg env)))).logged
                (cancelAllRecord (deliveryOf cfg env))) := by
  unfold announcement at hannounced
  rw [kill_of_not_killed cfg env trigger h, killEffects, EStateM.run_bind, record_run, hannounced,
    if_neg Bool.false_ne_true]
  dsimp only
  rw [killAftermath_run]
  rfl

end Stages

/-! ## The condition -/

/-- A run that paged nobody has not attempted everything. -/
theorem not_killAttempts_of_quiet {cfg : KernelConfig} {env : KernelEnv} {trigger : KillTrigger}
    {w w' : KernelWorld} (h : ∀ call ∈ newCalls w w', call.isPage = false) :
    ¬ KillAttempts cfg env trigger w w' := by
  intro hattempts
  obtain ⟨message, hmem⟩ := hattempts.alert
  exact absurd (h _ hmem) (by simp [Call.isPage])

/-- What a kill leaves that gets past its releases: the calls before the release, quiet calls of
the release, and then the page. -/
structure PastReleases (cfg : KernelConfig) (env : KernelEnv) (trigger : KillTrigger)
    (w w' : KernelWorld) : Prop where
  calls : ∃ middle last,
    newCalls w w' = callsBeforeRelease cfg env trigger w ++ middle ++ last ∧
      (∀ call ∈ middle, call.isPage = false) ∧
        .dispatch .HALT_KILL (haltKillMessage (deliveryOf cfg env)) ∈ last ∧
          (cfg.switchHasStateDir = true → (.writeKillFile ∈ last ↔
            ∃ report, env.dispatch .HALT_KILL (haltKillMessage (deliveryOf cfg env)) = .ok report))
  released : cfg.switchHasLedger = true → w'.ledger.active.keys = []

/-- **A kill that gets past its releases** attempts everything exactly when the alert goes out. -/
theorem PastReleases.attempts_iff {cfg : KernelConfig} {env : KernelEnv} {trigger : KillTrigger}
    {w w' : KernelWorld} (h : PastReleases cfg env trigger w w') :
    KillAttempts cfg env trigger w w' ↔ (cfg.switchHasStateDir = true →
      ∃ report, env.dispatch .HALT_KILL (haltKillMessage (deliveryOf cfg env)) = .ok report) := by
  obtain ⟨⟨middle, last, hnew, hmiddle, halert, hfile⟩, hreleased⟩ := h
  have hearly := callsBeforeRelease_quiet cfg env trigger w
  have hpage : ∀ call : Call, call.isPage = true → (call ∈ newCalls w w' ↔ call ∈ last) := by
    intro call hcall
    rw [hnew, List.mem_append, List.mem_append]
    refine ⟨?_, Or.inr⟩
    rintro ((hmem | hmem) | hmem)
    · exact absurd (hearly call hmem) (by simp [hcall])
    · exact absurd (hmiddle call hmem) (by simp [hcall])
    · exact hmem
  have hbefore : ∀ call ∈ callsBeforeRelease cfg env trigger w, call ∈ newCalls w w' := by
    intro call hcall
    rw [hnew, List.append_assoc]
    exact List.mem_append_left _ hcall
  constructor
  · intro hattempts hdir
    exact (hfile hdir).mp ((hpage _ rfl).mp (hattempts.killFile hdir))
  · intro hsent
    refine ⟨hbefore _ (List.mem_cons_self), fun hsink => hbefore _ ?_,
      ⟨deliveryOf cfg env, hbefore _ ?_⟩, hreleased,
      ⟨haltKillMessage (deliveryOf cfg env), (hpage _ rfl).mpr halert⟩,
      fun hdir => (hpage _ rfl).mpr ((hfile hdir).mpr (hsent hdir))⟩
    · simp [callsBeforeRelease, hsink]
    · simp [callsBeforeRelease]

/-- **The release stage decides the rest**: a kill that raises there has paged nobody, any other
gets past it. -/
theorem kill_of_directed {cfg : KernelConfig} {env : KernelEnv} {trigger : KillTrigger}
    {w : KernelWorld} (h : w.mode ≠ .KILLED)
    (hannounced : env.recordRaises (announcement env trigger w) = false)
    (hdirected : env.recordRaises (cancelAllRecord (deliveryOf cfg env)) = false) :
    let w' := finalState ((kill cfg env trigger).run w)
    if cfg.switchHasLedger = true → ∀ id ∈ w.ledger.active.keys,
        env.recordRaises (reservationReleasedEvent id killReleaseReason) = false then
      PastReleases cfg env trigger w w'
    else ∀ call ∈ newCalls w w', call.isPage = false := by
  intro w'
  set v := (w.directed cfg env trigger).noted (.record (cancelAllRecord (deliveryOf cfg env)))
    with hv
  have hcalls : v.calls = w.calls ++ callsBeforeRelease cfg env trigger w :=
    directed_calls cfg env trigger w
  set x := v.logged (cancelAllRecord (deliveryOf cfg env)) with hx
  have hledger : x.ledger = w.ledger := directed_ledger cfg env trigger w
  have hw' : w' = finalState ((releaseReservations cfg env >>= fun _ =>
      pageOperator cfg env (haltKillMessage (deliveryOf cfg env))).run x) := by
    have hrun := @kill_of_announced cfg env trigger w h hannounced
    rw [hdirected, if_neg Bool.false_ne_true] at hrun
    exact congrArg finalState hrun
  have hrelease := releaseReservations_run cfg env x
  have hgrow := releaseReservations_grows cfg env x
  rw [EStateM.run_bind] at hw'
  rw [hledger] at hrelease
  cases hrun : (releaseReservations cfg env).run x with
  | error e t =>
      rw [hrun] at hw' hrelease hgrow
      obtain ⟨hwired, id, hid, hraises⟩ := hrelease
      have hnot : ¬ (cfg.switchHasLedger = true → ∀ id ∈ w.ledger.active.keys,
          env.recordRaises (reservationReleasedEvent id killReleaseReason) = false) := by
        intro hall
        rw [hall hwired id hid] at hraises
        exact absurd hraises Bool.false_ne_true
      rw [if_neg hnot, hw']
      exact newCalls_forall (v := x) hcalls (callsBeforeRelease_quiet cfg env trigger w) hgrow
  | ok a t =>
      rw [hrun] at hw' hrelease hgrow
      rw [finalState_ok] at hgrow
      dsimp only at hw'
      obtain ⟨hempty, hreleased⟩ := hrelease
      rw [if_pos hreleased]
      obtain ⟨middle, hmiddle, hquiet⟩ := hgrow
      obtain ⟨last, hlast, -⟩ := pageOperator_grows cfg env (haltKillMessage (deliveryOf cfg env)) t
      have halert := @pageOperator_alerts cfg env (haltKillMessage (deliveryOf cfg env)) t
      have hfile := @pageOperator_writes cfg env (haltKillMessage (deliveryOf cfg env)) t
      have hkept := pageOperator_ledger cfg env (haltKillMessage (deliveryOf cfg env)) t
      rw [← hw'] at hlast halert hfile hkept
      rw [newCalls_of_append hlast] at halert hfile
      refine ⟨⟨middle, last, newCalls_of_append ?_, hquiet, halert, hfile⟩, fun hwired => ?_⟩
      · have hxcalls : x.calls = w.calls ++ callsBeforeRelease cfg env trigger w := hcalls
        rw [hlast, hmiddle, hxcalls, List.append_assoc, List.append_assoc, List.append_assoc]
      · rw [hkept]
        exact hempty hwired

/-- **A kill attempts all its effects exactly when nothing cuts them short**, and is in `KILLED`
either way. -/
theorem kill_failsafe_iff (cfg : KernelConfig) (env : KernelEnv) (trigger : KillTrigger)
    (w : KernelWorld) (h : w.mode ≠ .KILLED) :
    let w' := finalState ((kill cfg env trigger).run w)
    w'.mode = .KILLED ∧
      (KillAttempts cfg env trigger w w' ↔ NothingCutsShort cfg env trigger w) := by
  intro w'
  refine ⟨kill_mode cfg env trigger w, ?_⟩
  cases hannounced : env.recordRaises (announcement env trigger w) with
  | true =>
      have hnew := @kill_of_announcement_raises cfg env trigger w h hannounced
      refine iff_of_false (not_killAttempts_of_quiet ?_) fun hcond => ?_
      · rw [hnew]
        simp [Call.isPage]
      · exact absurd (hannounced.symm.trans hcond.engaged) (by decide)
  | false =>
      cases hdirected : env.recordRaises (cancelAllRecord (deliveryOf cfg env)) with
      | true =>
          have hrun := @kill_of_announced cfg env trigger w h hannounced
          rw [hdirected, if_pos rfl] at hrun
          refine iff_of_false (not_killAttempts_of_quiet ?_) fun hcond => ?_
          · have hnew : newCalls w w' = callsBeforeRelease cfg env trigger w := by
              refine newCalls_of_append ?_
              rw [← directed_calls]
              exact congrArg (fun r => (finalState r).calls) hrun
            rw [hnew]
            exact callsBeforeRelease_quiet cfg env trigger w
          · exact absurd (hdirected.symm.trans hcond.cancelAll) (by decide)
      | false =>
          have hstage := @kill_of_directed cfg env trigger w h hannounced hdirected
          dsimp only at hstage
          split_ifs at hstage with hreleases
          · rw [hstage.attempts_iff]
            exact ⟨fun hsent => ⟨hannounced, hdirected, hreleases, hsent⟩, fun hcond => hcond.alert⟩
          · exact iff_of_false (not_killAttempts_of_quiet hstage) fun hcond =>
              hreleases hcond.releases

/-! ## A failing announcement -/

/-- A writer that refuses the announcement and nothing else. -/
def announcementRefused : KernelEnv :=
  { KernelEnv.quiet with recordRaises := fun event => event.eventType == "KillEngaged" }

/-- A refused announcement takes the directive, the releases, the alert and the `KILL` file with
it. -/
theorem kill_not_failsafe :
    ¬ ∀ (cfg : KernelConfig) (env : KernelEnv) (trigger : KillTrigger) (w : KernelWorld),
      w.mode ≠ .KILLED →
        let w' := finalState ((kill cfg env trigger).run w)
        w'.mode = .KILLED ∧ KillAttempts cfg env trigger w w' := by
  intro hclaim
  have hattempts := (hclaim sampleConfig announcementRefused .CLI sampleWorld (by decide)).2
  have hfile := hattempts.killFile rfl
  have hcalls : newCalls sampleWorld
      (finalState ((kill sampleConfig announcementRefused .CLI).run sampleWorld)) =
        [.record (killEngagedEvent "CLI" 1 0)] := by rfl
  rw [hcalls] at hfile
  simp at hfile

/-- In an environment where nothing raises, every effect of a kill is attempted. -/
theorem kill_failsafe_quiet :
    KillAttempts sampleConfig .quiet .CLI sampleWorld
      (finalState ((kill sampleConfig .quiet .CLI).run sampleWorld)) :=
  (kill_failsafe_iff sampleConfig .quiet .CLI sampleWorld (by decide)).2.mpr
    ⟨rfl, rfl, fun _ _ _ => rfl, fun _ => ⟨none, rfl⟩⟩

end Windbreak
