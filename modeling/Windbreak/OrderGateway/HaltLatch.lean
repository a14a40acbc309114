import Windbreak.OrderGateway.CycleRuns

/-!
# A halted gateway and its approvals

The seam that halts a gateway also stops it accepting approvals.  The halt after a net-short close
only sets the latch, and a recovery opens the gateway without looking at it.

* **`haltShuts_iff`** — in a run from a newly built gateway the halt always goes with closed
  approvals, and keeps them closed, exactly when no close is booked with a violation and no recovery
  of a halted gateway ends by opening it.
-/

namespace Windbreak

namespace OrderGateway

open Machine Effects

/-- A halted gateway does not accept approvals. -/
def GatewayWorld.shut (w : GatewayWorld) : Prop := w.halted = true → w.acceptingApprovals = false

/-- A close that is booked with a violation. -/
def BooksViolation (cfg : GatewayConfig) (t : ActivityTransition) : Prop :=
  ∃ env intent token ack positions, t.input = .call (.processIntent env intent token) ∧
    Books cfg env intent token t.pre ack ∧
      Violates cfg env intent (clientOrderId cfg.sha256 intent) ack positions

/-- A recovery of a halted gateway that opens it. -/
def ReopensHalted (cfg : GatewayConfig) (t : ActivityTransition) : Prop :=
  ∃ env, t.input = .call (.recover env) ∧ t.pre.halted = true ∧ Opens cfg env t.pre

/-- What breaks the pair of flags. -/
def SplitsFlags (cfg : GatewayConfig) (t : ActivityTransition) : Prop :=
  BooksViolation cfg t ∨ ReopensHalted cfg t

/-! ## The flags along one step -/

theorem Closes.halted {w w' : GatewayWorld} (h : Closes w w') (hhalted : w.halted = true) :
    w'.halted = true := by
  rcases h with h | h
  · have hsame : w'.halted = w.halted := congrArg Prod.fst h
    rw [hsame, hhalted]
  · exact congrArg Prod.fst h

theorem Closes.shut {w w' : GatewayWorld} (h : Closes w w') (hshut : w.shut) : w'.shut := by
  intro hhalted
  rcases h with h | h
  · have hsame : w'.halted = w.halted := congrArg Prod.fst h
    have haccepting : w'.acceptingApprovals = w.acceptingApprovals := congrArg Prod.snd h
    rw [haccepting]
    exact hshut (hsame ▸ hhalted)
  · exact congrArg Prod.snd h

theorem retired_flags (w : GatewayWorld) (order : TrackedOrder) :
    (retired order w).flags = w.flags := by
  unfold retired retireInflight
  dsimp only
  split
  · split <;> rfl
  · rfl

theorem runOnce_closes (env : CycleEnv) : Moves Closes (Reconciler.runOnce env) :=
  runOnce_moves (fun _ _ => .inl rfl) (fun w order => .inl (retired_flags w order))
    (fun _ => .inr rfl) env

theorem sweepOnce_closes (policy : Sweeper.SweepPolicy) (env : CycleEnv) :
    Moves Closes (Sweeper.sweepOnce policy env) :=
  sweepOnce_moves (fun _ _ => .inl rfl) (fun w order => .inl (retired_flags w order))
    (fun _ _ => .inl rfl) policy env

theorem cancelAll_closes (env : CycleEnv) : Moves Closes (cancelAll env) :=
  cancelAll_moves (fun _ _ => .inl rfl) env

/-- A call that books a violation leaves a gateway that is halted and accepts approvals. -/
theorem processIntent_of_violates {cfg : GatewayConfig} {env : GatewayEnv} {intent : OrderIntent}
    {token : SignedApprovalToken} {w : GatewayWorld} {ack : SubmissionAck}
    {positions : List Position} (hbooks : Books cfg env intent token w ack)
    (hviolates : Violates cfg env intent (clientOrderId cfg.sha256 intent) ack positions) :
    (finalState ((processIntent cfg env intent token).run w)).flags = (true, true) := by
  have haccepting : w.acceptingApprovals = true := hbooks.places.verified.passes.accepting
  rcases processIntent_latches_of_books hbooks with ⟨-, hlatched⟩ | ⟨hnone, -⟩
  · have hflags := congrArg (fun l => (l.1, l.2.1)) hlatched
    exact hflags.trans (Prod.ext rfl haccepting)
  · exact absurd ⟨positions, hviolates⟩ hnone

/-- Any other call leaves the flags alone. -/
theorem processIntent_flags {cfg : GatewayConfig} {env : GatewayEnv} {intent : OrderIntent}
    {token : SignedApprovalToken} {w : GatewayWorld}
    (h : ∀ ack positions, Books cfg env intent token w ack →
      ¬ Violates cfg env intent (clientOrderId cfg.sha256 intent) ack positions) :
    (finalState ((processIntent cfg env intent token).run w)).flags = w.flags := by
  by_cases hbooks : ∃ ack, Books cfg env intent token w ack
  · obtain ⟨ack, hack⟩ := hbooks
    rcases processIntent_latches_of_books hack with ⟨⟨positions, hviolates⟩, -⟩ | ⟨-, hbooked⟩
    · exact absurd hviolates (h ack positions hack)
    · exact congrArg (fun l => (l.1, l.2.1)) hbooked
  · have hsame := processIntent_latches_of_not_books fun ack hack => hbooks ⟨ack, hack⟩
    exact congrArg (fun l => (l.1, l.2.1)) hsame

/-- **The halt latch is never lifted.** -/
theorem activityStep_halted (cfg : GatewayConfig) (w : GatewayWorld) (activity : Activity)
    (h : w.halted = true) : (activityStep cfg w activity).2.halted = true := by
  cases activity with
  | call call =>
      cases call with
      | processIntent env intent token =>
          rw [activityStep, callStep, settle_snd]
          have hrefused : ∀ ack, ¬ Books cfg env intent token w ack := fun ack hbooks => by
            have hrunning := hbooks.places.verified.passes.running
            rw [hrunning] at h
            exact absurd h Bool.false_ne_true
          have hflags := processIntent_flags fun ack positions hbooks => absurd hbooks (hrefused ack)
          have hsame := congrArg Prod.fst hflags
          exact hsame.trans h
      | recover env =>
          rw [activityStep, callStep, settle_snd]
          by_cases hopens : Opens cfg env w
          · have hflags := congrArg Prod.fst (recover_of_opens hopens)
            exact hflags.trans h
          · exact (recover_of_not_opens hopens).halted h
      | venueMoves openOrders => exact h
  | reconcile env =>
      rw [activityStep, settle_snd]
      exact (runOnce_closes env w).halted h
  | sweep policy env =>
      rw [activityStep, settle_snd]
      exact (sweepOnce_closes policy env w).halted h
  | cancelAll env =>
      rw [activityStep, settle_snd]
      exact (cancelAll_closes env w).halted h
  | markHalted => rfl

/-- **One step keeps the gateway shut** exactly when it does not split the flags. -/
theorem activityStep_shut (cfg : GatewayConfig) {w : GatewayWorld} (activity : Activity)
    (h : w.shut) :
    (activityStep cfg w activity).2.shut ↔
      ¬ SplitsFlags cfg (transition (activityStep cfg) w activity) := by
  cases activity with
  | call call =>
      cases call with
      | processIntent env intent token =>
          rw [activityStep, callStep, settle_snd]
          by_cases hviolation : ∃ ack positions, Books cfg env intent token w ack ∧
              Violates cfg env intent (clientOrderId cfg.sha256 intent) ack positions
          · obtain ⟨ack, positions, hbooks, hviolates⟩ := hviolation
            have hflags := processIntent_of_violates hbooks hviolates
            refine iff_of_false (fun hshut => ?_) (not_not.mpr (.inl ?_))
            · have haccepting := (congrArg Prod.snd hflags).symm.trans
                (hshut (congrArg Prod.fst hflags))
              exact absurd haccepting Bool.noConfusion
            · exact ⟨env, intent, token, ack, positions, rfl, hbooks, hviolates⟩
          · have hflags := processIntent_flags fun ack positions hbooks hviolates =>
              hviolation ⟨ack, positions, hbooks, hviolates⟩
            refine iff_of_true (Closes.shut (.inl hflags) h) ?_
            rintro (⟨env', intent', token', ack, positions, ⟨⟩, hbooks, hviolates⟩ | ⟨env', ⟨⟩, -⟩)
            exact hviolation ⟨ack, positions, hbooks, hviolates⟩
      | recover env =>
          rw [activityStep, callStep, settle_snd]
          by_cases hopens : Opens cfg env w
          · have hflags := recover_of_opens hopens
            by_cases hhalted : w.halted = true
            · refine iff_of_false (fun hshut => ?_) (not_not.mpr (.inr ⟨env, rfl, hhalted, hopens⟩))
              have haccepting := (congrArg Prod.snd hflags).symm.trans
                (hshut ((congrArg Prod.fst hflags).trans hhalted))
              exact absurd haccepting Bool.noConfusion
            · refine iff_of_true (fun hpost => ?_) ?_
              · exact absurd ((congrArg Prod.fst hflags).symm.trans hpost) hhalted
              · rintro (⟨env', intent', token', ack, positions, ⟨⟩, -⟩ | ⟨env', -, hhalt, -⟩)
                exact hhalted hhalt
          · refine iff_of_true ((recover_of_not_opens hopens).shut h) ?_
            rintro (⟨env', intent', token', ack, positions, ⟨⟩, -⟩ | ⟨env', ⟨⟩, -, hopens'⟩)
            exact hopens hopens'
      | venueMoves openOrders =>
          refine iff_of_true h ?_
          rintro (⟨env', intent', token', ack, positions, ⟨⟩, -⟩ | ⟨env', ⟨⟩, -⟩)
  | reconcile env =>
      rw [activityStep, settle_snd]
      refine iff_of_true ((runOnce_closes env w).shut h) ?_
      rintro (⟨env', intent', token', ack, positions, ⟨⟩, -⟩ | ⟨env', ⟨⟩, -⟩)
  | sweep policy env =>
      rw [activityStep, settle_snd]
      refine iff_of_true ((sweepOnce_closes policy env w).shut h) ?_
      rintro (⟨env', intent', token', ack, positions, ⟨⟩, -⟩ | ⟨env', ⟨⟩, -⟩)
  | cancelAll env =>
      rw [activityStep, settle_snd]
      refine iff_of_true ((cancelAll_closes env w).shut h) ?_
      rintro (⟨env', intent', token', ack, positions, ⟨⟩, -⟩ | ⟨env', ⟨⟩, -⟩)
  | markHalted =>
      refine iff_of_true (fun _ => rfl) ?_
      rintro (⟨env', intent', token', ack, positions, ⟨⟩, -⟩ | ⟨env', ⟨⟩, -⟩)

/-! ## Runs -/

/-- Every state of a run is shut, and none that follows a halted one accepts approvals. -/
def HaltShuts (cfg : GatewayConfig) (w : GatewayWorld) (activities : List Activity) : Prop :=
  (∀ t ∈ trace (activityStep cfg) w activities, t.post.shut) ∧
    ∀ before between after, activities = before ++ between ++ after →
      (run (activityStep cfg) w before).halted = true →
        (run (activityStep cfg) w (before ++ between)).acceptingApprovals = false

theorem run_append_halted (cfg : GatewayConfig) (w : GatewayWorld) (before between : List Activity)
    (h : (run (activityStep cfg) w before).halted = true) :
    (run (activityStep cfg) w (before ++ between)).halted = true := by
  induction before generalizing w with
  | nil =>
      exact run_invariant (I := fun w : GatewayWorld => w.halted = true)
        (fun w activity => activityStep_halted cfg w activity) h between
  | cons activity rest ih => exact ih _ h

/-- A newly built gateway stays shut along a run as long as it is shut after each step. -/
theorem run_shut {cfg : GatewayConfig} {w : GatewayWorld} {activities : List Activity}
    (hw : w.shut) (h : ∀ t ∈ trace (activityStep cfg) w activities, t.post.shut) :
    (run (activityStep cfg) w activities).shut :=
  run_invariant_of_guard (I := GatewayWorld.shut) (G := fun t => t.post.shut)
    (fun _ _ _ hpost => hpost) hw h

theorem haltShuts_iff (cfg : GatewayConfig) (w : GatewayWorld) (activities : List Activity) :
    HaltShuts cfg (w.rebuilt cfg) activities ↔
      ∀ t ∈ trace (activityStep cfg) (w.rebuilt cfg) activities, ¬ SplitsFlags cfg t := by
  have hstart : (w.rebuilt cfg).shut := fun h => absurd h Bool.false_ne_true
  have hkept := trace_kept_iff (I := fun _ => True) (B := GatewayWorld.shut)
    (G := fun t => ¬ SplitsFlags cfg t) (fun _ _ _ => trivial)
    (fun u activity _ hu => activityStep_shut cfg activity hu) trivial hstart activities
  rw [← hkept]
  refine ⟨And.left, fun h => ⟨h, ?_⟩⟩
  rintro before between after rfl hhalted
  have hprefix : ∀ t ∈ trace (activityStep cfg) (w.rebuilt cfg) (before ++ between), t.post.shut :=
    fun t ht => h t (by rw [trace_append]; exact List.mem_append_left _ ht)
  exact run_shut hstart hprefix (run_append_halted cfg _ before between hhalted)

/-- A gateway without a ledger reader, halted by the seam and then recovered, accepts approvals. -/
theorem recovered_halt_accepts :
    ¬ ∀ (cfg : GatewayConfig) (w : GatewayWorld) (activities : List Activity),
      HaltShuts cfg (w.rebuilt cfg) activities := by
  intro h
  have hrun := (h { sampleGateway with hasLedgerReader := false }
    (GatewayWorld.fresh sampleGateway) [.markHalted, .call (.recover quietEnv)]).2
      [.markHalted] [.call (.recover quietEnv)] [] rfl rfl
  exact absurd hrun (by decide)

end OrderGateway

end Windbreak
