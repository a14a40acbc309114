import Windbreak.OrderGateway.CycleLifecycle

/-!
# The lifecycle along every run

Calls, recoveries and cycles each go on from where the ledger has the order, with one exception: a
call that is handed an intent again, and finds no cached acknowledgement of it, starts over.

* **`lifecycle_iff`** — along a run from a new gateway, restarts and failures included, the records
  of every order are one path exactly when no call starts over an order the ledger knows.
-/

namespace Windbreak

namespace OrderGateway

open Machine Effects

/-! ## The machine -/

/-- An activity, or a process rebuilt over what survived the last one. -/
inductive SystemOp where
  | activity (activity : Activity)
  | restart

/-- One operation across the lives of a gateway and its cycles. -/
def systemStep (cfg : GatewayConfig) (w : GatewayWorld) :
    SystemOp → Option GatewayError × GatewayWorld
  | .activity activity => activityStep cfg w activity
  | .restart => (none, w.rebuilt cfg)

/-- The transitions across the lives of a gateway. -/
abbrev SystemTransition := Transition GatewayWorld SystemOp (Option GatewayError)

/-- A transition that starts an order over. -/
def RestartsPath (cfg : GatewayConfig) (t : SystemTransition) : Prop :=
  ∃ env intent token, t.input = .activity (.call (.processIntent env intent token)) ∧
    StartsOver cfg env intent token t.pre

/-- The records of every order are one path. -/
def LawfulLifecycles (w : GatewayWorld) : Prop := ∀ coid, OnePath coid w

/-! ## One operation -/

/-- **Every operation keeps the books.** -/
theorem systemStep_bookkept (cfg : GatewayConfig) (w : GatewayWorld) (op : SystemOp)
    (hw : Bookkept w) : Bookkept (systemStep cfg w op).2 := by
  cases op with
  | restart => exact rebuilt_bookkept hw cfg
  | activity activity =>
      cases activity with
      | call call =>
          cases call with
          | processIntent env intent token =>
              rw [systemStep, activityStep, callStep, settle_snd]
              exact processIntent_bookkept cfg env intent token w hw
          | recover env =>
              rw [systemStep, activityStep, callStep, settle_snd]
              exact recover_bookkept cfg env w hw
          | venueMoves openOrders => exact hw.of_eq rfl rfl rfl rfl
      | reconcile env =>
          rw [systemStep, activityStep, settle_snd]
          exact runOnce_bookkept env w hw
      | sweep policy env =>
          rw [systemStep, activityStep, settle_snd]
          exact sweepOnce_bookkept policy env w hw
      | cancelAll env =>
          rw [systemStep, activityStep, settle_snd]
          exact cancelAll_bookkept env w hw
      | markHalted => exact hw.of_eq rfl rfl rfl rfl

/-- **An operation keeps every lifecycle lawful** exactly when it starts no order over. -/
theorem systemStep_lawful (cfg : GatewayConfig) {w : GatewayWorld} (op : SystemOp)
    (hw : Bookkept w) (hpaths : LawfulLifecycles w) :
    LawfulLifecycles (systemStep cfg w op).2 ↔
      ¬ RestartsPath cfg (transition (systemStep cfg) w op) := by
  have hother : (∀ env intent token, op ≠ .activity (.call (.processIntent env intent token))) →
      ¬ RestartsPath cfg (transition (systemStep cfg) w op) := by
    rintro hop ⟨env, intent, token, hinput, -⟩
    exact hop env intent token hinput
  cases op with
  | restart => exact iff_of_true hpaths (hother (by simp))
  | activity activity =>
      cases activity with
      | call call =>
          cases call with
          | processIntent env intent token =>
              rw [systemStep, activityStep, callStep, settle_snd]
              by_cases hover : StartsOver cfg env intent token w
              · refine iff_of_false (fun hlawful => ?_)
                  (not_not.mpr ⟨env, intent, token, rfl, hover⟩)
                exact processIntent_of_startsOver hover (hlawful _)
              · refine iff_of_true (fun c => processIntent_onePath hover (hpaths c)) ?_
                rintro ⟨env', intent', token', ⟨⟩, hover'⟩
                exact hover hover'
          | recover env =>
              rw [systemStep, activityStep, callStep, settle_snd]
              exact iff_of_true (fun c => recover_onePath cfg env (hpaths c)) (hother (by simp))
          | venueMoves openOrders => exact iff_of_true hpaths (hother (by simp))
      | reconcile env =>
          rw [systemStep, activityStep, settle_snd]
          exact iff_of_true (fun c => runOnce_onePath env hw (hpaths c)) (hother (by simp))
      | sweep policy env =>
          rw [systemStep, activityStep, settle_snd]
          exact iff_of_true (fun c => sweepOnce_onePath policy env hw (hpaths c)) (hother (by simp))
      | cancelAll env =>
          rw [systemStep, activityStep, settle_snd]
          have hhistory : ∀ c, Frames (GatewayWorld.history c) (cancelAll env) := fun c =>
            cancelAll_moves (fun _ _ => rfl) env
          exact iff_of_true (fun c => (hpaths c).of_history (hhistory c w)) (hother (by simp))
      | markHalted => exact iff_of_true hpaths (hother (by simp))

/-! ## Every run -/

theorem fresh_lawful (cfg : GatewayConfig) : LawfulLifecycles (.fresh cfg) := fun _ =>
  ⟨.INTENT_CREATED, .nil _⟩

/-- **The records of every order stay one path exactly when no call starts an order over.** -/
theorem lifecycle_iff (cfg : GatewayConfig) (ops : List SystemOp) :
    (∀ t ∈ trace (systemStep cfg) (.fresh cfg) ops, LawfulLifecycles t.post) ↔
      ∀ t ∈ trace (systemStep cfg) (.fresh cfg) ops, ¬ RestartsPath cfg t :=
  trace_kept_iff (I := Bookkept) (B := LawfulLifecycles) (G := fun t => ¬ RestartsPath cfg t)
    (systemStep_bookkept cfg) (fun _ op hw hpaths => systemStep_lawful cfg op hw hpaths)
    (fresh_bookkept cfg) (fresh_lawful cfg) ops

/-! ## A refused order starts over -/

/-- Past its first record a path never shows the start again. -/
theorem ledgeredPath_tail {coid : String} {state target : OrderState} {records : List Event}
    (h : LedgeredPath coid state records target) :
    ∀ record ∈ records.tail, record.str? "from_state" ≠ some OrderState.INTENT_CREATED.name := by
  have hlater : ∀ {s t : OrderState} {rest : List Event}, s ≠ .INTENT_CREATED →
      LedgeredPath coid s rest t →
        ∀ record ∈ rest, record.str? "from_state" ≠ some OrderState.INTENT_CREATED.name := by
    intro s t rest hs hrest
    induction hrest with
    | nil => exact fun record hrecord => absurd hrecord List.not_mem_nil
    | cons hedge _ ih =>
        obtain ⟨event, hlegal, -, rfl⟩ := hedge
        rw [List.forall_mem_cons]
        refine ⟨fun hfrom => hs ?_, ih (OrderState.ne_created_of_transition hlegal)⟩
        rw [edgeEvent_fromState] at hfrom
        exact OrderState.name_injective (Option.some.inj hfrom)
  cases h with
  | nil => exact fun record hrecord => absurd hrecord List.not_mem_nil
  | cons hedge hrest =>
      obtain ⟨event, hlegal, -, rfl⟩ := hedge
      exact hlater (OrderState.ne_created_of_transition hlegal) hrest

/-- The submitter refuses an order, and a process built anew is handed the intent again. -/
def refusedThenRetried : List SystemOp :=
  [.activity (.call (.recover quietEnv)),
    .activity (.call (present sampleGateway { quietEnv with placement := .refused "busy" } 1)),
    .restart, .activity (.call (.recover quietEnv))]

/-- The second presentation records the order's approval again. -/
theorem retried_order_starts_over :
    ¬ ∀ (cfg : GatewayConfig) (ops : List SystemOp),
      ∀ t ∈ trace (systemStep cfg) (.fresh cfg) ops, LawfulLifecycles t.post := by
  intro h
  let s := run (systemStep sampleGateway) (.fresh sampleGateway) refusedThenRetried
  let last : SystemOp := .activity (.call (present sampleGateway quietEnv 2))
  let t := transition (systemStep sampleGateway) s last
  obtain ⟨state, hpath⟩ : OnePath (clientOrderId sampleGateway.sha256 sampleIntent) t.post :=
    h sampleGateway (refusedThenRetried ++ [last]) t
      (mem_trace.mpr ⟨refusedThenRetried, [], rfl, rfl⟩) _
  have hagain : ∃ record ∈ (t.post.history (sampleGateway.sha256 [])).tail,
      record.str? "from_state" = some OrderState.INTENT_CREATED.name := by
    decide +kernel
  obtain ⟨record, hrecord, hfrom⟩ := hagain
  exact ledgeredPath_tail hpath record hrecord hfrom

end OrderGateway

end Windbreak
