import Windbreak.RiskKernel.AckQueue

/-!
# What a granted acknowledgement covers

A grant is remembered under the intent's id.  An order above the operator's threshold passes when
its intent id is among the granted ones, and the cost that is compared with the threshold is the
order's own: the cost the operator was shown is never read again.

* **`BoundByAck`** — an order approved above the threshold has a grant that was given in time and
  has not lapsed since, and costs no more than the request showed.
* **`ackBinds_of_no_costlier`** — over every run in which no intent that holds a grant is proposed
  again above the cost its request showed, every approval is bound so.
* **`costlier_order_under_grant`** — twice the size under the same intent id passes.
-/

namespace Windbreak

open Machine Effects

/-! ## Orders that need an acknowledgement -/

/-- In a live mode, the order's worst-case cost is above the operator's threshold. -/
structure NeedsAck (intent : OrderIntent) (context : EvaluationContext) (cost : MoneyMicros) :
    Prop where
  live : context.mode ∈ liveTradingModes
  worst_case : orderCost intent context = .ok cost
  above : ∃ threshold, context.limits.requireHumanAckAboveMicros = some threshold ∧
    threshold < cost

/-- An order that needs an acknowledgement passes the check only with its intent's id on the list
of acknowledged ones. -/
theorem humanAckSatisfied_passed {intent : OrderIntent} {context : EvaluationContext}
    {cost : MoneyMicros} (h : runCheck humanAckSatisfied intent context = none)
    (hneeds : NeedsAck intent context cost) : intent.intentId ∈ context.acknowledgedIntentIds := by
  obtain ⟨threshold, hthreshold, habove⟩ := hneeds.above
  rw [runCheck_eq_none rfl] at h
  simp only [hthreshold] at h
  rw [if_neg (not_not.mpr hneeds.live)] at h
  obtain ⟨cost', hcost', hk⟩ := withOrderCost_passed.mp h
  rw [hneeds.worst_case, Except.ok.injEq] at hcost'
  subst hcost'
  by_contra hunacknowledged
  rw [if_pos ⟨habove, hunacknowledged⟩] at hk
  simp at hk

/-! ## The run and its history -/

/-- The transitions of a run that remembers its operations. -/
abbrev AckStep := Transition (KernelWorld × List AckOp) AckOp (Option KernelError)

/-- **An order approved above the threshold is bound by a grant**: a request for its intent was
granted before its expiry and stands granted, and the order costs no more than it showed. -/
def BoundByAck (t : AckStep) : Prop :=
  ∀ env intent context cost, t.input = .submit env intent context → NeedsAck intent context cost →
    t.post.1.backing ≠ t.pre.1.backing →
      ∃ id r, t.pre.1.ackRecords.get? id = some r ∧ r.pending.intentId = intent.intentId ∧
        r.status = .GRANTED ∧
        (∃ env' now, AckOp.grant env' id now ∈ t.pre.2 ∧ now < r.pending.expiresAt) ∧
        cost ≤ r.pending.worstCaseCost

/-- No intent that holds a grant is submitted above the threshold at a higher worst-case cost than
the granted request showed. -/
def NoCostlier (t : AckStep) : Prop :=
  ∀ env intent context cost, t.input = .submit env intent context → NeedsAck intent context cost →
    ∀ id r, t.pre.1.ackRecords.get? id = some r → r.status = .GRANTED →
      r.pending.intentId = intent.intentId → cost ≤ r.pending.worstCaseCost

/-- Every granted request was granted in the run, before its expiry. -/
def Answered (s : KernelWorld × List AckOp) : Prop :=
  ∀ id r, s.1.ackRecords.get? id = some r → r.status = .GRANTED →
    ∃ env now, AckOp.grant env id now ∈ s.2 ∧ now < r.pending.expiresAt

theorem remembering_answered (cfg : KernelConfig) (s : KernelWorld × List AckOp) (op : AckOp)
    (h : Answered s) : Answered (remembering (ackEffect cfg) s op).2 := by
  -- an older grant is still in the longer history
  have hold : ∀ id r, s.1.ackRecords.get? id = some r → r.status = .GRANTED →
      ∃ env now, AckOp.grant env id now ∈ s.2 ++ [op] ∧ now < r.pending.expiresAt := by
    intro id r hr hgranted
    obtain ⟨env, now, hmem, hlive⟩ := h id r hr hgranted
    exact ⟨env, now, List.mem_append_left _ hmem, hlive⟩
  intro id r hr hgranted
  simp only [remembering] at hr ⊢
  cases ackEffect_requests cfg s.1 op with
  | same hsame =>
      rw [hsame] at hr
      exact hold id r hr hgranted
  | opened p hnone hset =>
      rw [hset, OrderedDict.get?_set] at hr
      split_ifs at hr with hid
      · cases hr
        cases hgranted
      · exact hold id r hr hgranted
  | granted env id' now r' hop hr' hpending hlive hset =>
      rw [hset, OrderedDict.get?_set] at hr
      split_ifs at hr with hid
      · cases hr
        refine ⟨env, now, ?_, hlive⟩
        rw [hop, hid]
        exact List.mem_append_right _ (List.mem_singleton_self _)
      · exact hold id r hr hgranted
  | lapsed hlapse =>
      rcases hlapse id with hsame | ⟨r₀, -, -, hlapsed⟩
      · rw [hsame] at hr
        exact hold id r hr hgranted
      · rw [hlapsed] at hr
        cases hr
        cases hgranted

/-- A submission that reserves or signs anything was admitted under the queue's grants. -/
theorem submit_admitted {cfg : KernelConfig} {env : KernelEnv} {intent : OrderIntent}
    {context : EvaluationContext} {w : KernelWorld}
    (h : (finalState ((submit cfg env intent context).run w)).backing ≠ w.backing) :
    ∃ amount, Admitted w.ledger intent (acknowledgedContext w.ackRecords context) amount := by
  rw [submit_backing] at h
  cases hrun : (approve cfg env intent (acknowledgedContext w.ackRecords context)).run w with
  | ok outcome w' =>
      rw [hrun] at h
      rcases approve_ok hrun with ⟨-, -, rfl⟩ | ⟨amount, hadm, -⟩
      · exact absurd rfl h
      · exact ⟨amount, hadm⟩
  | error e w' =>
      obtain ⟨amount, hadm, -⟩ := approve_error hrun
      exact ⟨amount, hadm⟩

/-- **An order approved above the threshold has a grant on file.** -/
theorem granted_of_submit {cfg : KernelConfig} {env : KernelEnv} {intent : OrderIntent}
    {context : EvaluationContext} {cost : MoneyMicros} {w : KernelWorld}
    (hneeds : NeedsAck intent context cost)
    (h : (finalState ((submit cfg env intent context).run w)).backing ≠ w.backing) :
    ∃ id r, w.ackRecords.get? id = some r ∧ r.status = .GRANTED ∧
      r.pending.intentId = intent.intentId := by
  obtain ⟨amount, hadm⟩ := submit_admitted h
  have hpassed : runCheck humanAckSatisfied intent
      (effectiveContext w.ledger (acknowledgedContext w.ackRecords context)) = none :=
    evaluateIntent_passed hadm.passed (by simp [defaultChecks])
  have hmem := humanAckSatisfied_passed hpassed
    ⟨hneeds.live, hneeds.worst_case, hneeds.above⟩
  exact mem_acknowledgedIntentIds.mp hmem

/-- **Over every run in which no intent that holds a grant is proposed again above the cost its
request showed, every approval above the threshold is bound by a grant.** -/
theorem ackBinds_of_no_costlier (cfg : KernelConfig) (w₀ : KernelWorld)
    (hempty : w₀.ackRecords = .empty) (ops : List AckOp)
    (h : ∀ t ∈ trace (remembering (ackEffect cfg)) (w₀, []) ops, NoCostlier t) :
    ∀ t ∈ trace (remembering (ackEffect cfg)) (w₀, []) ops, BoundByAck t := by
  have hstart : Answered (w₀, []) := by
    intro id r hr
    rw [hempty] at hr
    simp at hr
  have hbound : ∀ t ∈ trace (remembering (ackEffect cfg)) (w₀, []) ops,
      NoCostlier t → BoundByAck t := by
    refine trace_forall (I := Answered) (remembering_answered cfg) ?_ hstart ops
    intro s op hs hcheap env intent context cost hinput hneeds hbacking
    simp only [transition] at hinput hbacking hcheap ⊢
    subst hinput
    simp only [remembering, ackEffect, settle_snd] at hbacking
    obtain ⟨id, r, hr, hgranted, hid⟩ := granted_of_submit hneeds hbacking
    exact ⟨id, r, hr, hid, hgranted, hs id r hr hgranted,
      hcheap env intent context cost rfl hneeds id r hr hgranted hid⟩
  exact fun t ht => hbound t ht (h t ht)

/-! ## A grant and a costlier order -/

/-- The sample order is held, and the request granted. -/
def heldThenGranted : List AckOp :=
  [submitAboveThreshold 1700000000, .grant .quiet "" 1700000001]

/-- The sample order at twice the size, under the same intent id. -/
def doubledIntent : OrderIntent := { sampleIntent with size := ⟨2000⟩ }

/-- The request on file shows the cost of the sample order. -/
theorem shown_after_grant {id : String} {r : AckRecord}
    (hr : (run (remembering (ackEffect sampleConfig)) (sampleWorld, [])
      heldThenGranted).1.ackRecords.get? id = some r) : r.pending.worstCaseCost = ⟨5000000⟩ := by
  have hall : ((run (remembering (ackEffect sampleConfig)) (sampleWorld, [])
      heldThenGranted).1.ackRecords.values.all
        fun r => decide (r.pending.worstCaseCost = ⟨5000000⟩)) = true := by decide +kernel
  have hmem := List.all_eq_true.mp hall r (OrderedDict.mem_values_iff.mpr ⟨id, hr⟩)
  exact of_decide_eq_true hmem

/-- The order that was granted is submitted again. -/
def sameOrderAgain : List AckOp := heldThenGranted ++ [submitAboveThreshold 1700000002]

/-- The order that was granted is approved, and bound. -/
theorem same_order_is_bound :
    (run (remembering (ackEffect sampleConfig)) (sampleWorld, []) sameOrderAgain).1.issued.length =
        1 ∧
      ∀ t ∈ trace (remembering (ackEffect sampleConfig)) (sampleWorld, []) sameOrderAgain,
        BoundByAck t := by
  refine ⟨by decide +kernel,
    ackBinds_of_no_costlier sampleConfig sampleWorld rfl sameOrderAgain ?_⟩
  intro t ht env intent context cost hinput hneeds id r hr hgranted hid
  rw [sameOrderAgain, trace_append, List.mem_append] at ht
  rcases ht with ht | ht
  · simp only [heldThenGranted, trace_cons, trace_nil, List.mem_cons, List.not_mem_nil,
      or_false] at ht
    rcases ht with rfl | rfl
    · simp [transition, sampleWorld, KernelWorld.fresh] at hr
    · cases hinput
  · simp only [trace_cons, trace_nil, List.mem_singleton] at ht
    subst ht
    have hshown := shown_after_grant hr
    cases hinput
    have hcost : cost = ⟨5000000⟩ := (Except.ok.inj hneeds.worst_case).symm
    rw [hcost, hshown]
    decide

/-- Twice the size passes under the grant of the sample order. -/
theorem costlier_order_under_grant :
    ¬ ∀ (cfg : KernelConfig) (w₀ : KernelWorld), w₀.ackRecords = .empty → ∀ ops,
      ∀ t ∈ trace (remembering (ackEffect cfg)) (w₀, []) ops, BoundByAck t := by
  intro h
  let s := run (remembering (ackEffect sampleConfig)) (sampleWorld, []) heldThenGranted
  let doubled : AckOp := .submit .quiet doubledIntent (sampleContextAt 1700000002 (some 1))
  have hbound : BoundByAck (transition (remembering (ackEffect sampleConfig)) s doubled) :=
    h sampleConfig sampleWorld rfl (heldThenGranted ++ [doubled]) _
      (mem_trace.mpr ⟨heldThenGranted, [], rfl, rfl⟩)
  have hneeds : NeedsAck doubledIntent (sampleContextAt 1700000002 (some 1)) ⟨10000000⟩ :=
    ⟨by decide, rfl, ⟨1⟩, rfl, by decide⟩
  have hissued : ((remembering (ackEffect sampleConfig) s doubled).2.1.issued.length ==
      s.1.issued.length + 1) = true := by decide +kernel
  have hbacking : (remembering (ackEffect sampleConfig) s doubled).2.1.backing ≠ s.1.backing := by
    intro hsame
    have hlength := congrArg (fun b => b.2.length) hsame
    simp only [KernelWorld.backing] at hlength
    rw [beq_iff_eq, hlength] at hissued
    omega
  obtain ⟨id, r, hr, -, -, -, hcost⟩ := hbound _ _ _ _ rfl hneeds hbacking
  rw [shown_after_grant hr] at hcost
  exact absurd hcost (by decide)

end Windbreak
