import Windbreak.RiskKernel.LedgerRuns

/-!
# The floor after an approval

The floor check compares the worst-case equity *before* the reservation with the charge of the
order; the reservation then made is the order's full worst-case cost.  For an opening order the two
prices are one, and the equity recomputed from the live reservation total stays above the floor.
A `sell_to_close` is charged its fees and the rounding buffer only, yet its reservation holds its
notional as well, so afterwards the recomputed equity may be below the floor.

* **`floorKept`** — the property, of one transition.
* **`floorAfforded`** — the condition, on the intent, the context and the ledger before the call.
* **`floorKept_iff_floorAfforded`** — they agree on every transition of every run.
-/

namespace Windbreak

open Machine Effects

/-- Worst-case equity recomputed from the context's account and the ledger's live total. -/
def liveEquity (context : EvaluationContext) (ledger : ReservationLedger) : MoneyMicros :=
  equityOf (context.account.withReserved ledger.totalReserved)

/-- **The property**: right after an approval that hands over a token, the recomputed worst-case
equity is at or above the context's floor. -/
def floorKept (t : LedgerTransition) : Bool :=
  match t.input, t.output with
  | .approve _ _ context, .approval ⟨_, some _⟩ =>
    decide (context.limits.floor ≤ liveEquity context t.post.ledger)
  | _, _ => true

/-- What is left above the floor, before the call, once a close's fees and buffer are charged. -/
def closeHeadroom (ledger : ReservationLedger) (context : EvaluationContext) : ℤ :=
  (liveEquity context ledger).value - context.limits.floor.value
    - ((context.fees.maxTradingFee.map (·.value)).getD 0
      + (context.fees.maxSettlementFee.map (·.value)).getD 0
      + context.limits.roundingBuffer.value)

/-- **The condition**: the order opens, or its notional fits in the headroom left above the floor
after its fees and buffer. -/
def floorAfforded (t : LedgerTransition) : Bool :=
  match t.input, t.output with
  | .approve _ intent context, .approval ⟨_, some _⟩ =>
    decide (intent.action ∈ openingActions) ||
      decide (intent.price.value * intent.size.value ≤ closeHeadroom t.pre.ledger context)
  | _, _ => true

/-- The recomputed equity falls by exactly the reserved cost. -/
theorem liveEquity_add {context : EvaluationContext} {ledger : ReservationLedger}
    {r : Reservation} (hfresh : r.intentId ∉ ledger.seenIntentIds) :
    (liveEquity context (ledger.add r)).value =
      (liveEquity context ledger).value - r.amount.value := by
  rw [liveEquity, ReservationLedger.totalReserved_add hfresh]
  exact equityOf_withReserved_add _ _ _

/-- An admitted open was charged in full by the floor check. -/
theorem Admitted.floor_of_opening {ledger : ReservationLedger} {intent : OrderIntent}
    {context : EvaluationContext} {amount : MoneyMicros}
    (h : Admitted ledger intent context amount) (hopen : intent.action ∈ openingActions) :
    context.limits.floor.value ≤ (liveEquity context ledger).value - amount.value := by
  have hpass : runCheck floorInvariant intent (effectiveContext ledger context) = none :=
    evaluateIntent_passed h.passed (by simp [defaultChecks])
  obtain ⟨trading, settlement, charged, ht, hs, hcharged, hfloor⟩ := floorInvariant_passed hpass
  obtain ⟨trading', settlement', ht', hs', hamount⟩ := orderCost_ok.mp h.cost
  rw [floorCost, if_pos hopen] at hcharged
  have htt : trading = trading' := Option.some.inj (ht.symm.trans ht')
  have hss : settlement = settlement' := Option.some.inj (hs.symm.trans hs')
  have hcost : amount = charged := by
    rw [hamount, ← Option.some.inj hcharged, htt, hss]
    rfl
  rw [hcost]
  exact hfloor

/-- The reserved cost of any order is its notional with fees and buffer. -/
theorem orderCost_value {intent : OrderIntent} {context : EvaluationContext}
    {amount : MoneyMicros} (h : orderCost intent context = .ok amount) :
    amount.value = intent.price.value * intent.size.value
      + ((context.fees.maxTradingFee.map (·.value)).getD 0
        + (context.fees.maxSettlementFee.map (·.value)).getD 0
        + context.limits.roundingBuffer.value) := by
  obtain ⟨trading, settlement, ht, hs, rfl⟩ := orderCost_ok.mp h
  simp only [worstCaseCost, IntUnit.value_add, moneyFromPriceAndCount_value, ht, hs,
    Option.map_some, Option.getD_some]
  omega

theorem floorKept_iff_step (cfg : KernelConfig) (w : KernelWorld) (op : LedgerOp) :
    floorKept (transition (ledgerStep cfg) w op) =
      floorAfforded (transition (ledgerStep cfg) w op) := by
  cases op with
  | approve env intent context =>
      rcases ledgerStep_approve cfg w env intent context with
        ⟨e, hout⟩ | ⟨decision, hout⟩ | ⟨decision, amount, hadm, hout, hledger⟩
      · simp only [floorKept, floorAfforded, transition, hout]
      · simp only [floorKept, floorAfforded, transition, hout]
      · have hlive :
            (liveEquity context (ledgerStep cfg w (.approve env intent context)).2.ledger).value =
              (liveEquity context w.ledger).value - amount.value := by
          rw [hledger]
          exact liveEquity_add hadm.fresh_id
        have hcost := orderCost_value hadm.cost
        simp only [floorKept, floorAfforded, transition, hout]
        rw [Bool.eq_iff_iff, Bool.or_eq_true, decide_eq_true_eq, decide_eq_true_eq,
          decide_eq_true_eq, IntUnit.le_iff, hlive]
        constructor
        · intro hfloor
          right
          simp only [closeHeadroom]
          omega
        · rintro (hopen | hfits)
          · exact hadm.floor_of_opening hopen
          · simp only [closeHeadroom] at hfits
            omega
  | release env id reason => simp [floorKept, floorAfforded, transition, ledgerStep]
  | releaseAllActive env reason => simp [floorKept, floorAfforded, transition, ledgerStep]
  | adjust env id remaining => simp [floorKept, floorAfforded, transition, ledgerStep]
  | expireDue env now => simp [floorKept, floorAfforded, transition, ledgerStep]

/-- **The floor holds after an approval exactly when the order opens or its notional fits.**  On
every transition of every run of the ledger and the pipeline, from any world, with the writer and
the issuer raising wherever they may. -/
theorem floorKept_iff_floorAfforded (cfg : KernelConfig) (w : KernelWorld) (ops : List LedgerOp) :
    (trace (ledgerStep cfg) w ops).map floorKept =
      (trace (ledgerStep cfg) w ops).map floorAfforded := by
  refine List.map_congr_left fun t ht => ?_
  obtain ⟨before, _, -, h⟩ := mem_trace.mp ht
  rw [h]
  exact floorKept_iff_step cfg _ _

/-! ## A close that takes the equity below the floor -/

/-- Nothing uncertain in the account counts in its favour. -/
def BuffersNonNegative (context : EvaluationContext) : Prop :=
  0 ≤ context.account.unresolvedFeeUpperBounds.value ∧
    0 ≤ context.account.reconciliationUncertaintyBuffer.value

/-- An account one dollar above its floor, holding the position the intent closes. -/
def closeNearFloorContext : EvaluationContext :=
  { sampleContext with
    limits := { sampleLimits with floor := ⟨999000000⟩ }
    market := { sampleContext.market with openPosition := some ⟨1000⟩ } }

def closeNearFloorIntent : OrderIntent := { sampleIntent with action := "sell_to_close" }

def closeNearFloorOp : LedgerOp :=
  .approve .quiet closeNearFloorIntent closeNearFloorContext

/-- A five-dollar close of a held position, one dollar above the floor: approved, and afterwards
four dollars below it. -/
theorem floor_not_kept_by_every_approval :
    ¬ ∀ (cfg : KernelConfig) (machine : ModeStateMachine) (ops : List LedgerOp),
      (∀ env intent context, .approve env intent context ∈ ops → BuffersNonNegative context) →
        ∀ t ∈ trace (ledgerStep cfg) (KernelWorld.fresh machine) ops, floorKept t = true := by
  intro h
  have hbuffers : ∀ env intent context, .approve env intent context ∈ [closeNearFloorOp] →
      BuffersNonNegative context := by
    intro env intent context hmem
    rw [List.mem_singleton, closeNearFloorOp, LedgerOp.approve.injEq] at hmem
    obtain ⟨-, -, rfl⟩ := hmem
    exact ⟨by decide, by decide⟩
  have hkept := h sampleConfig sampleMachine [closeNearFloorOp] hbuffers
    (transition (ledgerStep sampleConfig) sampleWorld closeNearFloorOp) (by simp; rfl)
  have hbroken : floorKept (transition (ledgerStep sampleConfig) sampleWorld closeNearFloorOp)
      = false := by decide +kernel
  rw [hbroken] at hkept
  exact absurd hkept (by decide)

end Windbreak
