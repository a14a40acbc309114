import Windbreak.RiskKernel.AdverseChange
import Windbreak.RiskKernel.FloorAfterApproval

/-!
# Aggregate caps over a burst of approvals

A burst is a run whose approvals all read one account snapshot.  The concentration and velocity
checks compare the snapshot with one order at a time; only the mode ceiling also counts what the
ledger already holds for other approvals in flight.  So a burst can pass each check and still carry
a dimension, the day's notional or the hour's orders past its cap.

* **`Cap.Held`** — the caps, the burst's own approvals counted.
* **`Cap.Clear`** — an approval with nothing of the burst before it that the cap's check overlooks.
* **`caps_kept_of_clear`** — over every burst, each cap is kept by each approval that is clear for it.
* **`caps_not_kept_by_every_burst`** — two orders that each fit carry a market past its cap.
-/

namespace Windbreak

open Machine Effects

/-! ## Bursts -/

/-- The four exposure dimensions of an account. -/
inductive Dimension where
  | market
  | event
  | bucket
  | total
  deriving DecidableEq, Repr

/-- The snapshot's exposure in a dimension. -/
def Dimension.exposure (account : AccountState) : Dimension → MoneyMicros
  | .market => account.marketExposure
  | .event => account.eventExposure
  | .bucket => account.bucketExposure
  | .total => account.totalExposure

/-- A dimension's share of equity. -/
def Dimension.capPpm (limits : RiskLimits) : Dimension → ℤ
  | .market => limits.maxPosMarketPctPpm
  | .event => limits.maxPosEventPctPpm
  | .bucket => limits.maxPosBucketPctPpm
  | .total => limits.maxPosTotalPctPpm

theorem Dimension.mem_concentrationDimensions (d : Dimension) (account : AccountState)
    (limits : RiskLimits) :
    (d.exposure account, d.capPpm limits) ∈ concentrationDimensions account limits := by
  cases d <;> simp [Dimension.exposure, Dimension.capPpm, concentrationDimensions]

/-- The operation as it is made against a shared account snapshot. -/
def LedgerOp.withAccount (account : AccountState) : LedgerOp → LedgerOp
  | .approve env intent context => .approve env intent { context with account := account }
  | op => op

/-- The run of a burst over one account snapshot. -/
def burst (account : AccountState) (ops : List LedgerOp) : List LedgerOp :=
  ops.map (·.withAccount account)

/-- The intent a transition approved, if it handed over a token. -/
def approvedBy (t : LedgerTransition) : Option OrderIntent :=
  match t.input, t.output with
  | .approve _ intent _, .approval ⟨_, some _⟩ => some intent
  | _, _ => none

/-- The intents a run approved, in order. -/
def approvedIn (ts : List LedgerTransition) : List OrderIntent := ts.filterMap approvedBy

/-- What the active reservations hold for a list of intents. -/
def inFlight (ledger : ReservationLedger) (intents : List OrderIntent) : ℤ :=
  (intents.map fun i => ((ledger.active.get? i.intentId).map (·.amount.value)).getD 0).sum

/-- The notional of a list of intents. -/
def notionalOf (intents : List OrderIntent) : ℤ :=
  (intents.map fun i => i.price.value * i.size.value).sum

/-! ## The caps and the condition -/

/-- The caps that a burst has to keep. -/
inductive Cap where
  | concentration (d : Dimension)
  | notional
  | hourly
  | micro
  deriving DecidableEq, Repr

/-- **A cap holds**, the burst's approvals counted: `member` says which intents fall in which
dimension, `base` is the worst-case equity of the snapshot when the burst began. -/
def Cap.Held (member : Dimension → OrderIntent → Bool) (base : ℤ) (approved : List OrderIntent)
    (context : EvaluationContext) (ledger : ReservationLedger) : Cap → Prop
  | .concentration d =>
    (d.exposure context.account).value + inFlight ledger (approved.filter (member d)) ≤
      ppmOf base (d.capPpm context.limits)
  | .notional =>
    context.account.notionalToday.value + notionalOf approved ≤
      context.limits.maxNotionalPerDay.value
  | .hourly => context.account.ordersLastHour + approved.length ≤ context.limits.maxOrdersPerHour
  | .micro => context.mode = .LIVE_MICRO →
    context.account.totalExposure.value + ledger.totalReserved.value ≤ context.limits.microCap.value

/-- No part of an order's cost is negative. -/
structure NonnegParts (intent : OrderIntent) (context : EvaluationContext) : Prop where
  notional : 0 ≤ intent.price.value * intent.size.value
  fees : NonnegFees context
  buffer : 0 ≤ context.limits.roundingBuffer.value

/-- **The condition** on a call, cap by cap, before it is made: `start` is the ledger the burst began
with, `before` what the burst approved since. -/
def Cap.Clear (member : Dimension → OrderIntent → Bool) (start : ReservationLedger)
    (before : List OrderIntent) (intent : OrderIntent) (context : EvaluationContext)
    (ledger : ReservationLedger) : Cap → Prop
  | .concentration d =>
    -- nothing of the burst is in flight in the dimension, and what backs the equity has not shrunk
    isDeriskingClose intent context = false ∧ NonnegParts intent context ∧
      0 ≤ d.capPpm context.limits ∧ inFlight ledger (before.filter (member d)) = 0 ∧
      start.totalReserved ≤ ledger.totalReserved
  | .notional =>
    isDeriskingClose intent context = false ∧ NonnegParts intent context ∧ before = []
  | .hourly => before = []
  -- the ceiling counts what is in flight, and only exempts the close
  | .micro => isDeriskingClose intent context = false

/-- A cap is kept by one transition of a burst, given what the burst approved before it. -/
def Cap.Kept (member : Dimension → OrderIntent → Bool) (base : ℤ) (before : List OrderIntent)
    (t : LedgerTransition) (cap : Cap) : Prop :=
  match t.input, t.output with
  | .approve _ intent context, .approval ⟨_, some _⟩ =>
    cap.Held member base (before ++ [intent]) context t.post.ledger
  | _, _ => True

/-- The call of a transition of a burst is clear for a cap. -/
def Cap.ClearAt (member : Dimension → OrderIntent → Bool) (start : ReservationLedger)
    (before : List OrderIntent) (t : LedgerTransition) (cap : Cap) : Prop :=
  match t.input with
  | .approve _ intent context => cap.Clear member start before intent context t.pre.ledger
  | _ => True

/-! ## What an approval adds -/

/-- An intent counted as approved was admitted, and its reservation filed. -/
theorem approvedBy_some {cfg : KernelConfig} {w : KernelWorld} {op : LedgerOp} {i : OrderIntent}
    (h : approvedBy (transition (ledgerStep cfg) w op) = some i) :
    ∃ env context amount, op = .approve env i context ∧ Admitted w.ledger i context amount ∧
      (ledgerStep cfg w op).2.ledger =
        w.ledger.add (approvedReservation cfg w.ledger i context amount) := by
  cases op with
  | approve env intent context =>
      rcases ledgerStep_approve cfg w env intent context with
        ⟨e, hout⟩ | ⟨decision, hout⟩ | ⟨decision, amount, hadm, hout, hledger⟩
      · simp [approvedBy, transition, hout] at h
      · simp [approvedBy, transition, hout] at h
      · simp only [approvedBy, transition, hout, Option.some.injEq] at h
        subst h
        exact ⟨env, context, amount, rfl, hadm, hledger⟩
  | release env id reason => simp [approvedBy, transition, ledgerStep] at h
  | releaseAllActive env reason => simp [approvedBy, transition, ledgerStep] at h
  | adjust env id remaining => simp [approvedBy, transition, ledgerStep] at h
  | expireDue env now => simp [approvedBy, transition, ledgerStep] at h

theorem approvedBy_seen {cfg : KernelConfig} {w : KernelWorld} {op : LedgerOp} {i : OrderIntent}
    (h : approvedBy (transition (ledgerStep cfg) w op) = some i) :
    i.intentId ∈ (ledgerStep cfg w op).2.ledger.seenIntentIds := by
  obtain ⟨_, _, _, -, -, hledger⟩ := approvedBy_some h
  rw [hledger]
  exact Finset.mem_insert_self _ _

/-- Every intent a run approved is remembered by the ledger it ends in. -/
theorem approvedIn_seen (cfg : KernelConfig) (w : KernelWorld) (ops : List LedgerOp) :
    ∀ i ∈ approvedIn (trace (ledgerStep cfg) w ops),
      i.intentId ∈ (run (ledgerStep cfg) w ops).ledger.seenIntentIds := by
  induction ops generalizing w with
  | nil => simp [approvedIn]
  | cons op ops ih =>
      intro i hi
      rw [trace_cons, approvedIn, List.filterMap_cons] at hi
      cases hop : approvedBy (transition (ledgerStep cfg) w op) with
      | none =>
          rw [hop] at hi
          exact ih _ i hi
      | some j =>
          rw [hop] at hi
          rcases List.mem_cons.mp hi with rfl | hi
          · have hlater : (ledgerStep cfg w op).2.ledger.seenIntentIds ⊆
                (run (ledgerStep cfg) w (op :: ops)).ledger.seenIntentIds :=
              run_invariant (I := fun v => (ledgerStep cfg w op).2.ledger.seenIntentIds ⊆
                v.ledger.seenIntentIds)
                (fun v o hv => hv.trans (ledgerStep_seenIntentIds cfg v o)) (Finset.Subset.refl _) ops
            exact hlater (approvedBy_seen hop)
          · exact ih _ i hi

/-- Filing a fresh reservation leaves what other intents hold as it was. -/
theorem inFlight_add_of_ne {ledger : ReservationLedger} {r : Reservation}
    {intents : List OrderIntent} (h : ∀ i ∈ intents, i.intentId ≠ r.intentId) :
    inFlight (ledger.add r) intents = inFlight ledger intents := by
  unfold inFlight
  congr 1
  refine List.map_congr_left fun i hi => ?_
  rw [ReservationLedger.add_active, OrderedDict.get?_set, if_neg (h i hi)]

theorem inFlight_append (ledger : ReservationLedger) (xs ys : List OrderIntent) :
    inFlight ledger (xs ++ ys) = inFlight ledger xs + inFlight ledger ys := by
  simp [inFlight]

/-- In each dimension, an admitted intent adds its cost if it is a member. -/
theorem inFlight_after_approval {cfg : KernelConfig} {ledger : ReservationLedger}
    {intent : OrderIntent} {context : EvaluationContext} {amount : MoneyMicros}
    (hadm : Admitted ledger intent context amount) (p : OrderIntent → Bool)
    {before : List OrderIntent} (hseen : ∀ i ∈ before, i.intentId ∈ ledger.seenIntentIds) :
    inFlight (ledger.add (approvedReservation cfg ledger intent context amount))
        ((before ++ [intent]).filter p) =
      inFlight ledger (before.filter p) + if p intent then amount.value else 0 := by
  have hne : ∀ i ∈ before.filter p, i.intentId ≠
      (approvedReservation cfg ledger intent context amount).intentId := by
    intro i hi he
    have hold := hseen i (List.mem_of_mem_filter hi)
    rw [he] at hold
    exact hadm.fresh_id hold
  rw [List.filter_append, inFlight_append, inFlight_add_of_ne hne]
  congr 1
  by_cases hp : p intent
  · have hget := OrderedDict.get?_set_self ledger.active intent.intentId
      (approvedReservation cfg ledger intent context amount)
    simp only [List.filter_cons, hp, if_true, List.filter_nil, inFlight, List.map_cons,
      List.map_nil, List.sum_cons, List.sum_nil, add_zero, ReservationLedger.add_active]
    rw [show (approvedReservation cfg ledger intent context amount).intentId = intent.intentId
      from rfl, hget]
    rfl
  · simp [hp, inFlight]

/-! ## What the checks establish -/

theorem NonnegParts.notional_le_cost {intent : OrderIntent} {context : EvaluationContext}
    {cost : MoneyMicros} (h : NonnegParts intent context)
    (hcost : orderCost intent context = .ok cost) :
    intent.price.value * intent.size.value ≤ cost.value := by
  obtain ⟨trading, settlement, htrading, hsettlement, -⟩ := orderCost_ok.mp hcost
  have hvalue := orderCost_value hcost
  have ht := h.fees.1 trading htrading
  have hs := h.fees.2 settlement hsettlement
  have hb := h.buffer
  simp only [htrading, hsettlement, Option.map_some, Option.getD_some] at hvalue
  omega

/-- A larger reserved total leaves less equity. -/
theorem equityOf_withReserved_le (account : AccountState) {reserved reserved' : MoneyMicros}
    (h : reserved ≤ reserved') :
    (equityOf (account.withReserved reserved')).value ≤
      (equityOf (account.withReserved reserved)).value := by
  have hle : reserved.value ≤ reserved'.value := h
  simp only [equityOf, worstCaseEquity, AccountState.withReserved, IntUnit.value_add,
    IntUnit.value_sub]
  omega

section

variable {ledger : ReservationLedger} {intent : OrderIntent} {context : EvaluationContext}
  {amount : MoneyMicros}

/-- The concentration check looks at the snapshot and the order. -/
theorem Admitted.concentration_of_open (h : Admitted ledger intent context amount)
    (hopen : isDeriskingClose intent context = false) (d : Dimension) :
    (d.exposure context.account).value + amount.value ≤
      ppmOf (liveEquity context ledger).value (d.capPpm context.limits) := by
  have hpass : runCheck concentrationLimits intent (effectiveContext ledger context) = none :=
    evaluateIntent_passed h.passed (by simp [defaultChecks])
  obtain ⟨cost, hcost, hdims⟩ := concentrationLimits_passed hpass hopen
  rw [orderCost_effectiveContext, h.cost, Except.ok.injEq] at hcost
  subst hcost
  have hd := hdims _ (d.mem_concentrationDimensions _ _)
  cases d <;> exact hd

/-- So does the velocity check. -/
theorem Admitted.notional_of_open (h : Admitted ledger intent context amount)
    (hopen : isDeriskingClose intent context = false) :
    context.account.notionalToday.value + amount.value ≤
      context.limits.maxNotionalPerDay.value := by
  have hpass : runCheck velocityLimits intent (effectiveContext ledger context) = none :=
    evaluateIntent_passed h.passed (by simp [defaultChecks])
  obtain ⟨cost, hcost, hcap⟩ := (velocityLimits_passed hpass).2 hopen
  rw [orderCost_effectiveContext, h.cost, Except.ok.injEq] at hcost
  subst hcost
  exact hcap

theorem Admitted.hourly (h : Admitted ledger intent context amount) :
    context.account.ordersLastHour + 1 ≤ context.limits.maxOrdersPerHour := by
  have hpass : runCheck velocityLimits intent (effectiveContext ledger context) = none :=
    evaluateIntent_passed h.passed (by simp [defaultChecks])
  exact (velocityLimits_passed hpass).1

/-- The mode ceiling counts what the ledger holds for every approval in flight. -/
theorem Admitted.micro_of_open (h : Admitted ledger intent context amount)
    (hmode : context.mode = .LIVE_MICRO) (hopen : isDeriskingClose intent context = false) :
    context.account.totalExposure.value + ledger.totalReserved.value + amount.value ≤
      context.limits.microCap.value := by
  have hpass : runCheck modePermissionCeiling intent (effectiveContext ledger context) = none :=
    evaluateIntent_passed h.passed (by simp [defaultChecks])
  obtain ⟨cost, hcost, hcap⟩ := (modePermissionCeiling_passed hpass).2 hmode hopen
  rw [orderCost_effectiveContext, h.cost, Except.ok.injEq] at hcost
  rw [hcost]
  exact hcap

/-- **An admitted order keeps each cap that it is clear for.** -/
theorem held_of_clear {cfg : KernelConfig} (hadm : Admitted ledger intent context amount)
    (member : Dimension → OrderIntent → Bool) (start : ReservationLedger)
    {before : List OrderIntent} (hseen : ∀ i ∈ before, i.intentId ∈ ledger.seenIntentIds)
    {cap : Cap} (hclear : cap.Clear member start before intent context ledger) :
    cap.Held member (equityOf (context.account.withReserved start.totalReserved)).value
      (before ++ [intent]) context
      (ledger.add (approvedReservation cfg ledger intent context amount)) := by
  cases cap with
  | concentration d =>
      obtain ⟨hopen, hparts, hcap, hnone, hbacked⟩ := hclear
      have hcheck := hadm.concentration_of_open hopen d
      have hbase : ppmOf (liveEquity context ledger).value (d.capPpm context.limits) ≤
          ppmOf (equityOf (context.account.withReserved start.totalReserved)).value
            (d.capPpm context.limits) :=
        ppmOf_mono hcap (equityOf_withReserved_le context.account hbacked)
      have hcost := hparts.notional_le_cost hadm.cost
      have hnotional := hparts.notional
      rw [Cap.Held, inFlight_after_approval hadm (member d) hseen, hnone]
      split <;> omega
  | notional =>
      obtain ⟨hopen, hparts, rfl⟩ := hclear
      have hcheck := hadm.notional_of_open hopen
      have hcost := hparts.notional_le_cost hadm.cost
      have hone : notionalOf ([] ++ [intent]) = intent.price.value * intent.size.value := by
        simp [notionalOf]
      rw [Cap.Held, hone]
      omega
  | hourly =>
      obtain rfl : before = [] := hclear
      have hcheck := hadm.hourly
      rw [Cap.Held, List.nil_append, List.length_singleton]
      exact hcheck
  | micro =>
      intro hmode
      have hcheck := hadm.micro_of_open hmode hclear
      have hreserved : (ledger.add (approvedReservation cfg ledger intent context
          amount)).totalReserved.value = ledger.totalReserved.value + amount.value := by
        rw [ReservationLedger.totalReserved_add hadm.fresh_id]
        rfl
      omega

end

/-- **Each cap survives a burst of approvals that are clear for it**: after any run of a burst over
one account snapshot, from any world, on any next operation. -/
theorem caps_kept_of_clear (cfg : KernelConfig) (w : KernelWorld) (account : AccountState)
    (member : Dimension → OrderIntent → Bool) (ops : List LedgerOp) (op : LedgerOp) :
    let base := (equityOf (account.withReserved w.ledger.totalReserved)).value
    let approved := approvedIn (trace (ledgerStep cfg) w (burst account ops))
    let t := transition (ledgerStep cfg) (run (ledgerStep cfg) w (burst account ops))
      (op.withAccount account)
    ∀ cap : Cap, cap.ClearAt member w.ledger approved t → cap.Kept member base approved t := by
  intro base approved t cap hclear
  have hseen : ∀ i ∈ approved, i.intentId ∈ t.pre.ledger.seenIntentIds :=
    approvedIn_seen cfg w (burst account ops)
  cases op with
  | approve env intent context =>
      rcases ledgerStep_approve cfg t.pre env intent { context with account := account } with
        ⟨e, hout⟩ | ⟨decision, hout⟩ | ⟨decision, amount, hadm, hout, hledger⟩
      · have ht : t.output = .raised e := hout
        simp [Cap.Kept, ht]
      · have ht : t.output = .approval ⟨decision, none⟩ := hout
        simp [Cap.Kept, ht]
      · have ht : t.output = .approval ⟨decision, some (approvedToken cfg t.pre.ledger intent
          { context with account := account } amount)⟩ := hout
        have hin : t.input = .approve env intent { context with account := account } := rfl
        have hpost : t.post.ledger = t.pre.ledger.add (approvedReservation cfg t.pre.ledger intent
          { context with account := account } amount) := hledger
        simp only [Cap.Kept, ht, hin, hpost]
        exact held_of_clear hadm member w.ledger hseen hclear
  | release env id reason => trivial
  | releaseAllActive env reason => trivial
  | adjust env id remaining => trivial
  | expireDue env now => trivial

/-- One percent of a thousand-dollar account in a single market. -/
def onePercentContext : EvaluationContext :=
  { sampleContext with limits := { sampleLimits with maxPosMarketPctPpm := 10000 } }

/-- A nine-dollar order. -/
def nineDollarOp (intentId idempotencyKey : String) : LedgerOp :=
  .approve .quiet
    { sampleIntent with intentId := intentId, idempotencyKey := idempotencyKey, size := ⟨1800⟩ }
    onePercentContext

/-- The second of two orders against one snapshot. -/
def secondNineDollar : LedgerTransition :=
  transition (ledgerStep sampleConfig)
    (run (ledgerStep sampleConfig) sampleWorld
      (burst sampleAccount [nineDollarOp "intent-0001" "idem-0001"]))
    ((nineDollarOp "intent-0002" "idem-0002").withAccount sampleAccount)

/-- Only the second order is in the market. -/
def secondMarket (d : Dimension) (i : OrderIntent) : Bool :=
  decide (d = .market) && decide (i.intentId = "intent-0002")

theorem nineDollar_parts (id key : String) :
    NonnegParts
      { sampleIntent with intentId := id, idempotencyKey := key, size := ⟨1800⟩ }
      { onePercentContext with account := sampleAccount } := by
  refine ⟨?_, ⟨?_, ?_⟩, by decide⟩
  · change 0 ≤ sampleIntent.price.value * 1800
    decide
  · rintro fee ⟨⟩
    decide
  · rintro fee ⟨⟩
    decide

/-- With the first order in flight in another market, the second is approved and keeps its own. -/
theorem caps_kept_second_market :
    (Cap.concentration .market).Kept secondMarket
        (equityOf (sampleAccount.withReserved sampleWorld.ledger.totalReserved)).value
        (approvedIn (trace (ledgerStep sampleConfig) sampleWorld
          (burst sampleAccount [nineDollarOp "intent-0001" "idem-0001"]))) secondNineDollar ∧
      secondNineDollar.output.token?.isSome = true ∧
      secondNineDollar.pre.ledger.totalReserved = ⟨9000000⟩ :=
  ⟨caps_kept_of_clear sampleConfig sampleWorld sampleAccount secondMarket
      [nineDollarOp "intent-0001" "idem-0001"] (nineDollarOp "intent-0002" "idem-0002")
      (.concentration .market)
      ⟨by decide +kernel, nineDollar_parts _ _, by decide, by decide +kernel, by decide +kernel⟩,
    by decide +kernel, by decide +kernel⟩

/-! ## A burst past a market cap -/

theorem Cap.Kept.held {cap : Cap} {member : Dimension → OrderIntent → Bool} {base : ℤ}
    {before : List OrderIntent} {t : LedgerTransition} {env : KernelEnv} {intent : OrderIntent}
    {context : EvaluationContext} (h : cap.Kept member base before t)
    (hin : t.input = .approve env intent context) (htok : t.output.token?.isSome = true) :
    cap.Held member base (before ++ [intent]) context t.post.ledger := by
  unfold Cap.Kept at h
  rw [hin] at h
  cases hout : t.output with
  | approval outcome =>
      obtain ⟨decision, token⟩ := outcome
      cases token with
      | none => simp [hout, LedgerReply.token?] at htok
      | some token => simpa [hout] using h
  | done => simp [hout, LedgerReply.token?] at htok
  | raised e => simp [hout, LedgerReply.token?] at htok

/-- Two nine-dollar orders against one snapshot are both approved, and eighteen dollars are in
flight under a ten-dollar cap. -/
theorem caps_not_kept_by_every_burst :
    ¬ ∀ (cfg : KernelConfig) (machine : ModeStateMachine) (account : AccountState)
      (member : Dimension → OrderIntent → Bool) (ops : List LedgerOp) (op : LedgerOp),
      let w := KernelWorld.fresh machine
      ∀ cap : Cap, cap.Kept member (equityOf (account.withReserved w.ledger.totalReserved)).value
        (approvedIn (trace (ledgerStep cfg) w (burst account ops)))
        (transition (ledgerStep cfg) (run (ledgerStep cfg) w (burst account ops))
          (op.withAccount account)) := by
  intro h
  have hkept := h sampleConfig sampleMachine sampleAccount (fun _ _ => true)
    [nineDollarOp "intent-0001" "idem-0001"] (nineDollarOp "intent-0002" "idem-0002")
    (.concentration .market)
  have hheld := hkept.held rfl (by decide +kernel)
  simp only [Cap.Held] at hheld
  exact absurd hheld (by decide +kernel)

end Windbreak
