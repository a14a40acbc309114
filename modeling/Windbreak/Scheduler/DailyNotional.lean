import Windbreak.OrderGateway.PaperSubmitter
import Windbreak.RiskKernel.LedgerRuns
import Windbreak.Scheduler.BoundedReads
import Windbreak.Scheduler.FillAccounting

/-!
# The daily notional across ticks

At each approval the tick reads the day's booked notional out of the ledger and the velocity check
holds it, with the order's cost, to the daily cap.  What is booked is what has filled; what was
approved before may still rest, or fill later, or have filled below its limit.

* **`Leg`** — the kernel, the exchange, the ledger with its bookkeeper, and the history of approved
  opening notionals by day.
* **`BookedInFull`** — at each approval, the read covers everything approved earlier that day.
* **`notional_within_cap`** — over every run whose approvals all find the day booked in full, no day's
  approved notional passes the cap.
* **`resting_approvals_pass_the_cap`** — two orders that rest are each approved under the whole cap.
-/

namespace Windbreak

open Machine Effects Sums

/-! ## The context of an approval -/

/-- The daily cap as the limits carry it: zero while the day's notional cannot be read. -/
def dailyCap (maxNotionalPerDay : ℤ) (notionalToday : Option ℤ) : MoneyMicros :=
  ⟨if notionalToday.isSome then maxNotionalPerDay else 0⟩

/-- The tick's context: paper mode, no fee bound and no buffer to pay for, and the day's notional
as it was read, over whatever else the tick has observed. -/
def legContext (maxNotionalPerDay : ℤ) (notionalToday : Option ℤ) (observed : EvaluationContext) :
    EvaluationContext :=
  { observed with
    mode := .PAPER
    fees := ⟨some ⟨0⟩, some ⟨0⟩⟩
    limits := { observed.limits with
      maxNotionalPerDay := dailyCap maxNotionalPerDay notionalToday
      roundingBuffer := ⟨0⟩ }
    account := { observed.account with notionalToday := ⟨notionalToday.getD 0⟩ } }

/-! ## The leg -/

/-- What is fixed when the loop is wired. -/
structure LegConfig where
  kernel : KernelConfig
  fixture : PaperFixture
  maxNotionalPerDay : ℤ

/-- The state of the leg.  No code reads `approved`: the day and the notional of every opening
intent that got a token. -/
structure Leg where
  kernel : KernelWorld
  exchange : PaperExchange
  books : BookState
  approved : List (ℤ × ℤ)

inductive LegOp where
  | approve (env : KernelEnv) (intent : OrderIntent) (observed : EvaluationContext)
  | advance
  | bookNew (env : BookEnv)

/-- The signed notional of an order at its limit. -/
def OrderIntent.notional (intent : OrderIntent) : ℤ := intent.price.value * intent.size.value

/-- What an approval adds to the history. -/
def approvalEntry (intent : OrderIntent) (nowEpochS : ℤ) : List (ℤ × ℤ) :=
  if intent.action ∈ openingActions then [(utcDay nowEpochS, intent.notional)] else []

/-- Read the day's notional, approve under it, and place the order if there is a token. -/
def approveAndRoute (cfg : LegConfig) (s : Leg) (env : KernelEnv) (intent : OrderIntent)
    (observed : EvaluationContext) : Leg :=
  let context := legContext cfg.maxNotionalPerDay
    (readNotionalToday s.books.store observed.nowEpochS) observed
  match (approve cfg.kernel env intent context).run s.kernel with
  | .error _ kernel => { s with kernel := kernel }
  | .ok outcome kernel =>
    if outcome.token.isSome then
      { s with
        kernel := kernel
        exchange := match OrderGateway.submit cfg.fixture s.exchange intent with
          | .ok (_, exchange) => exchange
          | .error _ => s.exchange
        approved := s.approved ++ approvalEntry intent observed.nowEpochS }
    else { s with kernel := kernel }

/-- One step of the leg. -/
def legStep (cfg : LegConfig) (s : Leg) : LegOp → Unit × Leg
  | .approve env intent observed => ((), approveAndRoute cfg s env intent observed)
  | .advance =>
    match s.exchange.advance cfg.fixture with
    | .ok (_, exchange) => ((), { s with exchange := exchange })
    | .error _ => ((), s)
  | .bookNew env =>
    ((), { s with books := finalState ((bookNew cfg.fixture env s.exchange).run s.books) })

/-- The transitions of the leg. -/
abbrev LegTransition := Transition Leg LegOp Unit

/-! ## The cap and what it is read from -/

/-- The notional of the opening intents approved on a day. -/
def Leg.approvedOn (s : Leg) (day : ℤ) : ℤ := sumWhere (fun entry => entry.1 = day) (·.2) s.approved

/-- **No day's approved notional passes the cap.** -/
def WithinCap (cfg : LegConfig) (s : Leg) : Prop := ∀ day, s.approvedOn day ≤ cfg.maxNotionalPerDay

/-- At an approval of an opening intent, the notional that the read finds booked covers what was
approved earlier that day. -/
def BookedInFull (t : LegTransition) : Prop :=
  match t.input with
  | .approve _ intent observed =>
    intent.action ∈ openingActions →
      ∀ booked ∈ readNotionalToday t.pre.books.store observed.nowEpochS,
        t.pre.approvedOn (utcDay observed.nowEpochS) ≤ booked
  | _ => True

/-- An opening order that passes leaves the cap with what is read, and adds nothing where nothing
can be read. -/
theorem passed_within_cap {ledger : ReservationLedger} {intent : OrderIntent}
    {maxNotionalPerDay : ℤ} {notionalToday : Option ℤ} {observed : EvaluationContext}
    {amount : MoneyMicros}
    (hadm : Admitted ledger intent (legContext maxNotionalPerDay notionalToday observed) amount)
    (hopening : intent.action ∈ openingActions) :
    (∀ booked ∈ notionalToday, booked + intent.notional ≤ maxNotionalPerDay) ∧
      (notionalToday = none → intent.notional ≤ 0) := by
  have hvelocity := velocityLimits_passed
    (evaluateIntent_passed hadm.passed (by simp [defaultChecks] : velocityLimits ∈ defaultChecks))
  obtain ⟨cost, hcost, hcap⟩ := hvelocity.2 (isDeriskingClose_of_opening _ hopening)
  rw [orderCost_effectiveContext] at hcost
  obtain ⟨trading, settlement, htrading, hsettlement, hworst⟩ := orderCost_ok.mp hcost
  cases htrading
  cases hsettlement
  have hnotional : cost.value = intent.notional := by
    simp [hworst, worstCaseCost, legContext, OrderIntent.notional]
  simp only [effectiveContext, legContext, dailyCap, AccountState.withReserved] at hcap
  constructor
  · intro booked hbooked
    cases hbooked
    simp only [Option.getD_some, Option.isSome_some, if_true] at hcap
    omega
  · intro hnone
    cases hnone
    simp only [Option.getD_none, Option.isSome_none, Bool.false_eq_true, if_false] at hcap
    omega

/-! ## One step -/

/-- What an approval does to the history: nothing, or one opening entry that the cap and the read
allowed. -/
theorem approveAndRoute_approved (cfg : LegConfig) (s : Leg) (env : KernelEnv)
    (intent : OrderIntent) (observed : EvaluationContext) :
    (approveAndRoute cfg s env intent observed).approved = s.approved ∨
      ∃ amount, Admitted s.kernel.ledger intent (legContext cfg.maxNotionalPerDay
          (readNotionalToday s.books.store observed.nowEpochS) observed) amount ∧
        (approveAndRoute cfg s env intent observed).approved =
          s.approved ++ approvalEntry intent observed.nowEpochS := by
  unfold approveAndRoute
  cases hrun : (approve cfg.kernel env intent (legContext cfg.maxNotionalPerDay
      (readNotionalToday s.books.store observed.nowEpochS) observed)).run s.kernel with
  | error e kernel =>
      left
      dsimp only
      rw [hrun]
  | ok outcome kernel =>
      dsimp only
      rw [hrun]
      dsimp only
      rcases approve_ok hrun with ⟨-, htoken, -⟩ | ⟨amount, hadm, -, htoken, -⟩
      · left
        simp [htoken]
      · right
        refine ⟨amount, hadm, ?_⟩
        simp [htoken]

theorem approvedOn_append (s s' : Leg) (intent : OrderIntent) (nowEpochS day : ℤ)
    (h : s'.approved = s.approved ++ approvalEntry intent nowEpochS) :
    s'.approvedOn day = s.approvedOn day +
      if intent.action ∈ openingActions ∧ utcDay nowEpochS = day then intent.notional else 0 := by
  rw [Leg.approvedOn, h, sumWhere_append, Leg.approvedOn, approvalEntry]
  by_cases hopening : intent.action ∈ openingActions
  · rw [if_pos hopening, sumWhere_singleton]
    simp [hopening]
  · rw [if_neg hopening]
    simp [hopening]

/-- **One step** that finds the day booked in full keeps every day within the cap. -/
theorem legStep_withinCap {cfg : LegConfig} {s : Leg} {op : LegOp} (h : WithinCap cfg s)
    (hbooked : BookedInFull (transition (legStep cfg) s op)) :
    WithinCap cfg (legStep cfg s op).2 := by
  cases op with
  | advance =>
      intro day
      simp only [legStep]
      split
      · exact h day
      · exact h day
  | bookNew env => exact h
  | approve env intent observed =>
      intro day
      simp only [legStep]
      rcases approveAndRoute_approved cfg s env intent observed with hsame | ⟨amount, hadm, hgrows⟩
      · rw [Leg.approvedOn, hsame]
        exact h day
      · rw [approvedOn_append s _ intent observed.nowEpochS day hgrows]
        have hday := h day
        split_ifs with hopening
        · have hpassed := passed_within_cap hadm hopening.1
          rw [← hopening.2] at hday ⊢
          cases hread : readNotionalToday s.books.store observed.nowEpochS with
          | none =>
              have hnothing := hpassed.2 hread
              omega
          | some booked =>
              have hroom := hpassed.1 booked hread
              have hcovered : s.approvedOn (utcDay observed.nowEpochS) ≤ booked :=
                hbooked hopening.1 booked hread
              omega
        · omega

/-- A leg that has approved nothing. -/
def Leg.fresh (kernel : KernelWorld) (exchange : PaperExchange) (books : BookState) : Leg :=
  ⟨kernel, exchange, books, []⟩

/-- **Over every run whose approvals all find the day booked in full, no day's approved notional
passes the cap.** -/
theorem notional_within_cap (cfg : LegConfig) (hcap : 0 ≤ cfg.maxNotionalPerDay)
    (kernel : KernelWorld) (exchange : PaperExchange) (books : BookState) (ops : List LegOp)
    (hbooked : ∀ t ∈ trace (legStep cfg) (.fresh kernel exchange books) ops, BookedInFull t) :
    ∀ t ∈ trace (legStep cfg) (.fresh kernel exchange books) ops, WithinCap cfg t.post := by
  have hstart : WithinCap cfg (.fresh kernel exchange books) := by
    intro day
    simpa [Leg.fresh, Leg.approvedOn] using hcap
  exact trace_post_of_guard (fun _ _ => legStep_withinCap) hstart hbooked

/-! ## Two orders under one cap -/

/-- One market with one recorded book, an offer at `ask`, and no fees. -/
def offerFixture (ask : ℤ) : PaperFixture where
  sessions := ⟨[("PRES-2028-DEM",
    [⟨⟨"PRES-2028-DEM", [], [⟨⟨ask⟩, ⟨100000⟩⟩], 1700000000000000⟩, []⟩])], List.nodup_singleton _⟩
  feeModels := freeFeeModels
  balances := ⟨⟨1000000000⟩, ⟨1000000000⟩, 0⟩
  haircutPpm := 0
  maxParticipationPpm := 1000000

def legConfig (ask maxNotionalPerDay : ℤ) : LegConfig :=
  ⟨sampleConfig, offerFixture ask, maxNotionalPerDay⟩

/-- A ledger without rows. -/
def emptyBooks : BookState :=
  ⟨⟨[], false, by simp, by simp⟩, [], [], []⟩

def sampleLeg : Leg := .fresh sampleWorld .fresh emptyBooks

/-- The sample order, for five dollars, and another like it. -/
def firstOrder : LegOp := .approve .quiet sampleIntent sampleContext

def secondOrder : LegOp :=
  .approve .quiet { sampleIntent with intentId := "intent-0002", idempotencyKey := "idem-0002" }
    sampleContext

/-- A poll that books everything, at the second of the sample context. -/
def samplePoll : LegOp := .bookNew ⟨fun _ => false, fun _ => some 1700000000000000⟩

instance decidableBookedInFull : (t : LegTransition) → Decidable (BookedInFull t)
  | ⟨pre, .approve _ intent observed, _, _⟩ =>
    inferInstanceAs (Decidable (intent.action ∈ openingActions →
      ∀ booked ∈ readNotionalToday pre.books.store observed.nowEpochS,
        pre.approvedOn (utcDay observed.nowEpochS) ≤ booked))
  | ⟨_, .advance, _, _⟩ => isTrue trivial
  | ⟨_, .bookNew _, _, _⟩ => isTrue trivial

/-- The first order fills and is booked, so the second finds it under a cap of ten dollars. -/
theorem booked_orders_keep_the_cap :
    (run (legStep (legConfig 5000 10000000)) sampleLeg
        [firstOrder, samplePoll, secondOrder]).approvedOn 19675 = 10000000 ∧
      ∀ t ∈ trace (legStep (legConfig 5000 10000000)) sampleLeg
        [firstOrder, samplePoll, secondOrder],
          WithinCap (legConfig 5000 10000000) t.post :=
  ⟨by decide +kernel, notional_within_cap _ (by decide) sampleWorld .fresh emptyBooks _
    (by decide +kernel)⟩

/-- Offered a cent above their limit, the two orders rest, and each is approved under a cap of five
dollars. -/
theorem resting_approvals_pass_the_cap :
    ¬ ∀ (cfg : LegConfig), 0 ≤ cfg.maxNotionalPerDay → ∀ kernel exchange books ops,
      ∀ t ∈ trace (legStep cfg) (.fresh kernel exchange books) ops, WithinCap cfg t.post := by
  intro h
  let t := transition (legStep (legConfig 5100 5000000))
    (run (legStep (legConfig 5100 5000000)) sampleLeg [firstOrder, samplePoll]) secondOrder
  have hwithin : t.post.approvedOn 19675 ≤ 5000000 :=
    h (legConfig 5100 5000000) (by decide) sampleWorld .fresh emptyBooks
      [firstOrder, samplePoll, secondOrder] t
      (mem_trace.mpr ⟨[firstOrder, samplePoll], [], rfl, rfl⟩) 19675
  have htotal : t.post.approvedOn 19675 = 10000000 := by decide +kernel
  rw [htotal] at hwithin
  exact absurd hwithin (by decide)

end Windbreak
