import Mathlib.Data.List.Sort
import Windbreak.Connector.Models
import Windbreak.RiskKernel.World

/-!
# The verification cycle

A read-only verifier cross-checks what the venue reports against what the ledger expects.  A venue
that cannot be observed is a breach; so is a drift beyond tolerance in cash or in a position, and
any difference between the two sets of resting orders.

* **`runCycle`** — observe, grade, record exactly one event, then alert.
* **`runCycle_run`** — a cycle is its snapshot, its record and its alerts, in that order; the
  alerts come last, and only they can raise once the record is written.
-/

namespace Windbreak

/-! ## What the verifier reads -/

/-- What the venue answers during one cycle; each call may raise on its own. -/
structure ReadOnlyVenueView where
  getPositions : Except String (List Position)
  getOpenOrders : Except String (List OpenOrder)
  getAvailableBalance : Except String MoneyMicros
  balanceSemanticsFullyKnown : Except String Bool
  getMarket : String → Except String NormalizedMarket

/-- The ledger-derived state a cycle checks the venue against. -/
structure LedgerExpectations where
  expectedAvailableCash : MoneyMicros
  expectedPositions : OrderedDict String ContractCentis
  expectedOpenOrderIds : Finset String

/-- What the verifier's own collaborators do during one cycle. -/
structure VerifierEnv where
  expectations : Except String LedgerExpectations
  venue : ReadOnlyVenueView

/-- What one cycle observed. -/
structure Observation where
  positions : List Position
  openOrders : List OpenOrder
  availableCash : MoneyMicros
  semanticsKnown : Bool

/-- The four reads of a cycle, in order; the first that raises ends the observation. -/
def observeVenue (venue : ReadOnlyVenueView) : Except String Observation := do
  let positions ← venue.getPositions
  let openOrders ← venue.getOpenOrders
  let availableCash ← venue.getAvailableBalance
  let semanticsKnown ← venue.balanceSemanticsFullyKnown
  return ⟨positions, openOrders, availableCash, semanticsKnown⟩

/-! ## Grading -/

/-- The absolute available-cash drift. -/
def cashDrift (observedCash : MoneyMicros) (expectations : LedgerExpectations) : MoneyMicros :=
  ⟨|observedCash.value - expectations.expectedAvailableCash.value|⟩

/-- The reported positions by ticker; a later row for a ticker replaces an earlier one. -/
def observedPositions (positions : List Position) : OrderedDict String ContractCentis :=
  positions.foldl (fun d p => d.set p.ticker p.quantity) .empty

/-- The quantity held of a ticker, zero when absent. -/
def heldQuantity (d : OrderedDict String ContractCentis) (ticker : String) : ℤ :=
  ((d.get? ticker).map (·.value)).getD 0

/-- The largest absolute per-ticker drift over the tickers of either side. -/
def positionDrift (positions : List Position) (expectations : LedgerExpectations) : ℤ :=
  let observed := observedPositions positions
  let expected := expectations.expectedPositions
  let diffs := (observed.keys ++ expected.keys).map fun ticker =>
    |heldQuantity observed ticker - heldQuantity expected ticker|
  diffs.foldl max 0

/-- Whether the observed order ids are exactly the expected ones. -/
def openOrdersMatch (openOrders : List OpenOrder) (expectations : LedgerExpectations) : Bool :=
  decide ((openOrders.map (·.id)).toFinset = expectations.expectedOpenOrderIds)

/-- Grade a cycle. -/
def classify (balanceOk positionOk openOrderOk driftPresent : Bool) : VerificationOutcome :=
  if !(balanceOk && positionOk && openOrderOk) then .BREACH
  else if driftPresent then .DRIFT_WITHIN_TOLERANCE
  else .CLEAN

/-- The snapshot of an observed venue. -/
def observedSnapshot (tolerances : VerificationTolerances) (expectations : LedgerExpectations)
    (observation : Observation) (nowEpochS : ℤ) : VerificationSnapshot :=
  let drift := cashDrift observation.availableCash expectations
  let largest := positionDrift observation.positions expectations
  let openOrderOk := openOrdersMatch observation.openOrders expectations
  let balanceOk := decide (drift.value ≤ tolerances.balanceTolerance.value)
  let positionOk := decide (largest ≤ tolerances.positionTolerance.value)
  { outcome := classify balanceOk positionOk openOrderOk
      (decide (0 < drift.value) || decide (0 < largest))
    balanceOk := balanceOk
    positionOk := positionOk
    openOrderOk := openOrderOk
    verifiedAtEpochS := nowEpochS
    exchangeVerifiedAvailableCash := observation.availableCash
    cashDrift := drift
    semanticsFullyKnown := observation.semanticsKnown }

/-- The forced breach of a venue that could not be observed. -/
def unobservedSnapshot (expectations : LedgerExpectations) (nowEpochS : ℤ) :
    VerificationSnapshot where
  outcome := .BREACH
  balanceOk := false
  positionOk := false
  openOrderOk := false
  verifiedAtEpochS := nowEpochS
  exchangeVerifiedAvailableCash := ⟨0⟩
  cashDrift := cashDrift ⟨0⟩ expectations
  semanticsFullyKnown := false

/-! ## Alerting -/

/-- The jurisdiction status that warns. -/
def unknownJurisdiction : String := "unknown"

/-- The body of a mismatch alert. -/
def mismatchMessage : String := "exchange verification mismatch beyond tolerance"

/-- The body of the alert for a venue that could not be observed. -/
def unreadableMessage (text : String) : String :=
  s!"exchange verification could not observe the venue: {text}"

/-- The warning for one held market. -/
def jurisdictionMessage (ticker : String) : String :=
  s!"held market {ticker} has unknown jurisdiction status"

/-- Every ticker held or resting, sorted. -/
def heldTickers (positions : List Position) (openOrders : List OpenOrder) : List String :=
  ((positions.map (·.ticker) ++ openOrders.map (·.ticker)).dedup).insertionSort (· ≤ ·)

/-- Look one held market up, and warn when its jurisdiction is unknown. -/
def alertIfUnknown (env : KernelEnv) (venue : ReadOnlyVenueView) (ticker : String) :
    KernelM Unit :=
  match venue.getMarket ticker with
  | .error text => throw ⟨.venue, text⟩
  | .ok market =>
    if market.jurisdictionStatus = unknownJurisdiction then do
      let _ ← dispatchAlert env .JURISDICTION_UNKNOWN (jurisdictionMessage ticker)
      return ()
    else
      return ()

/-- Warn about every held market of unknown jurisdiction. -/
def alertUnknownJurisdictions (env : KernelEnv) (venue : ReadOnlyVenueView)
    (positions : List Position) (openOrders : List OpenOrder) : KernelM Unit :=
  forM (heldTickers positions openOrders) fun ticker => alertIfUnknown env venue ticker

/-- The alerts of an observed cycle. -/
def dispatchAlerts (env : KernelEnv) (venue : ReadOnlyVenueView) (observation : Observation)
    (outcome : VerificationOutcome) : KernelM Unit := do
  alertUnknownJurisdictions env venue observation.positions observation.openOrders
  if outcome = .BREACH then do
    let _ ← dispatchAlert env .RECONCILIATION_MISMATCH mismatchMessage
    return ()
  else
    return ()

/-! ## The cycle -/

/-- Record a forced breach for a venue that could not be observed. -/
def unobservableVenueBreach (env : KernelEnv) (nowEpochS : ℤ) (expectations : LedgerExpectations)
    (text : String) : KernelM VerificationSnapshot := do
  let snapshot := unobservedSnapshot expectations nowEpochS
  record env (verificationEvent snapshot)
  let _ ← dispatchAlert env .RECONCILIATION_MISMATCH (unreadableMessage text)
  return snapshot

/-- Run one verification cycle. -/
def runCycle (tolerances : VerificationTolerances) (env : KernelEnv) (view : VerifierEnv)
    (nowEpochS : ℤ) : KernelM VerificationSnapshot :=
  match view.expectations with
  | .error text => throw ⟨.expectationSource, text⟩
  | .ok expectations =>
    match observeVenue view.venue with
    | .error text => unobservableVenueBreach env nowEpochS expectations text
    | .ok observation => do
      let snapshot := observedSnapshot tolerances expectations observation nowEpochS
      -- the record comes before any alert, so that an alert that raises cannot lose it
      record env (verificationEvent snapshot)
      dispatchAlerts env view.venue observation snapshot.outcome
      return snapshot

/-! ## A cycle is its snapshot, its record and its alerts -/

/-- The snapshot of a cycle, whether or not the venue could be observed. -/
def cycleSnapshot (tolerances : VerificationTolerances) (expectations : LedgerExpectations)
    (nowEpochS : ℤ) : Except String Observation → VerificationSnapshot
  | .error _ => unobservedSnapshot expectations nowEpochS
  | .ok observation => observedSnapshot tolerances expectations observation nowEpochS

/-- The alerts of a cycle, whether or not the venue could be observed. -/
def cycleAlerts (env : KernelEnv) (venue : ReadOnlyVenueView) (outcome : VerificationOutcome) :
    Except String Observation → KernelM Unit
  | .error text => do
    let _ ← dispatchAlert env .RECONCILIATION_MISMATCH (unreadableMessage text)
    return ()
  | .ok observation => dispatchAlerts env venue observation outcome

theorem runCycle_run (tolerances : VerificationTolerances) (env : KernelEnv) (view : VerifierEnv)
    (nowEpochS : ℤ) (w : KernelWorld) :
    (runCycle tolerances env view nowEpochS).run w =
      match view.expectations with
      | .error text => .error ⟨.expectationSource, text⟩ w
      | .ok expectations =>
        let observed := observeVenue view.venue
        let snapshot := cycleSnapshot tolerances expectations nowEpochS observed
        let event := verificationEvent snapshot
        if env.recordRaises event then
          .error ⟨.writer, "event writer failed"⟩ (w.noted (.record event))
        else
          match (cycleAlerts env view.venue snapshot.outcome observed).run
              ((w.noted (.record event)).logged event) with
          | .ok _ w' => .ok snapshot w'
          | .error e w' => .error e w' := by
  unfold runCycle
  cases view.expectations with
  | error text => rfl
  | ok expectations =>
      cases observeVenue view.venue with
      | error text =>
          dsimp only [cycleSnapshot, cycleAlerts]
          rw [unobservableVenueBreach, record_bind_run]
          congr 1
          rw [EStateM.run_bind, EStateM.run_bind, dispatchAlert_run]
          cases env.dispatch .RECONCILIATION_MISMATCH (unreadableMessage text) with
          | ok report => rfl
          | error text' => rfl
      | ok observation =>
          dsimp only [cycleSnapshot, cycleAlerts]
          rw [record_bind_run]
          congr 1
          rw [EStateM.run_bind]
          generalize (dispatchAlerts env view.venue observation _).run _ = alerted
          cases alerted with
          | ok a w' => rfl
          | error e w' => rfl

/-! ## What the alerts touch and when they return -/

/-- Alerts only note calls. -/
theorem dispatchAlert_moves {R : KernelWorld → KernelWorld → Prop}
    (hcall : ∀ w call, R w (w.noted call)) (env : KernelEnv) (alert : AlertType)
    (message : String) : Effects.Moves R (dispatchAlert env alert message) := by
  intro w
  rw [dispatchAlert_run]
  cases env.dispatch alert message with
  | ok report => exact hcall w _
  | error text => exact hcall w _

theorem cycleAlerts_moves {R : KernelWorld → KernelWorld → Prop} [IsPreorder KernelWorld R]
    (hcall : ∀ w call, R w (w.noted call)) (env : KernelEnv) (venue : ReadOnlyVenueView)
    (outcome : VerificationOutcome) (observed : Except String Observation) :
    Effects.Moves R (cycleAlerts env venue outcome observed) := by
  have hone : ∀ alert message, Effects.Moves R (do
      let _ ← dispatchAlert env alert message
      return () : KernelM Unit) := fun alert message =>
    Effects.Moves.bind (dispatchAlert_moves hcall env alert message) fun _ => Effects.Moves.pure _
  cases observed with
  | error text => exact hone _ _
  | ok observation =>
      refine Effects.Moves.bind (Effects.Moves.forM fun ticker _ => ?_) fun _ => ?_
      · show Effects.Moves R (alertIfUnknown env venue ticker)
        rw [alertIfUnknown]
        split
        · exact Effects.Moves.throw _
        · exact Effects.Moves.ite (fun _ => hone _ _) fun _ => Effects.Moves.pure _
      · exact Effects.Moves.ite (fun _ => hone _ _) fun _ => Effects.Moves.pure _

/-- The dispatcher takes an alert. -/
def Dispatches (env : KernelEnv) (alert : AlertType) (message : String) : Prop :=
  ∃ report, env.dispatch alert message = .ok report

/-- The lookup of a held market returns, and so does the warning it may need. -/
def LookupReturns (env : KernelEnv) (venue : ReadOnlyVenueView) (ticker : String) : Prop :=
  ∃ market, venue.getMarket ticker = .ok market ∧
    (market.jurisdictionStatus = unknownJurisdiction →
      Dispatches env .JURISDICTION_UNKNOWN (jurisdictionMessage ticker))

/-- No alert of a breach raises. -/
def BreachAlertsReturn (env : KernelEnv) (venue : ReadOnlyVenueView) :
    Except String Observation → Prop
  | .error text => Dispatches env .RECONCILIATION_MISMATCH (unreadableMessage text)
  | .ok observation =>
    (∀ ticker, ticker ∈ observation.positions.map (·.ticker) ∨
        ticker ∈ observation.openOrders.map (·.ticker) → LookupReturns env venue ticker) ∧
      Dispatches env .RECONCILIATION_MISMATCH mismatchMessage

/-- A computation that returns from a state. -/
def Returns {α : Type} (m : KernelM α) (w : KernelWorld) : Prop := ∃ a w', m.run w = .ok a w'

theorem dispatchAlert_returns {env : KernelEnv} {alert : AlertType} {message : String}
    {w : KernelWorld} :
    Returns (do
      let _ ← dispatchAlert env alert message
      return () : KernelM Unit) w ↔ Dispatches env alert message := by
  rw [Returns, EStateM.run_bind, dispatchAlert_run, Dispatches]
  cases env.dispatch alert message with
  | ok report => exact iff_of_true ⟨(), _, rfl⟩ ⟨report, rfl⟩
  | error text => simp

theorem alertIfUnknown_returns {env : KernelEnv} {venue : ReadOnlyVenueView} {ticker : String}
    {w : KernelWorld} :
    Returns (alertIfUnknown env venue ticker) w ↔ LookupReturns env venue ticker := by
  rw [alertIfUnknown, LookupReturns]
  cases venue.getMarket ticker with
  | error text => simp [Returns]
  | ok market =>
      dsimp only
      split
      · rename_i hunknown
        rw [dispatchAlert_returns]
        simp [hunknown]
      · rename_i hknown
        refine iff_of_true ⟨(), w, rfl⟩ ⟨market, rfl, fun h => absurd h hknown⟩

theorem alertEach_returns {env : KernelEnv} {venue : ReadOnlyVenueView} {tickers : List String}
    {w : KernelWorld} :
    Returns (forM tickers fun ticker => alertIfUnknown env venue ticker : KernelM PUnit) w ↔
      ∀ ticker ∈ tickers, LookupReturns env venue ticker := by
  induction tickers generalizing w with
  | nil => exact iff_of_true ⟨_, w, rfl⟩ (by simp)
  | cons ticker tickers ih =>
      rw [List.forM_cons, Returns, EStateM.run_bind, List.forall_mem_cons,
        ← alertIfUnknown_returns (w := w), Returns]
      cases h : (alertIfUnknown env venue ticker).run w with
      | error e t => simp
      | ok a t =>
          have hrest := ih (w := t)
          rw [Returns] at hrest
          simp [hrest]

theorem mem_heldTickers {positions : List Position} {openOrders : List OpenOrder}
    {ticker : String} :
    ticker ∈ heldTickers positions openOrders ↔
      ticker ∈ positions.map (·.ticker) ∨ ticker ∈ openOrders.map (·.ticker) := by
  rw [heldTickers, List.mem_insertionSort, List.mem_dedup, List.mem_append]

/-- **The alerts of a breach return** exactly when every lookup and every dispatch does. -/
theorem cycleAlerts_returns {env : KernelEnv} {venue : ReadOnlyVenueView}
    {observed : Except String Observation} {w : KernelWorld} :
    Returns (cycleAlerts env venue .BREACH observed) w ↔
      BreachAlertsReturn env venue observed := by
  cases observed with
  | error text => exact dispatchAlert_returns
  | ok observation =>
      simp only [cycleAlerts, dispatchAlerts, alertUnknownJurisdictions, BreachAlertsReturn,
        ← mem_heldTickers]
      rw [← alertEach_returns (w := w), Returns, EStateM.run_bind, Returns]
      cases h : (forM (heldTickers observation.positions observation.openOrders)
          fun ticker => alertIfUnknown env venue ticker : KernelM PUnit).run w with
      | error e t => simp
      | ok a t =>
          have hlast := @dispatchAlert_returns env .RECONCILIATION_MISMATCH mismatchMessage t
          rw [Returns] at hlast
          simp only [if_true, hlast]
          simp

end Windbreak
