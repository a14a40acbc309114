import Windbreak.Core.LatchedFold
import Windbreak.Core.PooledRounding
import Windbreak.Numeric.Rounding
import Windbreak.RiskKernel.KillSwitch
import Windbreak.RiskKernel.Verification

/-!
# Expectations projected from the ledger

At startup the kernel folds its own history, and the venue where the history is silent, into a
baseline of cash, positions and resting orders.  From then on the baseline moves only by entries
booked in the ledger: a fill, and the arrival of an order on the resting book.

* **`restingEntry`, `fillEntry`** — what a booked entry says, or that it says nothing usable.
* **`consume`** — a fill draws down the resting order it names and releases its collateral pro rata
  on the cumulative quantity.
* **`advance`, `getExpectations`** — one entry, and all entries booked since the last call; an entry
  that cannot be accounted for latches the source.
-/

namespace Windbreak

/-! ## Resting orders -/

/-- A resting order that the expectation follows, with the collateral that was withheld for it and
what of that has been released.  What is released is always the share of what is consumed. -/
structure LedgerRestingOrder where
  totalCentis : ℤ
  consumedCentis : ℤ
  reservedMicros : ℤ
  releasedMicros : ℤ
  reserved_nonneg : 0 ≤ reservedMicros
  live : reservedMicros ≠ 0 → 0 ≤ consumedCentis ∧ consumedCentis < totalCentis
  reconciled : releasedMicros = ProRata.share reservedMicros totalCentis consumedCentis

namespace LedgerRestingOrder

/-- An order captured at startup: its collateral is inside the cash baseline already. -/
def captured (quantity : ContractCentis) : LedgerRestingOrder where
  totalCentis := quantity.value
  consumedCentis := 0
  reservedMicros := 0
  releasedMicros := 0
  reserved_nonneg := le_refl 0
  live := fun h => absurd rfl h
  reconciled := ProRata.share_zero.symm

end LedgerRestingOrder

/-- The collateral that consuming up to `consumedCentis` releases beyond what is released. -/
def releasedBy (order : LedgerRestingOrder) (consumedCentis : ℤ) : ℤ :=
  if order.reservedMicros = 0 then 0
  else
    -- the total of an order with a reservation is positive, so the division cannot raise
    quotient (order.reservedMicros * consumedCentis) order.totalCentis .understateEquity -
      order.releasedMicros

/-- **The releases telescope**: what is released after a step is the share of what is consumed. -/
theorem released_add_releasedBy (order : LedgerRestingOrder) (consumed : ℤ) :
    order.releasedMicros + releasedBy order consumed =
      ProRata.share order.reservedMicros order.totalCentis consumed := by
  rw [releasedBy]
  split
  · rename_i hnone
    rw [order.reconciled, hnone, ProRata.share_of_nothing, ProRata.share_of_nothing, Int.add_zero]
  · rename_i hsome
    obtain ⟨hconsumed, hlt⟩ := order.live hsome
    have hquotient : quotient (order.reservedMicros * consumed) order.totalCentis
        .understateEquity = ProRata.share order.reservedMicros order.totalCentis consumed :=
      quotient_understate (by omega) _
    omega

/-- **No release is negative**, since what is consumed never goes back. -/
theorem releasedBy_nonneg (order : LedgerRestingOrder) {consumed : ℤ}
    (h : order.consumedCentis ≤ consumed) : 0 ≤ releasedBy order consumed := by
  by_cases hnone : order.reservedMicros = 0
  · rw [releasedBy, if_pos hnone]
  · obtain ⟨hconsumed, hlt⟩ := order.live hnone
    have hmono := ProRata.share_mono order.reserved_nonneg (hconsumed.trans_lt hlt) h
    have hafter := released_add_releasedBy order consumed
    have hbefore := order.reconciled
    omega

namespace LedgerRestingOrder

/-- An order drawn down to `consumedCentis` that is not exhausted. -/
def drawn (order : LedgerRestingOrder) (consumedCentis : ℤ)
    (hle : order.consumedCentis ≤ consumedCentis) (hlt : consumedCentis < order.totalCentis) :
    LedgerRestingOrder where
  totalCentis := order.totalCentis
  consumedCentis := consumedCentis
  reservedMicros := order.reservedMicros
  releasedMicros := order.releasedMicros + releasedBy order consumedCentis
  reserved_nonneg := order.reserved_nonneg
  live := fun h => ⟨(order.live h).1.trans hle, hlt⟩
  reconciled := released_add_releasedBy order consumedCentis

end LedgerRestingOrder

/-! ## Booked entries -/

/-- The event type of a booked fill. -/
def fillAccountedEventType : String := "FillAccounted"

/-- The event type of a booked arrival on the resting book. -/
def restingOrderAccountedEventType : String := "RestingOrderAccounted"

/-- A booked fill; it names the resting order it executed against, or no order. -/
structure FillEntry where
  ticker : String
  cashDelta : MoneyMicros
  positionDelta : ContractCentis
  venueOrderId : String
  deriving DecidableEq, Repr

/-- A booked arrival: an order that rests some quantity, with the collateral withheld for it. -/
structure RestingEntry where
  venueOrderId : String
  quantityCentis : ℤ
  reservedMicros : ℤ
  named : venueOrderId ≠ ""
  quantity_pos : 0 < quantityCentis
  reserved_nonneg : 0 ≤ reservedMicros

/-- An integer field that may be absent, but not present as something else. -/
def Event.intOr (e : Event) (key : String) (default : ℤ) : Option ℤ :=
  match Json.lookup key e.payload with
  | none => some default
  | some v => v.asInt?

/-- A string field that may be absent, but not present as something else. -/
def Event.strOr (e : Event) (key : String) (default : String) : Option String :=
  match Json.lookup key e.payload with
  | none => some default
  | some v => v.asStr?

/-- Read one booked arrival. -/
def restingEntry (event : Event) : Option RestingEntry := do
  let orderId ← event.str? "venue_order_id"
  let quantity ← event.int? "resting_quantity_centis"
  let reserved ← event.intOr "reserved_collateral_micros" 0
  if h : orderId ≠ "" ∧ 0 < quantity ∧ 0 ≤ reserved then
    some ⟨orderId, quantity, reserved, h.1, h.2.1, h.2.2⟩
  else
    none

/-- Read one booked fill. -/
def fillEntry (event : Event) : Option FillEntry := do
  let ticker ← event.str? "ticker"
  let cash ← event.int? "cash_delta_micros"
  let position ← event.int? "position_delta_centis"
  let orderId ← event.strOr "venue_order_id" ""
  return ⟨ticker, ⟨cash⟩, ⟨position⟩, orderId⟩

/-- The two kinds of entry that the seam may deliver. -/
inductive AccountedEntry where
  | fill (entry : FillEntry)
  | arrival (entry : RestingEntry)

/-- Read an entry by its event type; every other type is a gap in the books. -/
def readEntry (event : Event) : Option AccountedEntry :=
  if event.eventType = fillAccountedEventType then
    (fillEntry event).map .fill
  else if event.eventType = restingOrderAccountedEventType then
    (restingEntry event).map .arrival
  else
    none

namespace RestingEntry

/-- The order that an arrival opens. -/
def opened (arrival : RestingEntry) : LedgerRestingOrder where
  totalCentis := arrival.quantityCentis
  consumedCentis := 0
  reservedMicros := arrival.reservedMicros
  releasedMicros := 0
  reserved_nonneg := arrival.reserved_nonneg
  live := fun _ => ⟨le_refl 0, arrival.quantity_pos⟩
  reconciled := ProRata.share_zero.symm

end RestingEntry

/-! ## Seeding the baseline -/

/-- A resting order as the connector reports it. -/
structure ConnectorOrder where
  id : String
  quantity : ContractCentis
  deriving DecidableEq, Repr

/-- What the connector answers at startup; each call may raise. -/
structure StartupConnector where
  getPositions : Except KernelError (List Position)
  getOpenOrders : Except KernelError (List ConnectorOrder)
  getAvailableBalance : Except KernelError MoneyMicros

/-- The events that the kernel itself recorded. -/
def ownComponentEvents (events : List Event) : List Event :=
  events.filter fun event => event.component = kernelComponent

/-- The verification events that may seed the cash baseline. -/
def cashSeedEventTypes : List String := ["VerificationPassed", "VerificationDrift"]

/-- The cash that one event seeds; an event that carries none leaves the seed as it is. -/
def cashSeedStep (seed : Option MoneyMicros) (event : Event) : Option MoneyMicros :=
  if event.eventType ∈ cashSeedEventTypes then
    match event.int? "exchange_verified_available_cash" with
    | some cash => some ⟨cash⟩
    | none => seed
  else
    seed

/-- The cash baseline: the last one verified, else what the connector has available. -/
def seedCash (events : List Event) (connector : StartupConnector) :
    Except KernelError MoneyMicros :=
  match (ownComponentEvents events).foldl cashSeedStep none with
  | some seed => .ok seed
  | none => connector.getAvailableBalance

/-- One row of a snapshot, unless it is malformed. -/
def snapshotRow : Json → Option (String × ContractCentis)
  | .obj row =>
    match (Json.lookup "ticker" row).bind Json.asStr?,
        (Json.lookup "quantity_centis" row).bind Json.asInt? with
    | some ticker, some quantity => some (ticker, ⟨quantity⟩)
    | _, _ => none
  | _ => none

/-- The rows of a snapshot by ticker; malformed rows are skipped one by one. -/
def rowsToPositions : Json → OrderedDict String ContractCentis
  | .arr rows => (rows.filterMap snapshotRow).foldl (fun d row => d.set row.1 row.2) .empty
  | _ => .empty

/-- The rows that one event brings: a snapshot replaces them, with none if it carries none. -/
def snapshotRowsStep (rows : Option Json) (event : Event) : Option Json :=
  if event.eventType = "PositionsSnapshotRecorded" then
    match Json.lookup "positions" event.payload with
    | some .null => none
    | carried => carried
  else
    rows

/-- The position baseline: the last snapshot, else what the connector reports. -/
def seedPositions (events : List Event) (connector : StartupConnector) :
    Except KernelError (OrderedDict String ContractCentis) :=
  match (ownComponentEvents events).foldl snapshotRowsStep none with
  | some rows => .ok (rowsToPositions rows)
  | none => connector.getPositions.map observedPositions

/-- The orders that the connector reports, by id. -/
def capturedOrders (orders : List ConnectorOrder) : OrderedDict String LedgerRestingOrder :=
  orders.foldl (fun d order => d.set order.id (.captured order.quantity)) .empty

/-- The resting orders at startup: none while the history ends killed, else the connector's. -/
def seedOpenOrders (events : List Event) (connector : StartupConnector) :
    Except KernelError (OrderedDict String LedgerRestingOrder) := do
  let state ← killStateIn events
  if state.killed then
    return .empty
  else
    let orders ← connector.getOpenOrders
    return capturedOrders orders

/-! ## The source -/

/-- The source of expectations: the latch, the resting orders and the running expectation. -/
structure LedgerExpectationSource where
  unaccountable : Bool
  openOrders : OrderedDict String LedgerRestingOrder
  expectations : LedgerExpectations

namespace LedgerExpectationSource

/-- Fold the history and the connector into the baseline. -/
def new (history : List Event) (connector : StartupConnector) :
    Except KernelError LedgerExpectationSource := do
  let openOrders ← seedOpenOrders history connector
  let cash ← seedCash history connector
  let positions ← seedPositions history connector
  return ⟨false, openOrders, ⟨cash, positions, openOrders.keys.toFinset⟩⟩

end LedgerExpectationSource

/-- Draw down the order that a fill names: what is released, and the resting orders after it.  A
fill that names no order draws nothing down; one that names an unknown order is refused. -/
def consume (openOrders : OrderedDict String LedgerRestingOrder) (entry : FillEntry) :
    Option (ℤ × OrderedDict String LedgerRestingOrder) :=
  if entry.venueOrderId = "" then
    some (0, openOrders)
  else
    match openOrders.get? entry.venueOrderId with
    | none => none
    | some order =>
      let consumed :=
        min (order.consumedCentis + |entry.positionDelta.value|) order.totalCentis
      let released := releasedBy order consumed
      if hlt : consumed < order.totalCentis then
        have hle : order.consumedCentis ≤ consumed := by
          have := abs_nonneg entry.positionDelta.value
          omega
        some (released, openOrders.set entry.venueOrderId (order.drawn consumed hle hlt))
      else
        -- exhausted: the order leaves the expectation with its last release
        some (released, openOrders.pop entry.venueOrderId)

/-- The expectation after one fill. -/
def advanced (expectations : LedgerExpectations) (entry : FillEntry)
    (openOrders : OrderedDict String LedgerRestingOrder) (releasedMicros : ℤ) :
    LedgerExpectations where
  expectedAvailableCash :=
    ⟨expectations.expectedAvailableCash.value + entry.cashDelta.value + releasedMicros⟩
  expectedPositions := expectations.expectedPositions.set entry.ticker
    ⟨heldQuantity expectations.expectedPositions entry.ticker + entry.positionDelta.value⟩
  expectedOpenOrderIds := openOrders.keys.toFinset

/-- The expectation after one arrival. -/
def withArrival (expectations : LedgerExpectations)
    (openOrders : OrderedDict String LedgerRestingOrder) (reservedMicros : ℤ) :
    LedgerExpectations where
  expectedAvailableCash := ⟨expectations.expectedAvailableCash.value - reservedMicros⟩
  expectedPositions := expectations.expectedPositions
  expectedOpenOrderIds := openOrders.keys.toFinset

namespace LedgerExpectationSource

/-- Apply one entry, unless it names an order it cannot be about. -/
def apply (s : LedgerExpectationSource) : AccountedEntry → Option LedgerExpectationSource
  | .fill entry =>
    match consume s.openOrders entry with
    | none => none
    | some (released, openOrders) =>
      some { s with
        openOrders := openOrders
        expectations := advanced s.expectations entry openOrders released }
  | .arrival entry =>
    if entry.venueOrderId ∈ s.openOrders.keys then
      none
    else
      let openOrders := s.openOrders.set entry.venueOrderId entry.opened
      some { s with
        openOrders := openOrders
        expectations := withArrival s.expectations openOrders entry.reservedMicros }

/-- Advance by one event. -/
def advance (s : LedgerExpectationSource) (event : Event) : Option LedgerExpectationSource :=
  (readEntry event).bind s.apply

theorem apply_unaccountable {s t : LedgerExpectationSource} {entry : AccountedEntry}
    (h : s.apply entry = some t) : t.unaccountable = s.unaccountable := by
  cases entry with
  | fill entry =>
      rw [apply] at h
      split at h
      · cases h
      · cases h
        rfl
  | arrival entry =>
      rw [apply] at h
      split at h
      · cases h
      · cases h
        rfl

theorem advance_unaccountable {s t : LedgerExpectationSource} {event : Event}
    (h : s.advance event = some t) : t.unaccountable = s.unaccountable := by
  obtain ⟨entry, -, happly⟩ := Option.bind_eq_some_iff.mp h
  exact apply_unaccountable happly

/-- The source as a consumer of events that latches. -/
def consumer : Latch.Consumer LedgerExpectationSource Event where
  step := advance
  latched := unaccountable
  latch := fun s => { s with unaccountable := true }
  latched_latch := fun _ => rfl
  latched_step := advance_unaccountable

/-- Answer one call.  `drained` is what the seam has booked since it was last drained, and nothing
where no seam is wired; a latched source does not drain it. -/
def getExpectations (s : LedgerExpectationSource) (drained : Option (List Event)) :
    LedgerExpectations × LedgerExpectationSource :=
  match drained with
  | none => (s.expectations, s)
  | some events =>
    let s' := Latch.poll consumer s events
    (s'.expectations, s')

end LedgerExpectationSource

end Windbreak
