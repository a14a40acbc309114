import Mathlib.Algebra.Order.BigOperators.Group.List
import Windbreak.RiskKernel.LedgerExpectation

/-!
# Every booked entry counts once

* **`FillSays`, `ArrivalSays`** — what an event books, from its type and its payload; an event is
  read as an entry exactly when it says one.
* **`consume_known`** — one fill changes the order it names and no other.
* **`released_of_run`** — while the source accepts entries, what an order has released is the share
  of what its fills consumed of it, however they cut the quantity.
* **`entries_count_once`** — the answers do not depend on how the entries are cut into calls, the
  releases telescope to the reservation, and the first entry that cannot be accounted for freezes
  the source in the state before it.
-/

namespace Windbreak

/-! ## What an event says -/

/-- The event books a fill: its payload says every part of it, and may leave out the order. -/
structure FillSays (event : Event) (entry : FillEntry) : Prop where
  kind : event.eventType = fillAccountedEventType
  ticker : Json.lookup "ticker" event.payload = some (.str entry.ticker)
  cash : Json.lookup "cash_delta_micros" event.payload = some (.int entry.cashDelta.value)
  position :
    Json.lookup "position_delta_centis" event.payload = some (.int entry.positionDelta.value)
  order : Json.lookup "venue_order_id" event.payload = some (.str entry.venueOrderId) ∨
    Json.lookup "venue_order_id" event.payload = none ∧ entry.venueOrderId = ""

/-- The event books an arrival: its payload says the order and what rests of it, and may leave out
the reservation. -/
structure ArrivalSays (event : Event) (arrival : RestingEntry) : Prop where
  kind : event.eventType = restingOrderAccountedEventType
  order : Json.lookup "venue_order_id" event.payload = some (.str arrival.venueOrderId)
  quantity :
    Json.lookup "resting_quantity_centis" event.payload = some (.int arrival.quantityCentis)
  reserved :
    Json.lookup "reserved_collateral_micros" event.payload = some (.int arrival.reservedMicros) ∨
      Json.lookup "reserved_collateral_micros" event.payload = none ∧ arrival.reservedMicros = 0

/-- The event books an arrival of the order. -/
def EventOpens (id : String) (event : Event) : Prop :=
  ∃ arrival, ArrivalSays event arrival ∧ arrival.venueOrderId = id

namespace Event

variable {event : Event} {key : String}

theorem int?_eq_some {i : ℤ} :
    event.int? key = some i ↔ Json.lookup key event.payload = some (.int i) := by
  rw [int?]
  cases hvalue : Json.lookup key event.payload with
  | none => simp
  | some value => cases value <;> simp [Json.asInt?]

theorem str?_eq_some {s : String} :
    event.str? key = some s ↔ Json.lookup key event.payload = some (.str s) := by
  rw [str?]
  cases hvalue : Json.lookup key event.payload with
  | none => simp
  | some value => cases value <;> simp [Json.asStr?]

theorem intOr_eq_some {i default : ℤ} : event.intOr key default = some i ↔
    Json.lookup key event.payload = some (.int i) ∨
      Json.lookup key event.payload = none ∧ i = default := by
  rw [intOr]
  cases hvalue : Json.lookup key event.payload with
  | none => simp [eq_comm]
  | some value => cases value <;> simp [Json.asInt?]

theorem strOr_eq_some {s default : String} : event.strOr key default = some s ↔
    Json.lookup key event.payload = some (.str s) ∨
      Json.lookup key event.payload = none ∧ s = default := by
  rw [strOr]
  cases hvalue : Json.lookup key event.payload with
  | none => simp [eq_comm]
  | some value => cases value <;> simp [Json.asStr?]

end Event

/-- **An event is read as a fill** exactly when it says that fill. -/
theorem readEntry_fill_iff {event : Event} {entry : FillEntry} :
    readEntry event = some (.fill entry) ↔ FillSays event entry := by
  have hfill : fillEntry event = some entry ↔
      event.str? "ticker" = some entry.ticker ∧
        event.int? "cash_delta_micros" = some entry.cashDelta.value ∧
        event.int? "position_delta_centis" = some entry.positionDelta.value ∧
        event.strOr "venue_order_id" "" = some entry.venueOrderId := by
    obtain ⟨ticker, ⟨cash⟩, ⟨position⟩, orderId⟩ := entry
    simp [fillEntry, Option.bind_eq_some_iff]
  rw [Event.str?_eq_some, Event.int?_eq_some, Event.int?_eq_some, Event.strOr_eq_some] at hfill
  rw [readEntry]
  constructor
  · intro h
    split at h
    · rename_i hkind
      obtain ⟨read, hread, hsame⟩ := Option.map_eq_some_iff.mp h
      cases hsame
      obtain ⟨hticker, hcash, hposition, horder⟩ := hfill.mp hread
      exact ⟨hkind, hticker, hcash, hposition, horder⟩
    · split at h
      · obtain ⟨_, _, hother⟩ := Option.map_eq_some_iff.mp h
        cases hother
      · cases h
  · rintro ⟨hkind, hticker, hcash, hposition, horder⟩
    rw [if_pos hkind, hfill.mpr ⟨hticker, hcash, hposition, horder⟩]
    rfl

/-- **An event is read as an arrival** exactly when it says that arrival. -/
theorem readEntry_arrival_iff {event : Event} {arrival : RestingEntry} :
    readEntry event = some (.arrival arrival) ↔ ArrivalSays event arrival := by
  have hresting : restingEntry event = some arrival ↔
      event.str? "venue_order_id" = some arrival.venueOrderId ∧
        event.int? "resting_quantity_centis" = some arrival.quantityCentis ∧
        event.intOr "reserved_collateral_micros" 0 = some arrival.reservedMicros := by
    obtain ⟨orderId, quantity, reserved, hnamed, hpos, hnonneg⟩ := arrival
    simp only [restingEntry, Option.bind_eq_bind, Option.bind_eq_some_iff]
    constructor
    · rintro ⟨orderId, hid, quantity, hquantity, reserved, hreserved, h⟩
      split at h
      · cases h
        exact ⟨hid, hquantity, hreserved⟩
      · cases h
    · rintro ⟨hid, hquantity, hreserved⟩
      exact ⟨orderId, hid, quantity, hquantity, reserved, hreserved,
        dif_pos ⟨hnamed, hpos, hnonneg⟩⟩
  rw [Event.str?_eq_some, Event.int?_eq_some, Event.intOr_eq_some] at hresting
  rw [readEntry]
  constructor
  · intro h
    split at h
    · obtain ⟨_, _, hother⟩ := Option.map_eq_some_iff.mp h
      cases hother
    · split at h
      · rename_i hkind
        obtain ⟨read, hread, hsame⟩ := Option.map_eq_some_iff.mp h
        cases hsame
        obtain ⟨horder, hquantity, hreserved⟩ := hresting.mp hread
        exact ⟨hkind, horder, hquantity, hreserved⟩
      · cases h
  · rintro ⟨hkind, horder, hquantity, hreserved⟩
    have hother : event.eventType ≠ fillAccountedEventType := by
      rw [hkind]
      decide
    rw [if_neg hother, if_pos hkind, hresting.mpr ⟨horder, hquantity, hreserved⟩]
    rfl

/-! ## One entry -/

/-- What an entry releases to an order. -/
def releaseTo (id : String) (s : LedgerExpectationSource) : AccountedEntry → ℤ
  | .fill entry =>
    if entry.venueOrderId = id then ((consume s.openOrders entry).map Prod.fst).getD 0 else 0
  | .arrival _ => 0

/-- What an entry consumes of an order. -/
def consumptionOf (id : String) : AccountedEntry → ℤ
  | .fill entry => if entry.venueOrderId = id then |entry.positionDelta.value| else 0
  | .arrival _ => 0

/-- The entry opens the order. -/
def Opens (id : String) : AccountedEntry → Prop
  | .fill _ => False
  | .arrival entry => entry.venueOrderId = id

theorem consumptionOf_nonneg (id : String) (entry : AccountedEntry) :
    0 ≤ consumptionOf id entry := by
  cases entry with
  | fill entry =>
      rw [consumptionOf]
      split
      · exact abs_nonneg _
      · exact le_refl 0
  | arrival entry => exact le_refl 0

/-- The order after it is drawn down by some quantity, unless it is exhausted. -/
def LedgerRestingOrder.left (order : LedgerRestingOrder) (quantity : ℤ) :
    Option LedgerRestingOrder :=
  if hlt : order.consumedCentis + |quantity| < order.totalCentis then
    some (order.drawn (order.consumedCentis + |quantity|)
      (le_add_of_nonneg_right (abs_nonneg quantity)) hlt)
  else
    none

theorem consume_unnamed {openOrders : OrderedDict String LedgerRestingOrder} {entry : FillEntry}
    (h : entry.venueOrderId = "") : consume openOrders entry = some (0, openOrders) := if_pos h

theorem consume_unknown {openOrders : OrderedDict String LedgerRestingOrder} {entry : FillEntry}
    (hnamed : entry.venueOrderId ≠ "") (h : openOrders.get? entry.venueOrderId = none) :
    consume openOrders entry = none := by
  rw [consume, if_neg hnamed, h]

/-- A fill that names a resting order releases by what it consumes, and leaves of the order what it
does not consume. -/
theorem consume_known {openOrders : OrderedDict String LedgerRestingOrder} {entry : FillEntry}
    {order : LedgerRestingOrder} (hnamed : entry.venueOrderId ≠ "")
    (h : openOrders.get? entry.venueOrderId = some order) :
    ∃ openOrders', consume openOrders entry =
        some (releasedBy order (min (order.consumedCentis + |entry.positionDelta.value|)
          order.totalCentis), openOrders') ∧
      ∀ id, openOrders'.get? id =
        if id = entry.venueOrderId then order.left entry.positionDelta.value
        else openOrders.get? id := by
  have hleft : ∀ hlt : order.consumedCentis + |entry.positionDelta.value| < order.totalCentis,
      min (order.consumedCentis + |entry.positionDelta.value|) order.totalCentis =
        order.consumedCentis + |entry.positionDelta.value| := fun hlt => min_eq_left hlt.le
  rw [consume, if_neg hnamed, h]
  dsimp only
  by_cases hlt : order.consumedCentis + |entry.positionDelta.value| < order.totalCentis
  · have hmin : min (order.consumedCentis + |entry.positionDelta.value|) order.totalCentis <
        order.totalCentis := by
      rw [hleft hlt]
      exact hlt
    rw [dif_pos hmin]
    refine ⟨_, rfl, fun id => ?_⟩
    rw [OrderedDict.get?_set, LedgerRestingOrder.left, dif_pos hlt]
    simp only [hleft hlt]
  · have hmin : ¬ min (order.consumedCentis + |entry.positionDelta.value|) order.totalCentis <
        order.totalCentis := by
      rw [min_eq_right (not_lt.mp hlt)]
      exact lt_irrefl _
    rw [dif_neg hmin]
    refine ⟨_, rfl, fun id => ?_⟩
    rw [OrderedDict.get?_pop, LedgerRestingOrder.left, dif_neg hlt]

/-- A fill leaves every order alone that it does not name. -/
theorem consume_other {openOrders openOrders' : OrderedDict String LedgerRestingOrder}
    {entry : FillEntry} {released : ℤ} (h : consume openOrders entry = some (released, openOrders'))
    {id : String} (hid : entry.venueOrderId ≠ id) : openOrders'.get? id = openOrders.get? id := by
  by_cases hunnamed : entry.venueOrderId = ""
  · rw [consume_unnamed hunnamed] at h
    obtain ⟨-, rfl⟩ := Prod.mk.inj (Option.some.inj h)
    rfl
  · cases hother : openOrders.get? entry.venueOrderId with
    | none =>
        rw [consume_unknown hunnamed hother] at h
        cases h
    | some other =>
        obtain ⟨after, hknown, hget⟩ := consume_known hunnamed hother
        obtain ⟨-, rfl⟩ := Prod.mk.inj (Option.some.inj (h.symm.trans hknown))
        rw [hget, if_neg (Ne.symm hid)]

namespace LedgerExpectationSource

variable {s t : LedgerExpectationSource}

/-- **What an accepted fill does** to the source. -/
theorem apply_fill {entry : FillEntry} (h : s.apply (.fill entry) = some t) :
    ∃ released openOrders, consume s.openOrders entry = some (released, openOrders) ∧
      t = { s with
        openOrders := openOrders
        expectations := advanced s.expectations entry openOrders released } := by
  rw [apply] at h
  split at h
  · cases h
  · rename_i released openOrders hconsume
    exact ⟨released, openOrders, hconsume, (Option.some.inj h).symm⟩

/-- **What an accepted arrival does**: it opens an order that did not rest. -/
theorem apply_arrival {entry : RestingEntry} (h : s.apply (.arrival entry) = some t) :
    s.openOrders.get? entry.venueOrderId = none ∧
      t = { s with
        openOrders := s.openOrders.set entry.venueOrderId entry.opened
        expectations := withArrival s.expectations
          (s.openOrders.set entry.venueOrderId entry.opened) entry.reservedMicros } := by
  rw [apply] at h
  split at h
  · cases h
  · rename_i habsent
    exact ⟨OrderedDict.get?_eq_none_iff.mpr habsent, (Option.some.inj h).symm⟩

/-- An accepted entry that does not open an order draws it down, or leaves it alone. -/
theorem apply_open {id : String} (hid : id ≠ "") {entry : AccountedEntry}
    (h : s.apply entry = some t) (hopens : ¬ Opens id entry) {order : LedgerRestingOrder}
    (horder : s.openOrders.get? id = some order) :
    releaseTo id s entry =
        releasedBy order (min (order.consumedCentis + consumptionOf id entry) order.totalCentis) ∧
      t.openOrders.get? id = order.left (consumptionOf id entry) ∨
    consumptionOf id entry = 0 ∧ releaseTo id s entry = 0 ∧
      t.openOrders.get? id = some order := by
  cases entry with
  | fill entry =>
      obtain ⟨released, openOrders, hconsume, rfl⟩ := apply_fill h
      by_cases hname : entry.venueOrderId = id
      · subst hname
        obtain ⟨openOrders', hknown, hget⟩ := consume_known hid horder
        obtain ⟨-, rfl⟩ := Prod.mk.inj (Option.some.inj (hconsume.symm.trans hknown))
        refine .inl ⟨?_, ?_⟩
        · rw [releaseTo, if_pos rfl, hknown, consumptionOf, if_pos rfl]
          rfl
        · rw [hget, if_pos rfl, consumptionOf, if_pos rfl, LedgerRestingOrder.left,
            LedgerRestingOrder.left]
          simp only [abs_abs]
      · exact .inr ⟨if_neg hname, if_neg hname, (consume_other hconsume hname).trans horder⟩
  | arrival entry =>
      obtain ⟨-, rfl⟩ := apply_arrival h
      refine .inr ⟨rfl, rfl, ?_⟩
      dsimp only
      rw [OrderedDict.get?_set, if_neg (Ne.symm hopens), horder]

/-- An order that does not rest and is not opened stays away, and nothing is consumed of it. -/
theorem apply_absent {id : String} (hid : id ≠ "") {entry : AccountedEntry}
    (h : s.apply entry = some t) (hopens : ¬ Opens id entry)
    (habsent : s.openOrders.get? id = none) :
    consumptionOf id entry = 0 ∧ releaseTo id s entry = 0 ∧ t.openOrders.get? id = none := by
  cases entry with
  | fill entry =>
      obtain ⟨released, openOrders, hconsume, rfl⟩ := apply_fill h
      have hname : entry.venueOrderId ≠ id := by
        rintro rfl
        rw [consume_unknown hid habsent] at hconsume
        cases hconsume
      exact ⟨if_neg hname, if_neg hname, (consume_other hconsume hname).trans habsent⟩
  | arrival entry =>
      obtain ⟨-, rfl⟩ := apply_arrival h
      refine ⟨rfl, rfl, ?_⟩
      dsimp only
      rw [OrderedDict.get?_set, if_neg (Ne.symm hopens), habsent]

/-- An order without a reservation keeps none, and an entry releases nothing to it. -/
theorem apply_captured {id : String} {entry : AccountedEntry} (h : s.apply entry = some t)
    (hopens : ¬ Opens id entry)
    (hnone : ∀ order, s.openOrders.get? id = some order → order.reservedMicros = 0) :
    releaseTo id s entry = 0 ∧
      ∀ order, t.openOrders.get? id = some order → order.reservedMicros = 0 := by
  cases entry with
  | fill entry =>
      obtain ⟨released, openOrders, hconsume, rfl⟩ := apply_fill h
      by_cases hname : entry.venueOrderId = id
      · subst hname
        by_cases hunnamed : entry.venueOrderId = ""
        · rw [consume_unnamed hunnamed] at hconsume
          obtain ⟨rfl, rfl⟩ := Prod.mk.inj (Option.some.inj hconsume)
          refine ⟨?_, hnone⟩
          rw [releaseTo, if_pos rfl, consume_unnamed hunnamed]
          rfl
        · cases horder : s.openOrders.get? entry.venueOrderId with
          | none =>
              rw [consume_unknown hunnamed horder] at hconsume
              cases hconsume
          | some order =>
              obtain ⟨openOrders', hknown, hget⟩ := consume_known hunnamed horder
              obtain ⟨rfl, rfl⟩ := Prod.mk.inj (Option.some.inj (hconsume.symm.trans hknown))
              have hzero := hnone order horder
              refine ⟨?_, fun left hleft => ?_⟩
              · rw [releaseTo, if_pos rfl, hknown]
                change releasedBy order _ = 0
                rw [releasedBy, if_pos hzero]
              · dsimp only at hleft
                rw [hget, if_pos rfl, LedgerRestingOrder.left] at hleft
                split at hleft
                · cases hleft
                  exact hzero
                · cases hleft
      · refine ⟨if_neg hname, fun order horder => hnone order ?_⟩
        rw [← consume_other hconsume hname]
        exact horder
  | arrival entry =>
      obtain ⟨-, rfl⟩ := apply_arrival h
      refine ⟨rfl, fun order horder => hnone order ?_⟩
      dsimp only at horder
      rwa [OrderedDict.get?_set, if_neg (Ne.symm hopens)] at horder

/-- No entry releases a negative amount. -/
theorem releaseTo_nonneg (id : String) (s : LedgerExpectationSource) (entry : AccountedEntry) :
    0 ≤ releaseTo id s entry := by
  cases entry with
  | arrival entry => exact le_refl 0
  | fill entry =>
      rw [releaseTo]
      split
      · by_cases hunnamed : entry.venueOrderId = ""
        · rw [consume_unnamed hunnamed]
          exact le_refl 0
        · cases horder : s.openOrders.get? entry.venueOrderId with
          | none =>
              rw [consume_unknown hunnamed horder]
              exact le_refl 0
          | some order =>
              obtain ⟨_, hknown, -⟩ := consume_known hunnamed horder
              rw [hknown]
              change 0 ≤ releasedBy order _
              by_cases hnone : order.reservedMicros = 0
              · rw [releasedBy, if_pos hnone]
              · have hlive := order.live hnone
                have habs := abs_nonneg entry.positionDelta.value
                exact releasedBy_nonneg order (by omega)
      · exact le_refl 0

end LedgerExpectationSource

/-! ## Runs -/

/-- What an event releases to an order. -/
def eventRelease (id : String) (s : LedgerExpectationSource) (event : Event) : ℤ :=
  (readEntry event).elim 0 (releaseTo id s)

/-- What an event consumes of an order. -/
def eventConsumption (id : String) (event : Event) : ℤ :=
  (readEntry event).elim 0 (consumptionOf id)

theorem eventOpens_of_read {id : String} {event : Event} {entry : AccountedEntry}
    (hread : readEntry event = some entry) (hopens : Opens id entry) : EventOpens id event := by
  cases entry with
  | fill entry => exact hopens.elim
  | arrival arrival => exact ⟨arrival, readEntry_arrival_iff.mp hread, hopens⟩

/-- Only a fill consumes. -/
theorem eventConsumption_cases (id : String) (event : Event) :
    (∀ entry, FillSays event entry → eventConsumption id event =
      if entry.venueOrderId = id then |entry.positionDelta.value| else 0) ∧
    ((∀ entry, ¬ FillSays event entry) → eventConsumption id event = 0) := by
  simp only [← readEntry_fill_iff, eventConsumption]
  refine ⟨fun entry hread => ?_, fun hnone => ?_⟩
  · rw [hread]
    rfl
  · cases hread : readEntry event with
    | none => rfl
    | some entry =>
        cases entry with
        | fill entry => exact (hnone entry hread).elim
        | arrival arrival => rfl

/-- What a run of events releases to an order, one event after the other. -/
def releasedTo (id : String) : LedgerExpectationSource → List Event → ℤ
  | _, [] => 0
  | s, event :: events =>
    eventRelease id s event +
      (s.advance event).elim 0 fun t => releasedTo id t events

/-- What events consume of an order. -/
def consumedBy (id : String) (events : List Event) : ℤ :=
  (events.map (eventConsumption id)).sum

/-- The state after events that are all accepted. -/
def LedgerExpectationSource.advanceAll (s : LedgerExpectationSource) (events : List Event) :
    Option LedgerExpectationSource :=
  events.foldlM LedgerExpectationSource.advance s

namespace LedgerExpectationSource

variable {s t : LedgerExpectationSource} {id : String} {event : Event} {events : List Event}

theorem advanceAll_cons : s.advanceAll (event :: events) = some t ↔
    ∃ u, s.advance event = some u ∧ u.advanceAll events = some t := by
  rw [advanceAll, List.foldlM_cons, Option.bind_eq_bind, Option.bind_eq_some_iff]
  rfl

theorem advance_eq_some (id : String) (h : s.advance event = some t) :
    ∃ entry, readEntry event = some entry ∧ s.apply entry = some t ∧
      eventRelease id s event = releaseTo id s entry ∧
      eventConsumption id event = consumptionOf id entry := by
  obtain ⟨entry, hread, happly⟩ := Option.bind_eq_some_iff.mp h
  refine ⟨entry, hread, happly, ?_, ?_⟩
  · rw [eventRelease, hread]
    rfl
  · rw [eventConsumption, hread]
    rfl

theorem releasedTo_cons (h : s.advance event = some t) :
    releasedTo id s (event :: events) = eventRelease id s event + releasedTo id t events := by
  rw [releasedTo, h]
  rfl

theorem consumedBy_cons :
    consumedBy id (event :: events) = eventConsumption id event + consumedBy id events :=
  List.sum_cons

theorem eventRelease_nonneg (id : String) (s : LedgerExpectationSource) (event : Event) :
    0 ≤ eventRelease id s event := by
  rw [eventRelease]
  cases readEntry event with
  | none => exact le_refl 0
  | some entry => exact releaseTo_nonneg id s entry

/-- The cash that an accepted fill moves. -/
theorem advance_cash {entry : FillEntry} (hread : readEntry event = some (.fill entry))
    (h : s.advance event = some t) :
    t.expectations.expectedAvailableCash.value =
      s.expectations.expectedAvailableCash.value + entry.cashDelta.value +
        eventRelease entry.venueOrderId s event := by
  rw [advance, hread] at h
  obtain ⟨released, openOrders, hconsume, rfl⟩ := apply_fill h
  rw [eventRelease, hread]
  simp only [Option.elim_some, releaseTo, if_true, hconsume, Option.map_some, Option.getD_some,
    advanced]

/-- What an event does that is read as an arrival. -/
theorem advance_arrival {entry : RestingEntry} (hread : readEntry event = some (.arrival entry))
    (h : s.advance event = some t) :
    s.openOrders.get? entry.venueOrderId = none ∧
      t = { s with
        openOrders := s.openOrders.set entry.venueOrderId entry.opened
        expectations := withArrival s.expectations
          (s.openOrders.set entry.venueOrderId entry.opened) entry.reservedMicros } := by
  rw [advance, hread] at h
  exact apply_arrival h

/-- A fill moves the position of its own ticker by its own quantity, and no other. -/
theorem advance_position {entry : FillEntry} (hread : readEntry event = some (.fill entry))
    (h : s.advance event = some t) (ticker : String) :
    heldQuantity t.expectations.expectedPositions ticker =
      heldQuantity s.expectations.expectedPositions ticker +
        if ticker = entry.ticker then entry.positionDelta.value else 0 := by
  rw [advance, hread] at h
  obtain ⟨released, openOrders, -, rfl⟩ := apply_fill h
  simp only [advanced, heldQuantity, OrderedDict.get?_set]
  split
  · rename_i hsame
    rw [hsame]
    rfl
  · rw [Int.add_zero]

/-- A fill is refused exactly when it names an order that does not rest. -/
theorem apply_fill_isSome (s : LedgerExpectationSource) (entry : FillEntry) :
    (s.apply (.fill entry)).isSome ↔
      (entry.venueOrderId ≠ "" → entry.venueOrderId ∈ s.openOrders.keys) := by
  have hconsume : (consume s.openOrders entry).isSome ↔
      (entry.venueOrderId ≠ "" → entry.venueOrderId ∈ s.openOrders.keys) := by
    by_cases hunnamed : entry.venueOrderId = ""
    · simp [consume_unnamed hunnamed, hunnamed]
    · cases horder : s.openOrders.get? entry.venueOrderId with
      | none =>
          rw [consume_unknown hunnamed horder]
          exact iff_of_false (by simp) fun h =>
            OrderedDict.get?_eq_none_iff.mp horder (h hunnamed)
      | some order =>
          obtain ⟨_, hknown, -⟩ := consume_known hunnamed horder
          rw [hknown]
          refine iff_of_true rfl fun _ => ?_
          by_contra habsent
          rw [OrderedDict.get?_eq_none_iff.mpr habsent] at horder
          cases horder
  rw [← hconsume, apply]
  cases consume s.openOrders entry <;> rfl

/-- **What the source accepts**: a fill that names no order or one that rests, and an arrival of an
order that does not rest. -/
theorem advance_isSome_iff : (s.advance event).isSome ↔
    (∃ entry, FillSays event entry ∧
      (entry.venueOrderId ≠ "" → entry.venueOrderId ∈ s.openOrders.keys)) ∨
    ∃ arrival, ArrivalSays event arrival ∧ arrival.venueOrderId ∉ s.openOrders.keys := by
  simp only [← readEntry_fill_iff, ← readEntry_arrival_iff]
  rw [advance]
  cases hread : readEntry event with
  | none => simp
  | some entry =>
      cases entry with
      | fill entry => simp [apply_fill_isSome]
      | arrival arrival =>
          by_cases hopen : arrival.venueOrderId ∈ s.openOrders.keys <;> simp [apply, hopen]

/-- Once an order is gone nothing more is consumed of it or released to it. -/
theorem released_of_absent (hid : id ≠ "") (hrun : s.advanceAll events = some t)
    (hopens : ∀ event ∈ events, ¬ EventOpens id event) (habsent : s.openOrders.get? id = none) :
    consumedBy id events = 0 ∧ releasedTo id s events = 0 ∧ t.openOrders.get? id = none := by
  induction events generalizing s with
  | nil =>
      rw [← Option.some.inj hrun]
      exact ⟨rfl, rfl, habsent⟩
  | cons event events ih =>
      obtain ⟨u, hstep, hrest⟩ := advanceAll_cons.mp hrun
      obtain ⟨entry, hread, happly, hrelease, hconsumption⟩ := advance_eq_some id hstep
      have hclosed : ¬ Opens id entry := fun ho => hopens event (.head _) (eventOpens_of_read hread ho)
      obtain ⟨hzero, hnone, haway⟩ := apply_absent hid happly hclosed habsent
      obtain ⟨hzeros, hnones, hend⟩ := ih hrest (fun e he => hopens e (.tail _ he)) haway
      refine ⟨?_, ?_, hend⟩
      · rw [consumedBy_cons, hconsumption, hzero, hzeros, Int.add_zero]
      · rw [releasedTo_cons hstep, hrelease, hnone, hnones, Int.add_zero]

/-- **What a run releases** to an order that rests: with what was released before, the share of what
is consumed, clamped to the whole.  The order is gone once the whole is consumed. -/
theorem released_of_run (hid : id ≠ "") (hrun : s.advanceAll events = some t)
    (hopens : ∀ event ∈ events, ¬ EventOpens id event) {order : LedgerRestingOrder}
    (horder : s.openOrders.get? id = some order)
    (hlive : order.consumedCentis < order.totalCentis) :
    order.releasedMicros + releasedTo id s events =
        ProRata.share order.reservedMicros order.totalCentis
          (min (order.consumedCentis + consumedBy id events) order.totalCentis) ∧
      (t.openOrders.get? id = none ↔
        order.totalCentis ≤ order.consumedCentis + consumedBy id events) := by
  induction events generalizing s order with
  | nil =>
      rw [← Option.some.inj hrun, horder]
      change order.releasedMicros + 0 = ProRata.share _ _ (min (order.consumedCentis + 0) _) ∧ _
      rw [Int.add_zero, Int.add_zero, min_eq_left hlive.le]
      refine ⟨order.reconciled, iff_of_false (by simp) ?_⟩
      change ¬ order.totalCentis ≤ order.consumedCentis + 0
      omega
  | cons event events ih =>
      obtain ⟨u, hstep, hrest⟩ := advanceAll_cons.mp hrun
      obtain ⟨entry, hread, happly, hrelease, hconsumption⟩ := advance_eq_some id hstep
      have hclosed : ¬ Opens id entry := fun ho => hopens event (.head _) (eventOpens_of_read hread ho)
      have hlater : ∀ e ∈ events, ¬ EventOpens id e := fun e he => hopens e (.tail _ he)
      have hpos := consumptionOf_nonneg id entry
      rw [releasedTo_cons hstep, consumedBy_cons, hrelease, hconsumption]
      rcases apply_open hid happly hclosed horder with ⟨hreleased, hleft⟩ | ⟨hzero, hnone, hsame⟩
      · have htelescope := released_add_releasedBy order
          (min (order.consumedCentis + consumptionOf id entry) order.totalCentis)
        simp only [LedgerRestingOrder.left, abs_of_nonneg hpos] at hleft
        by_cases hlt : order.consumedCentis + consumptionOf id entry < order.totalCentis
        · -- the order is left with what the entry did not consume
          rw [dif_pos hlt] at hleft
          obtain ⟨hshare, hgone⟩ := ih hrest hlater hleft hlt
          simp only [LedgerRestingOrder.drawn, Int.add_assoc] at hshare hgone
          rw [min_eq_left hlt.le] at hreleased
          rw [hreleased]
          exact ⟨hshare, hgone⟩
        · -- the entry exhausts it, and the rest of the run leaves it alone
          rw [dif_neg hlt] at hleft
          obtain ⟨hzeros, hnones, hend⟩ := released_of_absent hid hrest hlater hleft
          rw [hzeros, hnones, hreleased, Int.add_zero, Int.add_zero]
          exact ⟨htelescope, iff_of_true hend (not_lt.mp hlt)⟩
      · obtain ⟨hshare, hgone⟩ := ih hrest hlater hsame hlive
        rw [hzero, hnone, Int.zero_add, Int.zero_add]
        exact ⟨hshare, hgone⟩

/-- An order that carries no reservation releases nothing, whatever is consumed of it. -/
theorem released_of_captured (hrun : s.advanceAll events = some t)
    (hopens : ∀ event ∈ events, ¬ EventOpens id event)
    (hcaptured : ∀ order, s.openOrders.get? id = some order → order.reservedMicros = 0) :
    releasedTo id s events = 0 := by
  induction events generalizing s with
  | nil => rfl
  | cons event events ih =>
      obtain ⟨u, hstep, hrest⟩ := advanceAll_cons.mp hrun
      obtain ⟨entry, hread, happly, hrelease, -⟩ := advance_eq_some id hstep
      have hclosed : ¬ Opens id entry := fun ho => hopens event (.head _) (eventOpens_of_read hread ho)
      obtain ⟨hnone, hstill⟩ := apply_captured happly hclosed hcaptured
      rw [releasedTo_cons hstep, hrelease, hnone, Int.zero_add]
      exact ih hrest (fun e he => hopens e (.tail _ he)) hstill

/-! ## Calls -/

/-- The source after one call for each batch that the seam books in between. -/
def afterCalls (s : LedgerExpectationSource) (batches : List (List Event)) :
    LedgerExpectationSource :=
  batches.foldl (fun s batch => (s.getExpectations (some batch)).2) s

/-- What the last of the calls answers. -/
def lastAnswer (s : LedgerExpectationSource) (batches : List (List Event)) (last : List Event) :
    LedgerExpectations :=
  ((s.afterCalls batches).getExpectations (some last)).1

theorem afterCalls_eq (s : LedgerExpectationSource) (batches : List (List Event)) :
    s.afterCalls batches = Latch.poll consumer s batches.flatten :=
  Latch.polls_flatten consumer s batches

theorem lastAnswer_eq (s : LedgerExpectationSource) (batches : List (List Event))
    (last : List Event) :
    s.lastAnswer batches last =
      (Latch.poll consumer s (batches ++ [last]).flatten).expectations := by
  have hlast : s.lastAnswer batches last =
      (Latch.poll consumer (s.afterCalls batches) last).expectations := rfl
  rw [hlast, afterCalls_eq, Latch.poll_append, List.flatten_append, List.flatten_singleton]

end LedgerExpectationSource

/-! ## Every entry counts once -/

/-- What becomes of the reservation of an arrival over the events after it. -/
structure ReleaseLaw (arrival : RestingEntry) (s : LedgerExpectationSource) (events : List Event)
    (t : LedgerExpectationSource) : Prop where
  /-- In total, the share of what is consumed, rounded down. -/
  total : releasedTo arrival.venueOrderId s events =
    arrival.reservedMicros * min (consumedBy arrival.venueOrderId events) arrival.quantityCentis /
      arrival.quantityCentis
  /-- The order is gone exactly when it is exhausted. -/
  gone : arrival.venueOrderId ∉ t.openOrders.keys ↔
    arrival.quantityCentis ≤ consumedBy arrival.venueOrderId events
  /-- The whole reservation is released then. -/
  whole : arrival.quantityCentis ≤ consumedBy arrival.venueOrderId events →
    releasedTo arrival.venueOrderId s events = arrival.reservedMicros
  /-- And not before. -/
  notBefore : 0 < arrival.reservedMicros →
    consumedBy arrival.venueOrderId events < arrival.quantityCentis →
      releasedTo arrival.venueOrderId s events < arrival.reservedMicros

/-- Every entry booked after the baseline `s` counts exactly once. -/
structure EntriesCountOnce (s : LedgerExpectationSource) : Prop where
  /-- The last answer depends on the entries, not on the calls that took them. -/
  cuts : ∀ batches last batches' last',
    (batches ++ [last]).flatten = (batches' ++ [last']).flatten →
      s.lastAnswer batches last = s.lastAnswer batches' last'
  /-- Every fill is accepted that names no order or one that rests, every arrival of an order that
  does not rest, and nothing else. -/
  accepted : ∀ before u event, s.advanceAll before = some u →
    ((u.advance event).isSome ↔
      (∃ entry, FillSays event entry ∧
        (entry.venueOrderId ≠ "" → entry.venueOrderId ∈ u.openOrders.keys)) ∨
      ∃ arrival, ArrivalSays event arrival ∧ arrival.venueOrderId ∉ u.openOrders.keys)
  /-- A fill that is accepted moves the cash by its own amount and by what it releases, and the
  position of its ticker by its own quantity. -/
  credited : ∀ before u event entry t, s.advanceAll before = some u →
    FillSays event entry → u.advance event = some t →
      t.expectations.expectedAvailableCash.value =
          u.expectations.expectedAvailableCash.value + entry.cashDelta.value +
            eventRelease entry.venueOrderId u event ∧
        ∀ ticker, heldQuantity t.expectations.expectedPositions ticker =
          heldQuantity u.expectations.expectedPositions ticker +
            if ticker = entry.ticker then entry.positionDelta.value else 0
  /-- An arrival that is accepted withholds its reservation from the cash, and its order rests. -/
  withheld : ∀ before u event arrival t, s.advanceAll before = some u →
    ArrivalSays event arrival → u.advance event = some t →
      t.expectations.expectedAvailableCash.value =
          u.expectations.expectedAvailableCash.value - arrival.reservedMicros ∧
        t.expectations.expectedPositions = u.expectations.expectedPositions ∧
        t.openOrders.get? arrival.venueOrderId = some arrival.opened
  /-- Only a fill consumes, its whole quantity, of the order it names. -/
  consumes : ∀ id event, (∀ entry, FillSays event entry →
      eventConsumption id event =
        if entry.venueOrderId = id then |entry.positionDelta.value| else 0) ∧
    ((∀ entry, ¬ FillSays event entry) → eventConsumption id event = 0)
  /-- No single release is negative. -/
  nonneg : ∀ before u id event, s.advanceAll before = some u → 0 ≤ eventRelease id u event
  /-- From its arrival on, an order releases its reservation pro rata. -/
  arrivals : ∀ before u event arrival v events t, s.advanceAll before = some u →
    ArrivalSays event arrival → u.advance event = some v → v.advanceAll events = some t →
        (∀ e ∈ events, ¬ EventOpens arrival.venueOrderId e) → ReleaseLaw arrival v events t
  /-- An order captured at startup has no reservation, and releases none. -/
  captured : ∀ id events t, id ∈ s.openOrders.keys → s.advanceAll events = some t →
    (∀ e ∈ events, ¬ EventOpens id e) → releasedTo id s events = 0
  /-- An entry that cannot be accounted for latches the source in the state before it, for every
  later call. -/
  latches : ∀ before u gap after batches, s.advanceAll before = some u → u.advance gap = none →
    batches.flatten = before ++ gap :: after →
      s.afterCalls batches = { u with unaccountable := true }

/-- The law of an arrival, from the order that it opens. -/
theorem releaseLaw_of_opened {arrival : RestingEntry} {s t : LedgerExpectationSource}
    {events : List Event} (hopen : s.openOrders.get? arrival.venueOrderId = some arrival.opened)
    (hrun : s.advanceAll events = some t)
    (hopens : ∀ event ∈ events, ¬ EventOpens arrival.venueOrderId event) :
    ReleaseLaw arrival s events t := by
  obtain ⟨hshare, hgone⟩ := LedgerExpectationSource.released_of_run arrival.named hrun hopens hopen
    arrival.quantity_pos
  simp only [RestingEntry.opened, Int.zero_add] at hshare hgone
  refine ⟨hshare, ?_, fun h => ?_, fun hpos h => ?_⟩
  · rw [← OrderedDict.get?_eq_none_iff]
    exact hgone
  · rw [hshare, min_eq_right h, ProRata.share_total arrival.quantity_pos]
  · rw [hshare, min_eq_left h.le]
    exact ProRata.share_lt hpos h arrival.quantity_pos

theorem capturedOrders_reserved (orders : List ConnectorOrder) :
    ∀ id order, (capturedOrders orders).get? id = some order → order.reservedMicros = 0 := by
  unfold capturedOrders
  induction orders using List.reverseRecOn with
  | nil => simp
  | append_singleton orders order ih =>
      intro id found h
      rw [List.foldl_append, List.foldl_cons, List.foldl_nil, OrderedDict.get?_set] at h
      split at h
      · cases h
        rfl
      · exact ih id found h

/-- A baseline is not latched, and none of its orders carries a reservation. -/
theorem baseline_of_new {history : List Event} {connector : StartupConnector}
    {s : LedgerExpectationSource} (h : LedgerExpectationSource.new history connector = .ok s) :
    s.unaccountable = false ∧
      ∀ id order, s.openOrders.get? id = some order → order.reservedMicros = 0 := by
  obtain ⟨openOrders, hopen, h⟩ := Effects.except_bind_ok.mp h
  obtain ⟨cash, -, h⟩ := Effects.except_bind_ok.mp h
  obtain ⟨positions, -, h⟩ := Effects.except_bind_ok.mp h
  cases h
  refine ⟨rfl, ?_⟩
  obtain ⟨state, -, hopen⟩ := Effects.except_bind_ok.mp hopen
  split at hopen
  · cases hopen
    simp
  · obtain ⟨orders, -, hopen⟩ := Effects.except_bind_ok.mp hopen
    cases hopen
    exact capturedOrders_reserved orders

/-- **Every booked entry counts exactly once**, from the baseline of any history and any venue. -/
theorem entries_count_once (history : List Event) (connector : StartupConnector)
    (s : LedgerExpectationSource) (h : LedgerExpectationSource.new history connector = .ok s) :
    EntriesCountOnce s := by
  obtain ⟨hopen, hcaptured⟩ := baseline_of_new h
  refine ⟨?_, ?_, ?_, ?_, ?_, ?_, ?_, ?_, ?_⟩
  · intro batches last batches' last' hsame
    rw [LedgerExpectationSource.lastAnswer_eq, LedgerExpectationSource.lastAnswer_eq, hsame]
  · intro before u event _
    exact LedgerExpectationSource.advance_isSome_iff
  · intro before u event entry t _ hsays hstep
    have hread := readEntry_fill_iff.mpr hsays
    exact ⟨LedgerExpectationSource.advance_cash hread hstep,
      LedgerExpectationSource.advance_position hread hstep⟩
  · intro before u event arrival t _ hsays hstep
    obtain ⟨-, rfl⟩ :=
      LedgerExpectationSource.advance_arrival (readEntry_arrival_iff.mpr hsays) hstep
    exact ⟨rfl, rfl, OrderedDict.get?_set_self _ _ _⟩
  · intro id event
    exact eventConsumption_cases id event
  · intro before u id event _
    exact LedgerExpectationSource.eventRelease_nonneg id u event
  · intro before u event arrival v events t _ hsays hstep hrun hopens
    obtain ⟨-, rfl⟩ :=
      LedgerExpectationSource.advance_arrival (readEntry_arrival_iff.mpr hsays) hstep
    exact releaseLaw_of_opened (OrderedDict.get?_set_self _ _ _) hrun hopens
  · intro id events t _ hrun hopens
    exact LedgerExpectationSource.released_of_captured hrun hopens (hcaptured id)
  · intro before u gap after batches hbefore hgap hentries
    rw [LedgerExpectationSource.afterCalls_eq, hentries]
    exact Latch.poll_of_refused LedgerExpectationSource.consumer hopen hbefore hgap
      after

/-- A venue with one resting order. -/
def oneOrderConnector : StartupConnector where
  getPositions := .ok []
  getOpenOrders := .ok [⟨"O1", ⟨300⟩⟩]
  getAvailableBalance := .ok ⟨1000000⟩

/-- A history whose last verification saw less cash than the venue reports. -/
def verifiedHistory : List Event :=
  [kernelEvent "VerificationPassed" 1 [("exchange_verified_available_cash", .int 900000)]]

/-- The arrival of an order for 300 centis with 1000 micros withheld for it. -/
def orderArrival : Event :=
  ⟨"RestingOrderAccounted", "execution", 2, [("venue_order_id", .str "O2"),
    ("resting_quantity_centis", .int 300), ("reserved_collateral_micros", .int 1000)]⟩

/-- A fill of 100 centis of that order. -/
def orderFill : Event :=
  ⟨"FillAccounted", "execution", 2, [("ticker", .str "T"), ("cash_delta_micros", .int (-40)),
    ("position_delta_centis", .int 100), ("venue_order_id", .str "O2")]⟩

/-- The baseline of that venue and history, and the cash once the two entries are booked: the
withheld 1000 micros, then the price of the fill and the third that it releases. -/
theorem entries_count_once_one_order :
    ∃ s, LedgerExpectationSource.new verifiedHistory oneOrderConnector = .ok s ∧
      EntriesCountOnce s ∧
      ((s.lastAnswer [[orderArrival], []] [orderFill]).expectedAvailableCash).value =
        900000 - 1000 - 40 + 333 :=
  ⟨_, rfl, entries_count_once verifiedHistory oneOrderConnector _ rfl, by decide⟩

end Windbreak
