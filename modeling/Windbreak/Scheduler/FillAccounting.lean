import Windbreak.Connector.PaperPositions
import Windbreak.Scheduler.LedgerReads

/-!
# Booking the venue's activity into the ledger

The bookkeeper turns each order that came to rest and each execution of the venue into one ledger
row.  It reads the venue's whole logs at every poll and skips what it has booked; a poll that raises
halfway keeps what it had booked by then.

* **`bookNew`** — one poll: the arrivals first, then the fills.
-/

namespace Windbreak

open Effects PaperExchange

/-! ## Rows -/

/-- What the bookkeeper writes. -/
inductive AccountingEntry where
  | restingOrderAccounted (venueOrderId ticker : String)
      (restingQuantityCentis reservedCollateralMicros : ℤ)
  | fillAccounted (fillId ticker : String) (cashDeltaMicros positionDeltaCentis : ℤ)
      (venueOrderId : String)
  deriving DecidableEq, Repr

/-- What the tick's reads see of an entry. -/
def AccountingEntry.payload : AccountingEntry → RowPayload
  | .fillAccounted _ _ cashDeltaMicros _ _ => .fillAccounted cashDeltaMicros
  | .restingOrderAccounted .. => .other

/-- The number the next row of a store gets. -/
def ReadStore.nextSequence (store : ReadStore) : ℤ :=
  (store.rows.getLast?.map (·.sequenceNumber)).getD 0 + 1

theorem ReadStore.lt_nextSequence (store : ReadStore) {row : ReadRow} (h : row ∈ store.rows) :
    row.sequenceNumber < store.nextSequence := by
  have hne : store.rows ≠ [] := List.ne_nil_of_mem h
  have hlast : store.rows.getLast? = some (store.rows.getLast hne) :=
    List.getLast?_eq_some_getLast hne
  have hle : row.sequenceNumber ≤ (store.rows.getLast hne).sequenceNumber := by
    have hsplit := store.ordered
    rw [← List.dropLast_append_getLast hne] at h hsplit
    rcases List.mem_append.mp h with hrow | hrow
    · have hlt := (List.pairwise_append.mp hsplit).2.2 row hrow _ (List.mem_singleton_self _)
      omega
    · rw [List.mem_singleton.mp hrow]
  rw [ReadStore.nextSequence, hlast]
  simp only [Option.map_some, Option.getD_some]
  omega

theorem ReadStore.nextSequence_pos (store : ReadStore) : 0 < store.nextSequence := by
  by_cases h : store.rows = []
  · simp [ReadStore.nextSequence, h]
  · have hlt := store.lt_nextSequence (List.getLast_mem h)
    have hpos := store.positive _ (List.getLast_mem h)
    omega

/-- The store with one more row at its end. -/
def ReadStore.append (store : ReadStore) (createdAt : Option ℤ) (payload : RowPayload) :
    ReadStore where
  rows := store.rows ++ [⟨store.nextSequence, createdAt, payload⟩]
  reverseTypeScan := store.reverseTypeScan
  positive := by
    intro row hrow
    rcases List.mem_append.mp hrow with hrow | hrow
    · exact store.positive row hrow
    · rw [List.mem_singleton.mp hrow]
      exact store.nextSequence_pos
  ordered := by
    refine List.pairwise_append.mpr ⟨store.ordered, List.pairwise_singleton _ _, ?_⟩
    intro row hrow last hlast
    rw [List.mem_singleton.mp hlast]
    exact store.lt_nextSequence hrow

/-! ## The bookkeeper -/

inductive BookError where
  | venue (error : PaperError)
  | writer
  deriving DecidableEq, Repr

/-- The ledger, what was written to it, and the ids the bookkeeper has booked. -/
structure BookState where
  store : ReadStore
  written : List AccountingEntry
  booked : List String
  bookedOrders : List String

/-- What happens around one poll: which appends raise, and the instant each row is stamped with. -/
structure BookEnv where
  appendRaises : AccountingEntry → Bool
  stamp : ℤ → Option ℤ

abbrev BookM := EStateM BookError BookState

/-- Append one entry. -/
def appendEntry (env : BookEnv) (entry : AccountingEntry) : BookM Unit := do
  if env.appendRaises entry then throw .writer
  else modify fun s =>
    { s with
      store := s.store.append (env.stamp s.store.nextSequence) entry.payload
      written := s.written ++ [entry] }

/-- Ask the venue. -/
def askVenue {α : Type} (x : Except PaperError α) : BookM α :=
  match x with
  | .ok a => pure a
  | .error e => throw (.venue e)

/-- The signed movement of a fill, in the frame of the YES side. -/
def positionDeltaCentis (fill : Fill) : ℤ := signed fill.side fill.quantity.value

/-- Book every order that came to rest and is not booked yet; how many were. -/
def bookArrivals (cfg : PaperFixture) (env : BookEnv) : List RestingOrder → BookM ℕ
  | [] => pure 0
  | order :: rest => do
    let s ← get
    if order.id ∈ s.bookedOrders then bookArrivals cfg env rest
    else do
      let collateral ← askVenue (restingCollateralMicros cfg order)
      appendEntry env
        (.restingOrderAccounted order.id order.ticker order.quantity.value collateral)
      modify fun s => { s with bookedOrders := s.bookedOrders ++ [order.id] }
      let more ← bookArrivals cfg env rest
      return more + 1

/-- Book every execution that is not booked yet; how many were. -/
def bookFills (cfg : PaperFixture) (env : BookEnv) : List Fill → BookM ℕ
  | [] => pure 0
  | fill :: rest => do
    let s ← get
    if fill.id ∈ s.booked then bookFills cfg env rest
    else do
      let cash ← askVenue (fillCashMicros cfg fill)
      appendEntry env
        (.fillAccounted fill.id fill.ticker (-cash) (positionDeltaCentis fill)
          (fill.orderId.getD ""))
      modify fun s => { s with booked := s.booked ++ [fill.id] }
      let more ← bookFills cfg env rest
      return more + 1

/-- The instant below every fill that is asked for. -/
def epochFloor : ℤ := 0

/-- One poll: the arrivals, then the fills. -/
def bookNew (cfg : PaperFixture) (env : BookEnv) (x : PaperExchange) : BookM ℕ := do
  let arrivals ← bookArrivals cfg env x.rested
  let fills ← bookFills cfg env (x.getFills epochFloor)
  return arrivals + fills

end Windbreak
