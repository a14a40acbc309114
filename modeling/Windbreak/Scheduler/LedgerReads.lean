import Mathlib.Algebra.Order.Group.Unbundled.Int
import Mathlib.Algebra.Order.Group.Abs
import Mathlib.Data.Int.Order.Basic
import Mathlib.Data.List.MinMax

/-!
# What a tick reads out of the ledger

Four figures of the risk account are folded from ledger rows at every tick.  Each has a reference,
a fold over all rows, and a read that a store with a newest-first walk answers in fewer rows.

* **`dayEquityMicros`, `readDayEquity`** — the baseline and the trough of the current day.  The walk
  stops at the first sample of an earlier day.
* **`equityCurveMicros`, `readEquityCurve`** — the peak and the latest equity.  The walk stops at the
  watermark of a cursor, which remembers the rest.
* **`notionalTodayMicros`, `readNotionalToday`** and **`ordersLastHourCount`, `readOrdersLastHour`**
  — a sum and a count.  These walks do not stop.
-/

namespace Windbreak

/-! ## Rows -/

/-- What the reads look at in a row. -/
inductive RowPayload where
  | equitySampled (epochS equityMicros : ℤ)
  | fillAccounted (cashDeltaMicros : ℤ)
  | orderTransitionLedgered (event : String)
  | other
  deriving DecidableEq, Repr

/-- A row.  The recorded instant is in microseconds since the epoch, `none` where its text cannot be
parsed or has no offset. -/
structure ReadRow where
  sequenceNumber : ℤ
  createdAt : Option ℤ
  payload : RowPayload
  deriving DecidableEq, Repr

/-- The rows of a store in append order, and whether the store has the newest-first walk. -/
structure ReadStore where
  rows : List ReadRow
  reverseTypeScan : Bool
  positive : ∀ row ∈ rows, 0 < row.sequenceNumber
  ordered : rows.Pairwise fun earlier later => earlier.sequenceNumber < later.sequenceNumber

/-- The day an epoch second falls on. -/
def utcDay (epochS : ℤ) : ℤ := epochS / 86400

/-! ## The equity of the day -/

/-- An equity sample, with the position of its row. -/
structure EquitySample where
  sequenceNumber : ℤ
  epochS : ℤ
  equityMicros : ℤ
  deriving DecidableEq, Repr

/-- The sample a row holds. -/
def ReadRow.equitySample (row : ReadRow) : Option EquitySample :=
  match row.payload with
  | .equitySampled epochS equityMicros => some ⟨row.sequenceNumber, epochS, equityMicros⟩
  | _ => none

/-- The samples of some rows. -/
def equitySamples (rows : List ReadRow) : List EquitySample := rows.filterMap ReadRow.equitySample

/-- The samples newest first, down to the first of an earlier day. -/
def samplesBackToTheDayBoundary (rows : List ReadRow) (today : ℤ) : List EquitySample :=
  (equitySamples rows.reverse).takeWhile fun sample => today ≤ utcDay sample.epochS

/-- The day's earliest equity and the day's lowest. -/
structure DayEquity where
  baseline : ℤ
  trough : ℤ
  deriving DecidableEq, Repr

/-- One sample, folded in; the first component is the instant of the baseline. -/
def dayEquityStep (today : ℤ) (state : Option (ℤ × DayEquity)) (sample : EquitySample) :
    Option (ℤ × DayEquity) :=
  if utcDay sample.epochS ≠ today then state
  else
    match state with
    | none => some (sample.epochS, ⟨sample.equityMicros, sample.equityMicros⟩)
    | some (earliest, day) =>
      if sample.epochS < earliest then
        some (sample.epochS, ⟨sample.equityMicros, min day.trough sample.equityMicros⟩)
      else some (earliest, ⟨day.baseline, min day.trough sample.equityMicros⟩)

/-- The baseline and the trough of a day. -/
def foldDayEquity (samples : List EquitySample) (today : ℤ) : Option DayEquity :=
  (samples.foldl (dayEquityStep today) none).map Prod.snd

/-- The reference. -/
def dayEquityMicros (rows : List ReadRow) (nowEpochS : ℤ) : Option DayEquity :=
  foldDayEquity (equitySamples rows) (utcDay nowEpochS)

/-- The read of the tick. -/
def readDayEquity (store : ReadStore) (nowEpochS : ℤ) : Option DayEquity :=
  if store.reverseTypeScan then
    foldDayEquity (samplesBackToTheDayBoundary store.rows (utcDay nowEpochS)) (utcDay nowEpochS)
  else dayEquityMicros store.rows nowEpochS

/-! ## The equity curve -/

/-- The highest equity sampled, and the newest. -/
structure EquityCurve where
  highWaterMark : ℤ
  latest : ℤ
  deriving DecidableEq, Repr

/-- The memo of a process: the fold of every sample up to a position. -/
structure EquityCurveCursor where
  curve : Option EquityCurve
  coveredThrough : ℤ
  deriving DecidableEq, Repr

/-- The cursor a process starts with. -/
def EquityCurveCursor.cold : EquityCurveCursor := ⟨none, 0⟩

/-- The samples newest first, down to the watermark. -/
def samplesAboveTheWatermark (rows : List ReadRow) (coveredThrough : ℤ) : List EquitySample :=
  (equitySamples rows.reverse).takeWhile fun sample => coveredThrough < sample.sequenceNumber

/-- One sample, folded in. -/
def curveStep (cursor : EquityCurveCursor) (sample : EquitySample) : EquityCurveCursor :=
  match cursor.curve with
  | none => ⟨some ⟨sample.equityMicros, sample.equityMicros⟩, sample.sequenceNumber⟩
  | some curve =>
    if cursor.coveredThrough < sample.sequenceNumber then
      ⟨some ⟨max curve.highWaterMark sample.equityMicros, sample.equityMicros⟩,
        sample.sequenceNumber⟩
    else ⟨some ⟨max curve.highWaterMark sample.equityMicros, curve.latest⟩, cursor.coveredThrough⟩

/-- Fold samples into a cursor. -/
def foldEquityCurve (samples : List EquitySample) (into : EquityCurveCursor) : EquityCurveCursor :=
  samples.foldl curveStep into

/-- The reference. -/
def equityCurveMicros (rows : List ReadRow) : Option EquityCurve :=
  (foldEquityCurve (equitySamples rows) .cold).curve

/-- The read of the tick, which leaves the cursor it resumes from advanced. -/
def readEquityCurve (store : ReadStore) (cursor : EquityCurveCursor) : EquityCurveCursor :=
  foldEquityCurve
    (if store.reverseTypeScan then samplesAboveTheWatermark store.rows cursor.coveredThrough
      else equitySamples store.rows) cursor

/-! ## The notional of the day -/

/-- The day a fill was recorded on. -/
def ReadRow.fillUtcDay (row : ReadRow) : Option ℤ :=
  row.createdAt.map fun micros => micros / (86400 * 1000000)

/-- The cash movement of a fill row. -/
def ReadRow.cashDelta (row : ReadRow) : Option ℤ :=
  match row.payload with
  | .fillAccounted cashDeltaMicros => some cashDeltaMicros
  | _ => none

/-- The rows that book a fill. -/
def fillRows (rows : List ReadRow) : List ReadRow := rows.filter fun row => row.cashDelta.isSome

/-- The notional of one fill: the size of its cash movement, whatever its direction. -/
def ReadRow.fillNotionalMicros (row : ReadRow) : ℤ := |row.cashDelta.getD 0|

/-- One fill, summed; a fill without a day abandons the answer. -/
def notionalStep (today total : ℤ) (row : ReadRow) : Option ℤ :=
  match row.fillUtcDay with
  | none => none
  | some day => some (if day = today then total + row.fillNotionalMicros else total)

/-- The notional booked on a day. -/
def foldNotionalMicros (fills : List ReadRow) (today : ℤ) : Option ℤ :=
  fills.foldlM (notionalStep today) 0

/-- The reference. -/
def notionalTodayMicros (rows : List ReadRow) (nowEpochS : ℤ) : Option ℤ :=
  foldNotionalMicros (fillRows rows) (utcDay nowEpochS)

/-- The read of the tick. -/
def readNotionalToday (store : ReadStore) (nowEpochS : ℤ) : Option ℤ :=
  if store.reverseTypeScan then
    foldNotionalMicros (fillRows store.rows.reverse) (utcDay nowEpochS)
  else notionalTodayMicros store.rows nowEpochS

/-! ## The orders of the hour -/

def requestSubmissionEvent : String := "REQUEST_SUBMISSION"

def trailingHourSeconds : ℤ := 3600

/-- The instant of a row in whole seconds, truncated towards zero. -/
def ReadRow.recordEpochS (row : ReadRow) : Option ℤ :=
  row.createdAt.map fun micros => micros.tdiv 1000000

/-- The lifecycle event of a transition row. -/
def ReadRow.transitionEvent (row : ReadRow) : Option String :=
  match row.payload with
  | .orderTransitionLedgered event => some event
  | _ => none

/-- The rows that ledger a transition of an order. -/
def transitionRows (rows : List ReadRow) : List ReadRow :=
  rows.filter fun row => row.transitionEvent.isSome

/-- Does a transition row mark an order being routed at a venue? -/
def ReadRow.isOrderRouting (row : ReadRow) : Bool :=
  row.transitionEvent == some requestSubmissionEvent

/-- One transition, counted; a routing row without an instant abandons the answer. -/
def ordersStep (cutoffEpochS : ℤ) (routed : ℤ) (row : ReadRow) : Option ℤ :=
  if row.isOrderRouting then
    match row.recordEpochS with
    | none => none
    | some epochS => some (if cutoffEpochS ≤ epochS then routed + 1 else routed)
  else some routed

/-- The number of orders routed at or after an instant. -/
def foldOrdersLastHour (transitions : List ReadRow) (cutoffEpochS : ℤ) : Option ℤ :=
  transitions.foldlM (ordersStep cutoffEpochS) 0

/-- The reference. -/
def ordersLastHourCount (rows : List ReadRow) (nowEpochS : ℤ) : Option ℤ :=
  foldOrdersLastHour (transitionRows rows) (nowEpochS - trailingHourSeconds)

/-- The read of the tick. -/
def readOrdersLastHour (store : ReadStore) (nowEpochS : ℤ) : Option ℤ :=
  if store.reverseTypeScan then
    foldOrdersLastHour (transitionRows store.rows.reverse) (nowEpochS - trailingHourSeconds)
  else ordersLastHourCount store.rows nowEpochS

end Windbreak
