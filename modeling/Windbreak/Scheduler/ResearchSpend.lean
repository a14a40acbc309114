import Windbreak.Core.Runs
import Windbreak.Core.Sums
import Windbreak.Core.TextLines
import Windbreak.Forecast.Budget
import Windbreak.Ledger.Events

/-!
# Durable research spend

The ledger keeps every research charge and every change of the daily ceiling.  A process that
starts, and a process at the head of every tick, builds its budget from the ledger: the day counters
are the sums of the charges, the ceiling is what the last change says.

* **`spendByDayFromRecords`, `effectivePerDayMicros`** — the two folds.
* **`buildResearchBudget`** — the budget that the ledger opens with; a row that cannot be read opens
  a ceiling of zero.
* **`budgetStep`** — one call, one change of the ceiling, or one rebuild.
-/

namespace Windbreak

open Calendar (UtcDate)

/-! ## Rows -/

/-- The component that the loop stamps on its rows. -/
def schedulerComponent : String := "scheduler"

def researchSpendRecordedEventType : String := "ResearchSpendRecorded"

def researchBudgetCapSetEventType : String := "ResearchBudgetCapSet"

/-- The payload version that both folds read. -/
def researchSchemaVersion : ℤ := 1

/-- One charge. -/
def researchSpendRecordedEvent (utcDay marketTicker : String) (costMicros : ℤ) : Event :=
  ⟨researchSpendRecordedEventType, schedulerComponent, researchSchemaVersion,
    [("utc_day", .str utcDay), ("market_ticker", .str marketTicker),
      ("cost_micros", .int costMicros)]⟩

/-- One change of the daily ceiling. -/
def researchBudgetCapSetEvent (perDayMicros : ℤ) (note : String) : Event :=
  ⟨researchBudgetCapSetEventType, schedulerComponent, researchSchemaVersion,
    [("per_day_micros", .int perDayMicros), ("note", .str note)]⟩

/-- One halt of research. -/
def researchBudgetHaltedEvent (marketTicker haltKind utcDay : String)
    (spentMicros budgetMicros : ℤ) : Event :=
  ⟨"ResearchBudgetHalted", schedulerComponent, 1,
    [("market_ticker", .str marketTicker), ("halt_kind", .str haltKind),
      ("utc_day", .str utcDay), ("spent_micros", .int spentMicros),
      ("budget_micros", .int budgetMicros)]⟩

/-- The row of a budget decision. -/
def BudgetEvent.row : BudgetEvent → Event
  | .spendRecorded utcDay marketTicker costMicros =>
    researchSpendRecordedEvent utcDay marketTicker costMicros
  | .dayExhausted utcDay spentMicros budgetMicros =>
    researchBudgetHaltedEvent "" "per_day" utcDay spentMicros budgetMicros
  | .forecastExceeded costMicros budgetMicros marketTicker utcDay =>
    researchBudgetHaltedEvent marketTicker "per_forecast" utcDay costMicros budgetMicros

/-! ## Folds -/

/-- Why a row cannot be read. -/
inductive UnreadableRow where
  | schema (version : ℤ)
  | field (key : String)
  deriving DecidableEq, Repr

/-- Refuse a payload of another version. -/
def requireReadableSchema (event : Event) : Except UnreadableRow Unit :=
  if event.payloadSchemaVersion = researchSchemaVersion then .ok ()
  else .error (.schema event.payloadSchemaVersion)

/-- A required integer field. -/
def Event.intField (event : Event) (key : String) : Except UnreadableRow ℤ :=
  match event.int? key with
  | some value => .ok value
  | none => .error (.field key)

/-- A required string field. -/
def Event.strField (event : Event) (key : String) : Except UnreadableRow String :=
  match event.str? key with
  | some value => .ok value
  | none => .error (.field key)

/-- The total of a day. -/
def totalOn (totals : OrderedDict String ℤ) (utcDay : String) : ℤ :=
  (totals.get? utcDay).getD 0

/-- Add one row to the totals of the days; rows of other types are skipped. -/
def spendStep (totals : OrderedDict String ℤ) (event : Event) :
    Except UnreadableRow (OrderedDict String ℤ) :=
  if event.eventType = researchSpendRecordedEventType then do
    requireReadableSchema event
    let day ← event.strField "utc_day"
    let cost ← event.intField "cost_micros"
    return totals.set day (totalOn totals day + cost)
  else
    return totals

/-- The totals of the days. -/
def spendByDayFromRecords (records : List Event) : Except UnreadableRow (OrderedDict String ℤ) :=
  records.foldlM spendStep .empty

/-- Read one row for the ceiling in force; the last one wins. -/
def capStep (effective : ℤ) (event : Event) : Except UnreadableRow ℤ :=
  if event.eventType = researchBudgetCapSetEventType then do
    requireReadableSchema event
    event.intField "per_day_micros"
  else
    return effective

/-- The daily ceiling in force, the ledger overriding the configuration. -/
def effectivePerDayMicros (records : List Event) (configuredMicros : ℤ) :
    Except UnreadableRow ℤ :=
  records.foldlM capStep configuredMicros

/-- The ceiling and the totals that the ledger opens a budget with.  Where a row cannot be read no
research is afforded at all. -/
def researchLedgerState (records : List Event) (configuredMicros : ℤ) :
    ℤ × OrderedDict String ℤ :=
  match effectivePerDayMicros records configuredMicros, spendByDayFromRecords records with
  | .ok perDay, .ok spend => (perDay, spend)
  | _, _ => (0, .empty)

/-! ## The process -/

/-- The configured ceilings. -/
structure BudgetConfig where
  perForecastMicros : ℤ
  perDayMicros : ℤ
  maxPages : ℤ
  forecast_nonneg : 0 ≤ perForecastMicros
  day_nonneg : 0 ≤ perDayMicros
  pages_nonneg : 0 ≤ maxPages

/-- A forecast under way: the budget for the rest of it, and the stages it has charged. -/
structure OpenForecast where
  budget : ResearchBudget
  stages : List ℤ

/-- The ledger and the budget of the process that runs on it. -/
structure BudgetProcess where
  ledger : List Event
  root : ResearchBudget
  forecasts : List OpenForecast
  spendByDay : OrderedDict String ℤ

/-- The process that opens on a ledger. -/
def BudgetProcess.opened (config : BudgetConfig) (ledger : List Event) : BudgetProcess where
  ledger := ledger
  root := ⟨config.perForecastMicros, (researchLedgerState ledger config.perDayMicros).1,
    config.maxPages, 0⟩
  forecasts := []
  spendByDay := (researchLedgerState ledger config.perDayMicros).2

/-- The first ceiling or opening total that is negative, as the constructor checks them. -/
def negativeOpening (p : BudgetProcess) : Option (ℤ × String) :=
  ([(p.root.perForecastMicros, "per_forecast_micros"), (p.root.perDayMicros, "per_day_micros"),
      (p.root.maxPages, "max_pages")] ++
    p.spendByDay.items.map fun item =>
      (item.2, "opening_spend_by_day['" ++ item.1 ++ "']")).find? fun check => decide (check.1 < 0)

/-- Open a budget on a ledger; a negative ceiling or total is refused. -/
def buildResearchBudget (config : BudgetConfig) (ledger : List Event) :
    Except BudgetError BudgetProcess :=
  let p := BudgetProcess.opened config ledger
  match negativeOpening p with
  | some check => .error (nonNegativeError check.1 check.2)
  | none => .ok p

/-- What happens to a process: a call on a forecast under way or a new one, a row of somebody else,
a change of the ceiling by the operator, or a rebuild, at a restart or at the head of a tick. -/
inductive BudgetOp where
  | ensureDayOpen (moment : Option UtcDate)
  | chargeForecast (forecast : ℕ) (costMicros : ℤ) (marketTicker : String)
      (moment : Option UtcDate)
  | chargeStage (forecast : ℕ) (costMicros : ℤ) (marketTicker : String) (moment : Option UtcDate)
  | setCap (perDayMicros : ℤ) (note : String)
  | otherRow (event : Event) (hspend : event.eventType ≠ researchSpendRecordedEventType)
      (hcap : event.eventType ≠ researchBudgetCapSetEventType)
  | rebuild

namespace BudgetProcess

/-- The forecast under way with a number; an unused number is a new forecast. -/
def forecast (p : BudgetProcess) (number : ℕ) : OpenForecast :=
  p.forecasts.getD number ⟨p.root, []⟩

/-- The books that the calls of the process work on. -/
def books (p : BudgetProcess) : BudgetBooks := ⟨p.spendByDay, []⟩

/-- The process once a call has left its books. -/
def withBooks (p : BudgetProcess) (books : BudgetBooks) : BudgetProcess :=
  { p with
    ledger := p.ledger ++ books.ledgered.map BudgetEvent.row
    spendByDay := books.spendByDay }

/-- Begin a forecast, or go on with it once a stage is charged. -/
def withForecast (p : BudgetProcess) (forecast : OpenForecast) : BudgetProcess :=
  { p with forecasts := p.forecasts ++ [forecast] }

end BudgetProcess

/-- An operator's change is refused when the ceiling is negative or nothing explains it. -/
def capRefused (perDayMicros : ℤ) (note : String) : Bool :=
  decide (perDayMicros < 0) || TextLines.isBlank note.toList

/-- One step, with what it raises. -/
def budgetStep (config : BudgetConfig) (p : BudgetProcess) :
    BudgetOp → Option BudgetError × BudgetProcess
  | .ensureDayOpen moment =>
    match (p.root.ensureDayOpen moment).run p.books with
    | .ok _ books => (none, p.withBooks books)
    | .error e books => (some e, p.withBooks books)
  | .chargeForecast number costMicros marketTicker moment =>
    match ((p.forecast number).budget.chargeForecast costMicros marketTicker moment).run p.books with
    | .ok _ books => (none, p.withBooks books)
    | .error e books => (some e, p.withBooks books)
  | .chargeStage number costMicros marketTicker moment =>
    match ((p.forecast number).budget.chargeStage costMicros marketTicker moment).run p.books with
    | .ok remainder books =>
      (none, (p.withBooks books).withForecast
        ⟨remainder, (p.forecast number).stages ++ [costMicros]⟩)
    | .error e books => (some e, p.withBooks books)
  | .setCap perDayMicros note =>
    if capRefused perDayMicros note then
      (some (.value "set-research-budget"), p)
    else
      (none, { p with ledger := p.ledger ++ [researchBudgetCapSetEvent perDayMicros note] })
  | .otherRow event _ _ => (none, { p with ledger := p.ledger ++ [event] })
  | .rebuild =>
    match buildResearchBudget config p.ledger with
    | .ok p' => (none, p')
    | .error e => (some e, p)

end Windbreak
