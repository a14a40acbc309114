import Windbreak.Core.Effects
import Windbreak.Core.OrderedDict
import Windbreak.Core.UtcDate

/-!
# The research budget

Research spends money, under a ceiling for each forecast and a ceiling for each UTC day.  A charge
goes into the day's counter and into the ledger before it is checked, so a charge that breaches is
kept.  A forecast that spends in stages is checked on the sum of its stages: each stage hands back
the budget for the rest of the forecast.

* **`chargeForecast`, `chargeStage`, `ensureDayOpen`** — the three operations.
* **`chargeForecast_run`, `chargeStage_run`, `ensureDayOpen_run`** — what each does, in closed form.
-/

namespace Windbreak

open Calendar (UtcDate)

/-! ## Events and errors -/

/-- A budget decision as it is handed to the ledger. -/
inductive BudgetEvent where
  | spendRecorded (utcDay marketTicker : String) (costMicros : ℤ)
  | dayExhausted (utcDay : String) (spentMicros budgetMicros : ℤ)
  | forecastExceeded (costMicros budgetMicros : ℤ) (marketTicker utcDay : String)
  deriving DecidableEq, Repr

/-- What a budget call raises. -/
inductive BudgetError where
  | value (text : String)
  | perForecastExceeded (costMicros budgetMicros : ℤ)
  | dailyExhausted (spentMicros budgetMicros : ℤ) (utcDay : String)
  deriving DecidableEq, Repr

/-! ## The budget -/

/-- The ceilings, and what earlier stages of the same forecast have charged. -/
structure ResearchBudget where
  perForecastMicros : ℤ
  perDayMicros : ℤ
  maxPages : ℤ
  alreadyChargedMicros : ℤ
  deriving DecidableEq, Repr

/-- What the budgets of one process share: the day counters, and what they have ledgered. -/
structure BudgetBooks where
  spendByDay : OrderedDict String ℤ
  ledgered : List BudgetEvent

/-- A budget call. -/
abbrev BudgetM := EStateM BudgetError BudgetBooks

/-- The counter of a day. -/
def BudgetBooks.spentOn (books : BudgetBooks) (utcDay : String) : ℤ :=
  (books.spendByDay.get? utcDay).getD 0

/-- Ledger one event. -/
def BudgetBooks.record (books : BudgetBooks) (event : BudgetEvent) : BudgetBooks :=
  { books with ledgered := books.ledgered ++ [event] }

/-- Put a charge on a day. -/
def BudgetBooks.charge (books : BudgetBooks) (utcDay : String) (costMicros : ℤ) : BudgetBooks :=
  { books with spendByDay := books.spendByDay.set utcDay (books.spentOn utcDay + costMicros) }

@[simp] theorem record_spendByDay (books : BudgetBooks) (event : BudgetEvent) :
    (books.record event).spendByDay = books.spendByDay := rfl

@[simp] theorem charge_ledgered (books : BudgetBooks) (utcDay : String) (costMicros : ℤ) :
    (books.charge utcDay costMicros).ledgered = books.ledgered := rfl

/-- The refusal of a negative amount. -/
def nonNegativeError (value : ℤ) (fieldName : String) : BudgetError :=
  .value s!"{fieldName} must be non-negative, got {value}"

/-- Refuse a negative amount. -/
def requireNonNegative (value : ℤ) (fieldName : String) : BudgetM Unit :=
  if value < 0 then throw (nonNegativeError value fieldName) else return ()

/-- The refusal of an instant without an offset. -/
def awareError : BudgetError := .value "at must be timezone-aware"

/-- The key of the UTC day of an instant, given as its UTC date; an instant without an offset has
none. -/
def utcDayKey (moment : Option UtcDate) : BudgetM String :=
  match moment with
  | none => throw awareError
  | some date => return date.isoformat

namespace ResearchBudget

/-- Charge one forecast.  The day is charged and the charge ledgered before the check. -/
def chargeForecast (budget : ResearchBudget) (costMicros : ℤ) (marketTicker : String)
    (moment : Option UtcDate) : BudgetM Unit := do
  requireNonNegative costMicros "cost_micros"
  let day ← utcDayKey moment
  modify fun books => (books.charge day costMicros).record (.spendRecorded day marketTicker costMicros)
  let forecastCostMicros := budget.alreadyChargedMicros + costMicros
  if budget.perForecastMicros < forecastCostMicros then do
    modify fun books => books.record
      (.forecastExceeded forecastCostMicros budget.perForecastMicros marketTicker day)
    throw (.perForecastExceeded forecastCostMicros budget.perForecastMicros)
  else
    return ()

/-- The budget for the rest of a forecast once a stage is charged. -/
def remainder (budget : ResearchBudget) (costMicros : ℤ) : ResearchBudget :=
  { budget with alreadyChargedMicros := budget.alreadyChargedMicros + costMicros }

/-- Charge a finished stage, and hand back the budget for the rest of its forecast. -/
def chargeStage (budget : ResearchBudget) (costMicros : ℤ) (marketTicker : String)
    (moment : Option UtcDate) : BudgetM ResearchBudget := do
  budget.chargeForecast costMicros marketTicker moment
  return budget.remainder costMicros

/-- Halt before any research if the day is exhausted. -/
def ensureDayOpen (budget : ResearchBudget) (moment : Option UtcDate) : BudgetM Unit := do
  let day ← utcDayKey moment
  let books ← get
  let spent := books.spentOn day
  if budget.perDayMicros ≤ spent then do
    modify fun books => books.record (.dayExhausted day spent budget.perDayMicros)
    throw (.dailyExhausted spent budget.perDayMicros day)
  else
    return ()

/-! ## The calls in closed form -/

/-- The books once a charge is on its day and in the ledger. -/
def charged (books : BudgetBooks) (costMicros : ℤ) (marketTicker : String) (date : UtcDate) :
    BudgetBooks :=
  (books.charge date.isoformat costMicros).record
    (.spendRecorded date.isoformat marketTicker costMicros)

variable (budget : ResearchBudget) (costMicros : ℤ) (marketTicker : String) (books : BudgetBooks)

theorem chargeForecast_run (moment : Option UtcDate) :
    (budget.chargeForecast costMicros marketTicker moment).run books =
      if costMicros < 0 then .error (nonNegativeError costMicros "cost_micros") books
      else match moment with
        | none => .error awareError books
        | some date =>
          if budget.perForecastMicros < budget.alreadyChargedMicros + costMicros then
            .error (.perForecastExceeded (budget.alreadyChargedMicros + costMicros)
                budget.perForecastMicros)
              ((charged books costMicros marketTicker date).record
                (.forecastExceeded (budget.alreadyChargedMicros + costMicros)
                  budget.perForecastMicros marketTicker date.isoformat))
          else .ok () (charged books costMicros marketTicker date) := by
  rw [chargeForecast, requireNonNegative]
  by_cases hneg : costMicros < 0
  · rw [if_pos hneg, if_pos hneg]
    rfl
  · rw [if_neg hneg, if_neg hneg]
    cases moment with
    | none => rfl
    | some date =>
        dsimp only [utcDayKey]
        by_cases hover : budget.perForecastMicros < budget.alreadyChargedMicros + costMicros
        · simp only [if_pos hover]
          rfl
        · simp only [if_neg hover]
          rfl

theorem chargeStage_run (moment : Option UtcDate) :
    (budget.chargeStage costMicros marketTicker moment).run books =
      match (budget.chargeForecast costMicros marketTicker moment).run books with
      | .ok _ books' => .ok (budget.remainder costMicros) books'
      | .error e books' => .error e books' := by
  rw [chargeStage, EStateM.run_bind]
  cases (budget.chargeForecast costMicros marketTicker moment).run books with
  | ok _ books' => rfl
  | error e books' => rfl

theorem ensureDayOpen_run (moment : Option UtcDate) :
    (budget.ensureDayOpen moment).run books = match moment with
      | none => .error awareError books
      | some date =>
        if budget.perDayMicros ≤ books.spentOn date.isoformat then
          .error (.dailyExhausted (books.spentOn date.isoformat) budget.perDayMicros date.isoformat)
            (books.record (.dayExhausted date.isoformat (books.spentOn date.isoformat)
              budget.perDayMicros))
        else .ok () books := by
  rw [ensureDayOpen]
  cases moment with
  | none => rfl
  | some date =>
      dsimp only
      by_cases hfull : budget.perDayMicros ≤ books.spentOn date.isoformat
      · rw [if_pos hfull]
        change (if budget.perDayMicros ≤ books.spentOn date.isoformat then _ else _ :
          BudgetM Unit).run books = _
        rw [if_pos hfull]
        rfl
      · rw [if_neg hfull]
        change (if budget.perDayMicros ≤ books.spentOn date.isoformat then _ else _ :
          BudgetM Unit).run books = _
        rw [if_neg hfull]
        rfl

end ResearchBudget

end Windbreak
