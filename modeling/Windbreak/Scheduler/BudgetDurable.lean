import Windbreak.Scheduler.ResearchSpend

/-!
# The budget survives its process

* **`budget_agrees`** — over every run, the day counters in memory are the fold of the ledger, both
  are the sums of what was charged, and a forecast under way carries the sum of its stages.
* **`budget_durable`** — what follows for the counters, the breaches and the refusals.
-/

namespace Windbreak

open Calendar (UtcDate)

/-! ## What was charged -/

/-- What one charge puts on a day; a charge that is refused outright puts nothing. -/
def chargePut (date : UtcDate) (costMicros : ℤ) (moment : Option UtcDate) : ℤ :=
  if moment = some date ∧ 0 ≤ costMicros then costMicros else 0

/-- What a step charges to a day. -/
def chargeOn (date : UtcDate) : BudgetOp → ℤ
  | .chargeForecast _ costMicros _ moment => chargePut date costMicros moment
  | .chargeStage _ costMicros _ moment => chargePut date costMicros moment
  | _ => 0

/-- The sum of every charge of a day. -/
def chargedOn (date : UtcDate) (ops : List BudgetOp) : ℤ := (ops.map (chargeOn date)).sum

/-- The daily ceiling: what was last set, and what the process was last built with. -/
structure Ceilings where
  last : ℤ
  inForce : ℤ

/-- How a step moves the ceiling. -/
def Ceilings.next (c : Ceilings) : BudgetOp → Ceilings
  | .setCap perDayMicros note => if capRefused perDayMicros note then c else ⟨perDayMicros, c.inForce⟩
  | .rebuild => ⟨c.last, c.last⟩
  | _ => c

/-- The ceiling after some steps. -/
def ceilingsAfter (config : BudgetConfig) (ops : List BudgetOp) : Ceilings :=
  ops.foldl Ceilings.next ⟨config.perDayMicros, config.perDayMicros⟩

/-- The process on an empty ledger. -/
def BudgetProcess.start (config : BudgetConfig) : BudgetProcess := .opened config []

/-- The process after some steps. -/
def budgetRun (config : BudgetConfig) (ops : List BudgetOp) : BudgetProcess :=
  Machine.run (budgetStep config) (.start config) ops

theorem chargePut_nonneg (date : UtcDate) (costMicros : ℤ) (moment : Option UtcDate) :
    0 ≤ chargePut date costMicros moment := by
  rw [chargePut]
  split
  · rename_i h
    exact h.2
  · exact le_refl 0

/-! ## The folds, row by row -/

theorem spendByDay_append (records : List Event) (event : Event) :
    spendByDayFromRecords (records ++ [event]) =
      (spendByDayFromRecords records).bind fun totals => spendStep totals event := by
  rw [spendByDayFromRecords, List.foldlM_append]
  change (records.foldlM spendStep OrderedDict.empty >>= fun totals =>
    spendStep totals event >>= pure) = _
  simp only [bind_pure]
  rfl

theorem effective_append (records : List Event) (event : Event) (configuredMicros : ℤ) :
    effectivePerDayMicros (records ++ [event]) configuredMicros =
      (effectivePerDayMicros records configuredMicros).bind fun cap => capStep cap event := by
  rw [effectivePerDayMicros, List.foldlM_append]
  change (records.foldlM capStep configuredMicros >>= fun cap => capStep cap event >>= pure) = _
  simp only [bind_pure]
  rfl

theorem spendStep_other {totals : OrderedDict String ℤ} {event : Event}
    (h : event.eventType ≠ researchSpendRecordedEventType) : spendStep totals event = .ok totals :=
  if_neg h

theorem capStep_other {effective : ℤ} {event : Event}
    (h : event.eventType ≠ researchBudgetCapSetEventType) : capStep effective event = .ok effective :=
  if_neg h

/-! ## The books of a process agree -/

/-- What a process, its ledger and the steps so far agree on. -/
structure Agrees (config : BudgetConfig) (ops : List BudgetOp) (p : BudgetProcess) : Prop where
  totals : spendByDayFromRecords p.ledger = .ok p.spendByDay
  cap : effectivePerDayMicros p.ledger config.perDayMicros = .ok (ceilingsAfter config ops).last
  root : p.root = ⟨config.perForecastMicros, (ceilingsAfter config ops).inForce, config.maxPages, 0⟩
  sums : ∀ date : UtcDate, totalOn p.spendByDay date.isoformat = chargedOn date ops
  days : ∀ day ∈ p.spendByDay.keys, ∃ date : UtcDate, day = date.isoformat
  staged : ∀ f ∈ p.forecasts, f.budget = { p.root with alreadyChargedMicros := f.stages.sum }
  capNonneg : 0 ≤ (ceilingsAfter config ops).last

theorem chargedOn_concat (date : UtcDate) (ops : List BudgetOp) (op : BudgetOp) :
    chargedOn date (ops ++ [op]) = chargedOn date ops + chargeOn date op := by
  simp [chargedOn]

theorem ceilingsAfter_concat (config : BudgetConfig) (ops : List BudgetOp) (op : BudgetOp) :
    ceilingsAfter config (ops ++ [op]) = (ceilingsAfter config ops).next op := by
  simp [ceilingsAfter]

theorem chargedOn_nonneg (date : UtcDate) (ops : List BudgetOp) : 0 ≤ chargedOn date ops := by
  refine List.sum_nonneg fun x hx => ?_
  obtain ⟨op, -, rfl⟩ := List.mem_map.mp hx
  cases op with
  | chargeForecast => exact chargePut_nonneg _ _ _
  | chargeStage => exact chargePut_nonneg _ _ _
  | _ => exact le_refl 0

/-! ## What a step does to the agreement -/

namespace Agrees

variable {config : BudgetConfig} {ops : List BudgetOp} {p : BudgetProcess}

/-- A row that neither fold reads. -/
theorem noted (h : Agrees config ops p) {event : Event}
    (hspend : event.eventType ≠ researchSpendRecordedEventType)
    (hcap : event.eventType ≠ researchBudgetCapSetEventType) :
    Agrees config ops { p with ledger := p.ledger ++ [event] } := by
  refine ⟨?_, ?_, h.root, h.sums, h.days, h.staged, h.capNonneg⟩
  · rw [spendByDay_append, h.totals]
    exact spendStep_other hspend
  · rw [effective_append, h.cap]
    exact capStep_other hcap

/-- A halt is such a row. -/
theorem halted (h : Agrees config ops p) {event : BudgetEvent}
    (hevent : event.row.eventType = "ResearchBudgetHalted") :
    Agrees config ops { p with ledger := p.ledger ++ [event.row] } := by
  refine h.noted ?_ ?_
  · rw [hevent]
    decide
  · rw [hevent]
    decide

/-- A step that charges nothing and sets nothing. -/
theorem skip (h : Agrees config ops p) {op : BudgetOp} (hcharge : ∀ date, chargeOn date op = 0)
    (hnext : ∀ c : Ceilings, c.next op = c) : Agrees config (ops ++ [op]) p := by
  refine ⟨h.totals, ?_, ?_, fun date => ?_, h.days, h.staged, ?_⟩
  · rw [ceilingsAfter_concat, hnext]
    exact h.cap
  · rw [ceilingsAfter_concat, hnext]
    exact h.root
  · rw [chargedOn_concat, hcharge, Int.add_zero]
    exact h.sums date
  · rw [ceilingsAfter_concat, hnext]
    exact h.capNonneg

/-- A charge that is on its day and in the ledger. -/
theorem charged (h : Agrees config ops p) {op : BudgetOp} {cost : ℤ} (hcost : 0 ≤ cost)
    (ticker : String) (date : UtcDate)
    (hcharge : ∀ d, chargeOn d op = chargePut d cost (some date))
    (hnext : ∀ c : Ceilings, c.next op = c) :
    Agrees config (ops ++ [op])
      (p.withBooks (ResearchBudget.charged p.books cost ticker date)) := by
  have hfold : spendByDayFromRecords
      (p.ledger ++ [researchSpendRecordedEvent date.isoformat ticker cost]) =
      .ok (p.spendByDay.set date.isoformat (totalOn p.spendByDay date.isoformat + cost)) := by
    rw [spendByDay_append, h.totals]
    rfl
  refine ⟨hfold, ?_, ?_, fun d => ?_, fun day hday => ?_, h.staged, ?_⟩
  · rw [ceilingsAfter_concat, hnext, ← h.cap]
    change effectivePerDayMicros (p.ledger ++ [_]) _ = _
    rw [effective_append, h.cap]
    rfl
  · rw [ceilingsAfter_concat, hnext]
    exact h.root
  · change totalOn (p.spendByDay.set date.isoformat
      (totalOn p.spendByDay date.isoformat + cost)) d.isoformat = _
    rw [chargedOn_concat, hcharge, ← h.sums, totalOn, OrderedDict.get?_set, chargePut]
    by_cases hd : d = date
    · subst hd
      rw [if_pos rfl, if_pos ⟨rfl, hcost⟩]
      rfl
    · rw [if_neg fun heq => hd (Calendar.isoformat_injective heq),
        if_neg fun hsame => hd (Option.some.inj hsame.1).symm, Int.add_zero]
      rfl
  · rcases OrderedDict.mem_keys_set.mp hday with rfl | hday
    · exact ⟨date, rfl⟩
    · exact h.days day hday
  · rw [ceilingsAfter_concat, hnext]
    exact h.capNonneg

/-- The budget of a forecast under way. -/
theorem forecast (h : Agrees config ops p) (number : ℕ) :
    (p.forecast number).budget =
      { p.root with alreadyChargedMicros := (p.forecast number).stages.sum } := by
  rw [BudgetProcess.forecast, List.getD_eq_getElem?_getD]
  cases hf : p.forecasts[number]? with
  | none =>
      change p.root = { p.root with alreadyChargedMicros := 0 }
      rw [h.root]
  | some f => exact h.staged f (List.mem_of_getElem? hf)

/-- A forecast that goes on after a stage. -/
theorem withForecast (h : Agrees config ops p) {f : OpenForecast}
    (hf : f.budget = { p.root with alreadyChargedMicros := f.stages.sum }) :
    Agrees config ops (p.withForecast f) := by
  refine ⟨h.totals, h.cap, h.root, h.sums, h.days, fun g hg => ?_, h.capNonneg⟩
  rcases List.mem_append.mp hg with hg | hg
  · exact h.staged g hg
  · rw [List.mem_singleton.mp hg]
    exact hf

/-- An accepted change of the ceiling. -/
theorem capSet (h : Agrees config ops p) {perDayMicros : ℤ} {note : String}
    (haccepted : capRefused perDayMicros note = false) :
    Agrees config (ops ++ [.setCap perDayMicros note])
      { p with ledger := p.ledger ++ [researchBudgetCapSetEvent perDayMicros note] } := by
  have hnext : (ceilingsAfter config ops).next (.setCap perDayMicros note) =
      ⟨perDayMicros, (ceilingsAfter config ops).inForce⟩ := by
    rw [Ceilings.next, haccepted]
    rfl
  have hpos : 0 ≤ perDayMicros := by
    rw [capRefused, Bool.or_eq_false_iff] at haccepted
    exact not_lt.mp (of_decide_eq_false haccepted.1)
  refine ⟨?_, ?_, ?_, fun date => ?_, h.days, h.staged, ?_⟩
  · rw [spendByDay_append, h.totals]
    rfl
  · rw [effective_append, h.cap, ceilingsAfter_concat, hnext]
    rfl
  · rw [ceilingsAfter_concat, hnext]
    exact h.root
  · rw [chargedOn_concat]
    exact (h.sums date).trans (Int.add_zero _).symm
  · rw [ceilingsAfter_concat, hnext]
    exact hpos

/-- No ceiling and no total is negative, so the constructor takes them. -/
theorem opening (h : Agrees config ops p) :
    buildResearchBudget config p.ledger = .ok (.opened config p.ledger) := by
  have hstate : researchLedgerState p.ledger config.perDayMicros =
      ((ceilingsAfter config ops).last, p.spendByDay) := by
    rw [researchLedgerState, h.cap, h.totals]
  have hnone : negativeOpening (.opened config p.ledger) = none := by
    rw [negativeOpening, List.find?_eq_none]
    intro check hcheck
    rw [decide_eq_true_eq, not_lt]
    simp only [BudgetProcess.opened, hstate, List.mem_append, List.mem_cons, List.not_mem_nil,
      or_false, List.mem_map] at hcheck
    rcases hcheck with (rfl | rfl | rfl) | ⟨item, hitem, rfl⟩
    · exact config.forecast_nonneg
    · exact h.capNonneg
    · exact config.pages_nonneg
    · obtain ⟨date, hday⟩ := h.days item.1 (List.mem_map.mpr ⟨item, hitem, rfl⟩)
      have hget : p.spendByDay.get? item.1 = some item.2 := OrderedDict.mem_items_iff.mp hitem
      have hsum : item.2 = chargedOn date ops := by
        rw [← h.sums, totalOn, ← hday, hget]
        rfl
      change 0 ≤ item.2
      rw [hsum]
      exact chargedOn_nonneg date ops
  rw [buildResearchBudget, hnone]

/-- A rebuild reads back what the process had. -/
theorem rebuilt (h : Agrees config ops p) :
    Agrees config (ops ++ [.rebuild]) (.opened config p.ledger) := by
  have hstate : researchLedgerState p.ledger config.perDayMicros =
      ((ceilingsAfter config ops).last, p.spendByDay) := by
    rw [researchLedgerState, h.cap, h.totals]
  refine ⟨?_, ?_, ?_, fun date => ?_, ?_, fun f hf => absurd hf List.not_mem_nil, ?_⟩
  · rw [BudgetProcess.opened, hstate]
    exact h.totals
  · rw [ceilingsAfter_concat]
    exact h.cap
  · rw [BudgetProcess.opened, hstate, ceilingsAfter_concat]
    rfl
  · rw [BudgetProcess.opened, hstate, chargedOn_concat]
    exact (h.sums date).trans (Int.add_zero _).symm
  · rw [BudgetProcess.opened, hstate]
    exact h.days
  · rw [ceilingsAfter_concat]
    exact h.capNonneg

end Agrees

/-! ## The agreement over runs -/

theorem withBooks_books (p : BudgetProcess) : p.withBooks p.books = p := by
  simp [BudgetProcess.withBooks, BudgetProcess.books]

theorem withBooks_record (p : BudgetProcess) (books : BudgetBooks) (event : BudgetEvent) :
    p.withBooks (books.record event) =
      { p.withBooks books with ledger := (p.withBooks books).ledger ++ [event.row] } := by
  simp [BudgetProcess.withBooks, BudgetBooks.record]

/-- **What a charge does**: it is refused outright, or it is on the books and then checked. -/
theorem chargeForecast_cases (budget : ResearchBudget) (cost : ℤ) (ticker : String)
    (moment : Option UtcDate) (books : BudgetBooks) :
    (∃ text, (budget.chargeForecast cost ticker moment).run books = .error (.value text) books ∧
        ∀ date, chargePut date cost moment = 0) ∨
      ∃ date, moment = some date ∧ 0 ≤ cost ∧
        ((budget.perForecastMicros < budget.alreadyChargedMicros + cost ∧
            ∃ event : BudgetEvent, event.row.eventType = "ResearchBudgetHalted" ∧
              (budget.chargeForecast cost ticker moment).run books =
                .error (.perForecastExceeded (budget.alreadyChargedMicros + cost)
                  budget.perForecastMicros)
                  ((ResearchBudget.charged books cost ticker date).record event)) ∨
          budget.alreadyChargedMicros + cost ≤ budget.perForecastMicros ∧
            (budget.chargeForecast cost ticker moment).run books =
              .ok () (ResearchBudget.charged books cost ticker date)) := by
  rw [ResearchBudget.chargeForecast_run]
  by_cases hneg : cost < 0
  · rw [if_pos hneg]
    exact .inl ⟨_, rfl, fun date => if_neg fun h => not_le.mpr hneg h.2⟩
  · rw [if_neg hneg]
    cases moment with
    | none => exact .inl ⟨_, rfl, fun date => if_neg fun h => by cases h.1⟩
    | some date =>
        dsimp only
        refine .inr ⟨date, rfl, not_lt.mp hneg, ?_⟩
        by_cases hover : budget.perForecastMicros < budget.alreadyChargedMicros + cost
        · rw [if_pos hover]
          exact .inl ⟨hover, _, rfl, rfl⟩
        · rw [if_neg hover]
          exact .inr ⟨not_lt.mp hover, rfl⟩

theorem budgetStep_chargeForecast (config : BudgetConfig) (p : BudgetProcess) (number : ℕ)
    (cost : ℤ) (ticker : String) (moment : Option UtcDate) :
    (budgetStep config p (.chargeForecast number cost ticker moment)).1 =
      (Effects.settle (((p.forecast number).budget.chargeForecast cost ticker moment).run
        p.books)).1 := by
  rw [budgetStep]
  cases ((p.forecast number).budget.chargeForecast cost ticker moment).run p.books with
  | ok _ books => rfl
  | error e books => rfl

/-- A stage raises what its charge raises. -/
theorem budgetStep_chargeStage (config : BudgetConfig) (p : BudgetProcess) (number : ℕ)
    (cost : ℤ) (ticker : String) (moment : Option UtcDate) :
    (budgetStep config p (.chargeStage number cost ticker moment)).1 =
      (Effects.settle (((p.forecast number).budget.chargeForecast cost ticker moment).run
        p.books)).1 := by
  rw [budgetStep, ResearchBudget.chargeStage_run]
  cases ((p.forecast number).budget.chargeForecast cost ticker moment).run p.books with
  | ok _ books => rfl
  | error e books => rfl

/-- A charge breaches on the sum of the stages of its forecast. -/
theorem Agrees.breach_iff {config : BudgetConfig} {ops : List BudgetOp} {p : BudgetProcess}
    (h : Agrees config ops p) (number : ℕ) (cost : ℤ) (ticker : String) (date : UtcDate)
    (hcost : 0 ≤ cost) :
    (∃ total ceiling, (Effects.settle (((p.forecast number).budget.chargeForecast cost ticker
        (some date)).run p.books)).1 = some (.perForecastExceeded total ceiling)) ↔
      config.perForecastMicros < (p.forecast number).stages.sum + cost := by
  have hceiling : (p.forecast number).budget.perForecastMicros = config.perForecastMicros := by
    rw [h.forecast, h.root]
  have hstages : (p.forecast number).budget.alreadyChargedMicros =
      (p.forecast number).stages.sum := by
    rw [h.forecast]
  rw [ResearchBudget.chargeForecast_run, if_neg (not_lt.mpr hcost)]
  dsimp only
  rw [hceiling, hstages]
  by_cases hover : config.perForecastMicros < (p.forecast number).stages.sum + cost
  · rw [if_pos hover]
    exact iff_of_true ⟨_, _, rfl⟩ hover
  · rw [if_neg hover]
    exact iff_of_false (fun ⟨_, _, hnone⟩ => by cases hnone) hover

/-- **A step keeps the agreement.** -/
theorem Agrees.step {config : BudgetConfig} {ops : List BudgetOp} {p : BudgetProcess}
    (h : Agrees config ops p) (op : BudgetOp) :
    Agrees config (ops ++ [op]) (budgetStep config p op).2 := by
  cases op with
  | ensureDayOpen moment =>
      have hskip : Agrees config (ops ++ [.ensureDayOpen moment]) p :=
        h.skip (fun _ => rfl) fun _ => rfl
      rw [budgetStep, ResearchBudget.ensureDayOpen_run]
      cases moment with
      | none =>
          dsimp only
          rw [withBooks_books]
          exact hskip
      | some date =>
          dsimp only
          by_cases hfull : p.root.perDayMicros ≤ p.books.spentOn date.isoformat
          · rw [if_pos hfull]
            dsimp only
            rw [withBooks_record, withBooks_books]
            exact hskip.halted rfl
          · rw [if_neg hfull]
            dsimp only
            rw [withBooks_books]
            exact hskip
  | chargeForecast number cost ticker moment =>
      rw [budgetStep]
      rcases chargeForecast_cases (p.forecast number).budget cost ticker moment p.books with
        ⟨text, hrun, hnothing⟩ | ⟨date, rfl, hcost, ⟨-, event, hevent, hrun⟩ | ⟨-, hrun⟩⟩
      · rw [hrun]
        dsimp only
        rw [withBooks_books]
        exact h.skip (fun date => hnothing date) fun _ => rfl
      · rw [hrun]
        dsimp only
        rw [withBooks_record]
        exact (h.charged hcost ticker date (fun _ => rfl) fun _ => rfl).halted hevent
      · rw [hrun]
        exact h.charged hcost ticker date (fun _ => rfl) fun _ => rfl
  | chargeStage number cost ticker moment =>
      rw [budgetStep, ResearchBudget.chargeStage_run]
      rcases chargeForecast_cases (p.forecast number).budget cost ticker moment p.books with
        ⟨text, hrun, hnothing⟩ | ⟨date, rfl, hcost, ⟨-, event, hevent, hrun⟩ | ⟨-, hrun⟩⟩
      · rw [hrun]
        dsimp only
        rw [withBooks_books]
        exact h.skip (fun date => hnothing date) fun _ => rfl
      · rw [hrun]
        dsimp only
        rw [withBooks_record]
        exact (h.charged hcost ticker date (fun _ => rfl) fun _ => rfl).halted hevent
      · rw [hrun]
        dsimp only
        refine (h.charged hcost ticker date (fun _ => rfl) fun _ => rfl).withForecast ?_
        change ResearchBudget.remainder (p.forecast number).budget cost =
          { p.root with alreadyChargedMicros := ((p.forecast number).stages ++ [cost]).sum }
        rw [h.forecast, ResearchBudget.remainder, List.sum_append, List.sum_singleton]
  | setCap perDayMicros note =>
      rw [budgetStep]
      cases hrefused : capRefused perDayMicros note with
      | true =>
          rw [if_pos rfl]
          refine h.skip (fun _ => rfl) fun c => ?_
          rw [Ceilings.next, hrefused]
          rfl
      | false =>
          rw [if_neg (by decide)]
          exact h.capSet hrefused
  | otherRow event hspend hcap =>
      have hskip : Agrees config (ops ++ [.otherRow event hspend hcap]) p :=
        h.skip (fun _ => rfl) fun _ => rfl
      exact hskip.noted hspend hcap
  | rebuild =>
      rw [budgetStep, h.opening]
      exact h.rebuilt

theorem agrees_start (config : BudgetConfig) : Agrees config [] (.start config) := by
  refine ⟨rfl, rfl, rfl, fun date => rfl, fun day hday => absurd hday List.not_mem_nil,
    fun f hf => absurd hf List.not_mem_nil, config.day_nonneg⟩

/-- **The books agree after every run.** -/
theorem budget_agrees (config : BudgetConfig) (ops : List BudgetOp) :
    Agrees config ops (budgetRun config ops) := by
  induction ops using List.reverseRecOn with
  | nil => exact agrees_start config
  | append_singleton ops op ih =>
      rw [budgetRun, Machine.run_append]
      exact ih.step op

/-! ## Durability -/

/-- The step is a rebuild. -/
def BudgetOp.isRebuild : BudgetOp → Bool
  | .rebuild => true
  | _ => false

/-- What holds after every run. -/
structure BudgetDurable (config : BudgetConfig) (ops : List BudgetOp) : Prop where
  /-- The counter of a day is the sum of every charge of that day, refused or not by the ceiling. -/
  counted : ∀ date : UtcDate,
    totalOn (budgetRun config ops).spendByDay date.isoformat = chargedOn date ops
  /-- The ledger folds to the same sum. -/
  ledgered : ∃ totals, spendByDayFromRecords (budgetRun config ops).ledger = .ok totals ∧
    ∀ date : UtcDate, totalOn totals date.isoformat = chargedOn date ops
  /-- The same run without its rebuilds counts the same. -/
  restarts : ∀ date : UtcDate,
    totalOn (budgetRun config ops).spendByDay date.isoformat =
      totalOn (budgetRun config (ops.filter fun op => !op.isRebuild)).spendByDay date.isoformat
  /-- A charge breaches exactly when the stages of its forecast and the charge together exceed the
  ceiling of a forecast. -/
  breaches : ∀ number cost ticker date, 0 ≤ cost →
    ((∃ total ceiling, (budgetStep config (budgetRun config ops)
          (.chargeForecast number cost ticker (some date))).1 =
        some (.perForecastExceeded total ceiling)) ↔
      config.perForecastMicros < ((budgetRun config ops).forecast number).stages.sum + cost)
  /-- So does a stage. -/
  stageBreaches : ∀ number cost ticker date, 0 ≤ cost →
    ((∃ total ceiling, (budgetStep config (budgetRun config ops)
          (.chargeStage number cost ticker (some date))).1 =
        some (.perForecastExceeded total ceiling)) ↔
      config.perForecastMicros < ((budgetRun config ops).forecast number).stages.sum + cost)
  /-- A stage that does not breach is added to the stages of its forecast. -/
  stages : ∀ number cost ticker date, 0 ≤ cost →
    ((budgetRun config ops).forecast number).stages.sum + cost ≤ config.perForecastMicros →
      ∃ f, (budgetRun config (ops ++ [.chargeStage number cost ticker (some date)])).forecasts =
          (budgetRun config ops).forecasts ++ [f] ∧
        f.stages = ((budgetRun config ops).forecast number).stages ++ [cost]
  /-- A day is refused exactly when its charges have reached the ceiling that the process was last
  built with. -/
  refusals : ∀ date : UtcDate,
    ((∃ spent ceiling, (budgetStep config (budgetRun config ops) (.ensureDayOpen (some date))).1 =
        some (.dailyExhausted spent ceiling date.isoformat)) ↔
      (ceilingsAfter config ops).inForce ≤ chargedOn date ops)

theorem chargedOn_filter (date : UtcDate) (ops : List BudgetOp) :
    chargedOn date (ops.filter fun op => !op.isRebuild) = chargedOn date ops := by
  induction ops with
  | nil => rfl
  | cons op ops ih =>
      cases op with
      | rebuild =>
          rw [List.filter_cons_of_neg (by simp [BudgetOp.isRebuild]), ih]
          exact (Int.zero_add _).symm
      | _ =>
          rw [List.filter_cons_of_pos (by simp [BudgetOp.isRebuild])]
          exact congrArg (chargeOn date _ + ·) ih

/-- **The research budget is durable and aggregate**, over every sequence of calls, changes of the
ceiling and rebuilds. -/
theorem budget_durable (config : BudgetConfig) (ops : List BudgetOp) :
    BudgetDurable config ops := by
  have h := budget_agrees config ops
  have hfilter := budget_agrees config (ops.filter fun op => !op.isRebuild)
  refine ⟨h.sums, ⟨_, h.totals, h.sums⟩, fun date => ?_, ?_, ?_, ?_, fun date => ?_⟩
  · rw [h.sums, hfilter.sums, chargedOn_filter]
  · intro number cost ticker date hcost
    rw [budgetStep_chargeForecast]
    exact h.breach_iff number cost ticker date hcost
  · intro number cost ticker date hcost
    rw [budgetStep_chargeStage]
    exact h.breach_iff number cost ticker date hcost
  · intro number cost ticker date hcost hwithin
    rw [budgetRun, Machine.run_append]
    change ∃ f, (budgetStep config (budgetRun config ops) _).2.forecasts = _ ∧ _
    rw [budgetStep, ResearchBudget.chargeStage_run, ResearchBudget.chargeForecast_run,
      if_neg (not_lt.mpr hcost)]
    dsimp only
    rw [if_neg]
    · exact ⟨_, rfl, rfl⟩
    · rw [h.forecast, h.root]
      exact not_lt.mpr hwithin
  · have hspent : (budgetRun config ops).books.spentOn date.isoformat = chargedOn date ops :=
      h.sums date
    have hceiling : (budgetRun config ops).root.perDayMicros = (ceilingsAfter config ops).inForce := by
      rw [h.root]
    rw [budgetStep, ResearchBudget.ensureDayOpen_run]
    dsimp only
    rw [hspent, hceiling]
    by_cases hfull : (ceilingsAfter config ops).inForce ≤ chargedOn date ops
    · rw [if_pos hfull]
      exact iff_of_true ⟨_, _, rfl⟩ hfull
    · rw [if_neg hfull]
      exact iff_of_false (fun ⟨_, _, h⟩ => by cases h) hfull

/-- A change of the ceiling is not seen before the process is built again: here the ceiling is set
to nothing, and the day still opens. -/
theorem cap_waits_for_rebuild :
    (budgetStep ⟨10, 10, 1, by decide, by decide, by decide⟩
        (budgetRun ⟨10, 10, 1, by decide, by decide, by decide⟩ [.setCap 0 "stop"])
        (.ensureDayOpen (some ⟨2026, 8, 10, by decide, by decide, by decide⟩))).1 = none ∧
      (ceilingsAfter ⟨10, 10, 1, by decide, by decide, by decide⟩ [.setCap 0 "stop"]).last = 0 ∧
        chargedOn ⟨2026, 8, 10, by decide, by decide, by decide⟩ [.setCap 0 "stop"] = 0 := by
  decide +kernel

end Windbreak
