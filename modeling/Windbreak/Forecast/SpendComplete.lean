import Mathlib.Algebra.Order.BigOperators.Group.List
import Windbreak.Forecast.PipelineEffects

/-!
# When research spend is accounted for completely

The searches and fetches of a run, its Stage-0 call and its votes cost money when they are made.  The
budget is charged at three moments, and the record states a total of its own; this module says for
which runs the three figures agree.
-/

namespace Windbreak

/-- The budget is charged what a run incurred. -/
def ChargedInFull (s : PipelineState)
    (r : EStateM.Result PipelineError PipelineState ForecastRecord) : Prop :=
  (Effects.finalState r).books.chargedMicros - s.books.chargedMicros =
    (Effects.finalState r).incurredMicros - s.incurredMicros

/-- A returned record states what the run incurred. -/
def RecordedInFull (s : PipelineState)
    (r : EStateM.Result PipelineError PipelineState ForecastRecord) : Prop :=
  ∀ record s', r = .ok record s' →
    record.researchCostMicros = s'.incurredMicros - s.incurredMicros

theorem chargedInFull_iff {s : PipelineState}
    {r : EStateM.Result PipelineError PipelineState ForecastRecord} {incurred charged : ℤ}
    (h : Spends s (Effects.finalState r) incurred charged) :
    ChargedInFull s r ↔ charged = incurred := by
  rw [ChargedInFull, h.charged, h.incurred, add_sub_cancel_left, add_sub_cancel_left]

theorem recordedInFull_error {s s' : PipelineState} {e : PipelineError} :
    RecordedInFull s (.error e s') := by
  intro record u hreturned
  cases hreturned

theorem recordedInFull_ok {s s' : PipelineState} {record : ForecastRecord} :
    RecordedInFull s (.ok record s') ↔
      record.researchCostMicros = s'.incurredMicros - s.incurredMicros := by
  constructor
  · exact fun h => h record s' rfl
  · intro h record' s'' heq
    cases heq
    exact h

/-! ## The full pipeline -/

/-- A run on a budget. -/
def PipelineRun.under (run : PipelineRun) (budget : ResearchBudget) : PipelineRun :=
  { run with budget := some budget }

/-- What the votes of a run cost. -/
def OutsideCalls.votesCostMicros (outside : OutsideCalls) : ℤ :=
  (outside.votes.map fun call => call.outcome.costMicros).sum

/-- Nothing that was paid for is lost: the research returns; where it verifies something, every vote
settles; and votes that cost something come with no record, which would leave them out. -/
def PipelineRun.spendSettles (run : PipelineRun) (budget : ResearchBudget) (returned : Bool) :
    Prop :=
  ∃ citations verifiedCount,
    gatherEvidence run (some budget.maxPages) = .ok (citations, verifiedCount) ∧
    (verifiedCount ≠ 0 → run.votesSettle run.outside.votes ∧
      (run.outside.votesCostMicros ≠ 0 → ¬ (returned = true ∧
        budget.alreadyChargedMicros + (researchCostMicros + run.outside.votesCostMicros) ≤
          budget.perForecastMicros ∧
        (recordOfVotes run (run.collected run.outside.votes .empty) citations
          verifiedCount).isOk = true)))

theorem costMicros_collected (run : PipelineRun) (hscreen : run.marketScreen = none)
    (calls : List VoteCall) (collection : VoteCollection) :
    (run.collected calls collection).costMicros =
      collection.costMicros + (calls.map fun call => call.outcome.costMicros).sum := by
  induction calls generalizing collection with
  | nil => simp [PipelineRun.collected]
  | cons call calls ih =>
      have hstep := ih (collection.add (run.voteOutcome call))
      have houtcome : run.voteOutcome call = call.outcome := by
        rw [PipelineRun.voteOutcome, hscreen]
      rw [costMicros_add, houtcome] at hstep
      rw [List.map_cons, List.sum_cons, ← add_assoc, ← hstep, PipelineRun.collected,
        List.foldl_cons, houtcome]
      rfl

theorem researchCostMicros_nonneg : 0 ≤ researchCostMicros := by decide

theorem votesCostMicros_nonneg (outside : OutsideCalls) : 0 ≤ outside.votesCostMicros :=
  List.sum_nonneg fun _ hcost => by
    obtain ⟨call, -, rfl⟩ := List.mem_map.mp hcost
    exact call.cost_nonneg

/-- A run that gets as far as its research has a market that passes the screen, and an instant. -/
theorem PipelineRun.entered (run : PipelineRun) {budget : ResearchBudget} {books : BudgetBooks}
    (h : run.entersResearch budget books = true) :
    run.marketScreen = none ∧ ∃ instant, run.createdAt = some instant := by
  rw [PipelineRun.entersResearch, Bool.and_eq_true, Bool.and_eq_true,
    Option.isNone_iff_eq_none] at h
  refine ⟨h.1.2, ?_⟩
  cases hcreated : run.createdAt with
  | none =>
      rw [hcreated] at h
      cases h.2
  | some instant => exact ⟨instant, rfl⟩

/-- A run whose evidence does not verify charges what it incurred and states it. -/
theorem unverified_spend {run : PipelineRun} {budget : ResearchBudget}
    (hbudget : run.budget = some budget) {instant : UtcInstant}
    (hinstant : run.createdAt = some instant) {citations : List Citation}
    (hfound : gatherEvidence run (some budget.maxPages) = .ok (citations, 0)) (s : PipelineState) :
    ChargedInFull s ((researchAndVote run (some budget.maxPages)).run s) ∧
      RecordedInFull s ((researchAndVote run (some budget.maxPages)).run s) := by
  rw [research_found s hfound, if_pos rfl]
  obtain ⟨s', hspends, h⟩ := charge_then_record hbudget
    { s with incurredMicros := s.incurredMicros + researchCostMicros } hinstant
    researchCostMicros_nonneg (buildAbstentionRecord run citations .noVerifiedCitations)
  have htotal := (spends_incur researchCostMicros s).trans hspends
  rcases h with ⟨-, record, hbuilt, hrun⟩ | ⟨-, e, hrun⟩
  · rw [hrun]
    refine ⟨(chargedInFull_iff htotal).mpr (by omega), recordedInFull_ok.mpr ?_⟩
    rw [(buildAbstentionRecord_ok hbuilt).1.cost, htotal.incurred]
    omega
  · rw [hrun]
    exact ⟨(chargedInFull_iff htotal).mpr (by omega), recordedInFull_error⟩

/-- A run whose votes settle charges what it incurred; its record leaves the votes out. -/
theorem voted_spend {run : PipelineRun} {budget : ResearchBudget}
    (hbudget : run.budget = some budget) (hscreen : run.marketScreen = none) {instant : UtcInstant}
    (hinstant : run.createdAt = some instant) {citations : List Citation} {verifiedCount : ℤ}
    (hfound : gatherEvidence run (some budget.maxPages) = .ok (citations, verifiedCount))
    (hverified : verifiedCount ≠ 0) (hsettle : run.votesSettle run.outside.votes)
    (s : PipelineState) :
    ChargedInFull s ((researchAndVote run (some budget.maxPages)).run s) ∧
      (RecordedInFull s ((researchAndVote run (some budget.maxPages)).run s) ↔
        (run.outside.votesCostMicros ≠ 0 →
          ¬ (budget.alreadyChargedMicros + (researchCostMicros + run.outside.votesCostMicros) ≤
              budget.perForecastMicros ∧
            (recordOfVotes run (run.collected run.outside.votes .empty) citations
              verifiedCount).isOk = true))) := by
  have hcost : (run.collected run.outside.votes .empty).costMicros =
      run.outside.votesCostMicros := by
    rw [costMicros_collected run hscreen]
    exact zero_add _
  have hnonneg := votesCostMicros_nonneg run.outside
  have hresearch := researchCostMicros_nonneg
  rw [research_found s hfound, if_neg hverified, voteAndAggregate, EStateM.run_bind,
    collect_settled run hsettle, hcost]
  have hvotes : VoteCollection.empty.costMicros = 0 := rfl
  rw [hvotes, sub_zero]
  dsimp only
  rw [hcost]
  obtain ⟨s', hspends, h⟩ := charge_then_record hbudget
    { s with incurredMicros := s.incurredMicros + researchCostMicros +
        run.outside.votesCostMicros } hinstant (add_nonneg hresearch hnonneg)
    (recordOfVotes run (run.collected run.outside.votes .empty) citations verifiedCount)
  have htotal := (spends_incur researchCostMicros s).trans
    ((spends_incur run.outside.votesCostMicros _).trans hspends)
  rcases h with ⟨hwithin, record, hbuilt, hrun⟩ | ⟨hnone, e, hrun⟩
  · rw [hrun, recordedInFull_ok, (recordOfVotes_ok hbuilt).cost]
    refine ⟨(chargedInFull_iff htotal).mpr (by omega), ?_⟩
    rw [htotal.incurred]
    constructor
    · intro hstated hpaid
      omega
    · intro hfree
      by_contra hstated
      exact hfree (by omega) ⟨hwithin, by rw [hbuilt]; rfl⟩
  · rw [hrun]
    exact ⟨(chargedInFull_iff htotal).mpr (by omega), fun _ _ => hnone,
      fun _ => recordedInFull_error⟩

/-- **The full pipeline.**  What a run charges is what it incurred, and what a record that gets
returned states as well, exactly where nothing that was paid for is lost. -/
theorem runPipeline_spend_iff (run : PipelineRun) {budget : ResearchBudget}
    (hbudget : run.budget = some budget) (returned : Bool) (s : PipelineState) :
    (ChargedInFull s ((runPipeline run).run s) ∧
      (returned = true → RecordedInFull s ((runPipeline run).run s))) ↔
    (run.entersResearch budget s.books = true → run.spendSettles budget returned) := by
  by_cases henters : run.entersResearch budget s.books = true
  · rw [runPipeline_entered hbudget s henters]
    obtain ⟨hscreen, instant, hinstant⟩ := run.entered henters
    have hresearch : 0 < researchCostMicros := by decide
    cases hfound : gatherEvidence run (some budget.maxPages) with
    | error e =>
        rw [research_lost s hfound]
        have hlost := spends_incur researchCostMicros s
        refine ⟨fun h => ?_, fun h => ?_⟩
        · have hcharged := (chargedInFull_iff hlost).mp h.1
          omega
        · obtain ⟨citations, verifiedCount, hsettles, -⟩ := h henters
          rw [hfound] at hsettles
          cases hsettles
    | ok evidence =>
        obtain ⟨citations, verifiedCount⟩ := evidence
        by_cases hverified : verifiedCount = 0
        · subst hverified
          obtain ⟨hcharged, hrecorded⟩ := unverified_spend hbudget hinstant hfound s
          exact ⟨fun _ _ => ⟨citations, 0, hfound, fun h => absurd rfl h⟩,
            fun _ => ⟨hcharged, fun _ => hrecorded⟩⟩
        · by_cases hsettle : run.votesSettle run.outside.votes
          · obtain ⟨hcharged, hrecorded⟩ :=
              voted_spend hbudget hscreen hinstant hfound hverified hsettle s
            rw [hrecorded]
            constructor
            · intro h _
              exact ⟨citations, verifiedCount, hfound, fun _ => ⟨hsettle, fun hpaid hall =>
                h.2 hall.1 hpaid ⟨hall.2.1, hall.2.2⟩⟩⟩
            · intro h
              obtain ⟨citations', verifiedCount', hfound', hvotes⟩ := h henters
              rw [hfound] at hfound'
              cases hfound'
              exact ⟨hcharged, fun hreturned hpaid hall =>
                (hvotes hverified).2 hpaid ⟨hreturned, hall.1, hall.2⟩⟩
          · obtain ⟨e, s', paid, hrun, hpaid, hspends⟩ := collect_unsettled run hscreen hsettle
              .empty { s with incurredMicros := s.incurredMicros + researchCostMicros }
            rw [research_found s hfound, if_neg hverified, voteAndAggregate, EStateM.run_bind, hrun]
            have hlost := (spends_incur researchCostMicros s).trans hspends
            refine ⟨fun h => ?_, fun h => ?_⟩
            · have hcharged := (chargedInFull_iff hlost).mp h.1
              omega
            · obtain ⟨citations', verifiedCount', hfound', hvotes⟩ := h henters
              rw [hfound] at hfound'
              cases hfound'
              exact absurd (hvotes hverified).1 hsettle
  · obtain ⟨e, s', hrun, hspends⟩ := runPipeline_refused hbudget s henters
    rw [hrun]
    exact ⟨fun _ h => absurd h henters,
      fun _ => ⟨(chargedInFull_iff hspends).mpr rfl, fun _ => recordedInFull_error⟩⟩

/-! ## Triage -/

section Triage

variable (run : TriagedRun) (s : PipelineState)

/-- What Stage-0 leaves of the budget. -/
def TriagedRun.remaining (run : TriagedRun) : ResearchBudget :=
  run.budget.remainder stage0CostMicros

/-- Nothing that was paid for is lost: a Stage-0 response that is paid for can be read, and the full
run that it leads to loses nothing. -/
def TriagedRun.spendSettles (run : TriagedRun) (books : BudgetBooks) : Prop :=
  ∀ response, run.stage0 = .answered response → ∃ priorPpm, parsePriorPpm response = .ok priorPpm ∧
    (run.budget.alreadyChargedMicros + stage0CostMicros ≤ run.budget.perForecastMicros →
      shouldRunFullPipeline run priorPpm = true → ∀ instant, run.createdAt = some instant →
      (run.fullRun run.remaining).entersResearch run.remaining
          (ResearchBudget.charged books stage0CostMicros run.marketTicker instant.date) = true →
        (run.fullRun run.remaining).spendSettles run.remaining run.decisionRecorded)

theorem recordDecision_run :
    run.recordDecision.run s = if run.decisionRecorded then .ok () s else .error .ledger s := by
  rw [TriagedRun.recordDecision]
  split <;> rfl

/-- A run that stops states the cost of Stage-0. -/
theorem runStopPath_ok {s' : PipelineState} {record : ForecastRecord}
    (h : (runStopPath run).run s = .ok record s') : record.researchCostMicros = stage0CostMicros := by
  rw [runStopPath] at h
  obtain ⟨built, s₁, hbuilt, h⟩ := Effects.run_bind_ok.mp h
  obtain ⟨-, s₂, -, h⟩ := Effects.run_bind_ok.mp h
  cases h
  rw [ofExcept_run, buildTriageOnlyRecord] at hbuilt
  cases hcreated : run.createdAt with
  | none =>
      rw [hcreated] at hbuilt
      cases hbuilt
  | some createdAt =>
      rw [hcreated] at hbuilt
      dsimp only at hbuilt
      by_cases hticker : run.marketTicker = ""
      · rw [if_pos hticker] at hbuilt
        cases hbuilt
      · rw [if_neg hticker] at hbuilt
        cases hbuilt
        rfl

/-- The decision to stop changes no books. -/
theorem runStopPath_state : Effects.finalState ((runStopPath run).run s) = s := by
  rw [runStopPath, EStateM.run_bind, ofExcept_run]
  cases buildTriageOnlyRecord run with
  | error e => rfl
  | ok record =>
      dsimp only
      rw [EStateM.run_bind, recordDecision_run]
      cases run.decisionRecorded <;> rfl

/-- Stopping from a state where Stage-0 is charged and incurred loses nothing. -/
theorem stop_spend {s₁ : PipelineState}
    (hspends : Spends s s₁ stage0CostMicros stage0CostMicros) :
    ChargedInFull s ((runStopPath run).run s₁) ∧ RecordedInFull s ((runStopPath run).run s₁) := by
  have hstate := runStopPath_state run s₁
  constructor
  · rw [← hstate] at hspends
    exact (chargedInFull_iff hspends).mpr rfl
  · intro record s' hrun
    rw [hrun, Effects.finalState_ok] at hstate
    rw [runStopPath_ok run s₁ hrun, hstate, hspends.incurred]
    omega

/-- Proceeding is the full run, with the cost of Stage-0 folded in. -/
theorem runProceedPath_run (remaining : ResearchBudget) :
    (runProceedPath run remaining).run s =
      match (runPipeline (run.fullRun remaining)).run s with
      | .ok record s' =>
        if run.decisionRecorded then .ok (record.fold stage0CostMicros) s' else .error .ledger s'
      | .error e s' => .error e s' := by
  rw [runProceedPath, EStateM.run_bind]
  cases (runPipeline (run.fullRun remaining)).run s with
  | error e s' => rfl
  | ok record s' =>
      dsimp only
      rw [EStateM.run_bind, recordDecision_run]
      cases run.decisionRecorded <;> rfl

/-- Proceeding from a state where Stage-0 is charged and incurred loses what the full run loses. -/
theorem proceed_spend_iff {s₁ : PipelineState} (remaining : ResearchBudget)
    (hspends : Spends s s₁ stage0CostMicros stage0CostMicros) :
    (ChargedInFull s ((runProceedPath run remaining).run s₁) ∧
      RecordedInFull s ((runProceedPath run remaining).run s₁)) ↔
    (ChargedInFull s₁ ((runPipeline (run.fullRun remaining)).run s₁) ∧
      (run.decisionRecorded = true →
        RecordedInFull s₁ ((runPipeline (run.fullRun remaining)).run s₁))) := by
  have hincurred := hspends.incurred
  have hcharged := hspends.charged
  rw [runProceedPath_run]
  cases (runPipeline (run.fullRun remaining)).run s₁ with
  | error e s' =>
      simp only [ChargedInFull, Effects.finalState_error, recordedInFull_error, and_true,
        implies_true]
      omega
  | ok record s' =>
      cases run.decisionRecorded with
      | false =>
          simp only [ChargedInFull, Effects.finalState_error, Effects.finalState_ok,
            recordedInFull_error, and_true, Bool.false_eq_true, false_implies, if_false]
          omega
      | true =>
          simp only [ChargedInFull, Effects.finalState_ok, recordedInFull_ok, if_true, true_implies,
            ForecastRecord.fold]
          omega

/-- Stage-0 under the ceiling is charged, and hands on the rest of the budget. -/
theorem stage0_within {instant : UtcInstant}
    (hwithin : run.budget.alreadyChargedMicros + stage0CostMicros ≤ run.budget.perForecastMicros) :
    (callBudget (run.budget.chargeStage stage0CostMicros run.marketTicker
        (some instant.date))).run s =
      .ok run.remaining { s with
        books := ResearchBudget.charged s.books stage0CostMicros run.marketTicker instant.date } := by
  rw [callBudget_run, ResearchBudget.chargeStage_run, ResearchBudget.chargeForecast_run,
    if_neg (by decide)]
  dsimp only
  rw [if_neg (not_lt.mpr hwithin)]
  rfl

/-- Stage-0 over the ceiling is charged, and raises. -/
theorem stage0_over {instant : UtcInstant}
    (hover : run.budget.perForecastMicros < run.budget.alreadyChargedMicros + stage0CostMicros) :
    ∃ e s', (callBudget (run.budget.chargeStage stage0CostMicros run.marketTicker
        (some instant.date))).run s = .error e s' ∧ Spends s s' 0 stage0CostMicros := by
  rw [callBudget_run, ResearchBudget.chargeStage_run, ResearchBudget.chargeForecast_run,
    if_neg (by decide)]
  dsimp only
  rw [if_pos hover]
  refine ⟨_, _, rfl, by simp, ?_⟩
  rw [chargedMicros_record, chargedMicros_charged]
  exact add_zero _

/-- A triaged run whose day is open and whose Stage-0 response is paid for. -/
theorem answered_spend_iff {instant : UtcInstant} (hinstant : run.createdAt = some instant)
    {response : Option ℤ} (hstage0 : run.stage0 = .answered response) :
    (ChargedInFull s ((triageAndDecide run).run s) ∧
      RecordedInFull s ((triageAndDecide run).run s)) ↔ run.spendSettles s.books := by
  have hcost : 0 < stage0CostMicros := by decide
  have hprior : (runStage0Prior run).run s =
      match parsePriorPpm response with
      | .ok prior => .ok prior { s with incurredMicros := s.incurredMicros + stage0CostMicros }
      | .error e => .error e { s with incurredMicros := s.incurredMicros + stage0CostMicros } := by
    rw [runStage0Prior, hstage0]
    dsimp only
    rw [EStateM.run_bind, incur_run]
    dsimp only
    rw [ofExcept_run]
    cases parsePriorPpm response <;> rfl
  have hpaid := spends_incur stage0CostMicros s
  rw [triageAndDecide, EStateM.run_bind, hprior, hinstant]
  dsimp only [Option.map_some]
  cases hparsed : parsePriorPpm response with
  | error e =>
      -- the response is paid for, and nothing is charged
      refine ⟨fun h => ?_, fun h => ?_⟩
      · have hcharged := (chargedInFull_iff hpaid).mp h.1
        omega
      · obtain ⟨priorPpm, hok, -⟩ := h response hstage0
        rw [hparsed] at hok
        cases hok
  | ok priorPpm =>
      dsimp only
      rw [EStateM.run_bind]
      by_cases hwithin : run.budget.alreadyChargedMicros + stage0CostMicros ≤
          run.budget.perForecastMicros
      · rw [stage0_within _ _ hwithin]
        dsimp only
        have hcharge := @spends_charged run.marketTicker instant.date
          { s with incurredMicros := s.incurredMicros + stage0CostMicros } stage0CostMicros
        have hstage := hpaid.trans hcharge
        rw [add_zero, zero_add] at hstage
        by_cases hfull : shouldRunFullPipeline run priorPpm = true
        · rw [if_pos hfull, proceed_spend_iff run s run.remaining hstage,
            runPipeline_spend_iff (run.fullRun run.remaining) rfl]
          constructor
          · intro h response' hresponse
            rw [hstage0] at hresponse
            cases hresponse
            refine ⟨priorPpm, hparsed, fun _ _ instant' hinstant' henters => h ?_⟩
            rw [hinstant] at hinstant'
            cases hinstant'
            exact henters
          · intro h henters
            obtain ⟨priorPpm', hparsed', hsettles⟩ := h response hstage0
            rw [hparsed] at hparsed'
            cases hparsed'
            exact hsettles hwithin hfull instant hinstant henters
        · rw [if_neg hfull]
          refine iff_of_true (stop_spend run s hstage) fun response' hresponse => ?_
          rw [hstage0] at hresponse
          cases hresponse
          exact ⟨priorPpm, hparsed, fun _ h => absurd h hfull⟩
      · obtain ⟨e, s', hrun, hspends⟩ := stage0_over run
          { s with incurredMicros := s.incurredMicros + stage0CostMicros } (not_le.mp hwithin)
        rw [hrun]
        have hboth := hpaid.trans hspends
        refine iff_of_true ⟨(chargedInFull_iff hboth).mpr (by omega), recordedInFull_error⟩
          fun response' hresponse => ?_
        rw [hstage0] at hresponse
        cases hresponse
        exact ⟨priorPpm, hparsed, fun h => absurd h hwithin⟩

/-- **The triaged pipeline.**  The three figures agree exactly where nothing that was paid for is
lost, once the market passes the screen and the day is open. -/
theorem runTriagedPipeline_spend_iff :
    (ChargedInFull s ((runTriagedPipeline run).run s) ∧
      RecordedInFull s ((runTriagedPipeline run).run s)) ↔
    (run.marketScreen = none → run.budget.dayOpen run.createdAt s.books = true →
      run.spendSettles s.books) := by
  rw [runTriagedPipeline]
  cases hscreen : run.marketScreen with
  | some error =>
      exact ⟨fun _ h => (nomatch h),
        fun _ => ⟨(chargedInFull_iff (Spends.refl s)).mpr rfl, recordedInFull_error⟩⟩
  | none =>
      dsimp only
      rw [EStateM.run_bind]
      by_cases hopen : run.budget.dayOpen run.createdAt s.books = true
      · rw [ensureDayOpen_open run.budget s hopen]
        dsimp only
        cases hcreated : run.createdAt with
        | none =>
            rw [hcreated] at hopen
            cases hopen
        | some instant =>
            cases hstage0 : run.stage0 with
            | raised text =>
                rw [triageAndDecide, EStateM.run_bind, runStage0Prior, hstage0]
                exact iff_of_true
                  ⟨(chargedInFull_iff (Spends.refl s)).mpr rfl, recordedInFull_error⟩
                  fun _ _ response hresponse => by rw [hstage0] at hresponse; cases hresponse
            | answered response =>
                rw [answered_spend_iff run s hcreated hstage0]
                rw [hcreated] at hopen
                exact ⟨fun h _ _ => h, fun h => h rfl hopen⟩
      · obtain ⟨e, s', hrun, hspends⟩ := ensureDayOpen_closed run.budget s hopen
        rw [hrun]
        exact ⟨fun _ _ h => absurd h hopen,
          fun _ => ⟨(chargedInFull_iff hspends).mpr rfl, recordedInFull_error⟩⟩

end Triage

/-! ## The claim about both entry points -/

/-- **Research spend.**  For every run on a budget, at every state of the books: what is charged is
what was incurred and what a returned record states, exactly where nothing that was paid for is
lost. -/
theorem research_spend_complete_iff (run : PipelineRun) (budget : ResearchBudget)
    (triaged : TriagedRun) (s : PipelineState) :
    ((ChargedInFull s ((runPipeline (run.under budget)).run s) ∧
        RecordedInFull s ((runPipeline (run.under budget)).run s)) ↔
      ((run.under budget).entersResearch budget s.books = true →
        (run.under budget).spendSettles budget true)) ∧
    ((ChargedInFull s ((runTriagedPipeline triaged).run s) ∧
        RecordedInFull s ((runTriagedPipeline triaged).run s)) ↔
      (triaged.marketScreen = none → triaged.budget.dayOpen triaged.createdAt s.books = true →
        triaged.spendSettles s.books)) := by
  constructor
  · rw [← runPipeline_spend_iff (run.under budget) rfl true s]
    simp only [true_implies]
  · exact runTriagedPipeline_spend_iff triaged s

/-- A vote that returns, for a thousand micros. -/
def paidVote (provider : String) : VoteCall where
  outcome := .returned ⟨600000, 1000, provider, "v1", "2026-01", "fingerprint", false, none, by decide⟩
  recorded := true
  cost_nonneg := Int.natCast_nonneg 1000

/-- The first month, and the first day of one, are of two digits. -/
theorem first_lt : 1 < 100 := by decide

/-- A run whose three searches find a source that verifies, and whose two members vote. -/
def paidRun : PipelineRun where
  marketTicker := "MKT"
  marketScreen := none
  createdAt := some ⟨0, ⟨1970, 1, 1, by decide, first_lt, first_lt⟩⟩
  minVerifiedCitations := 3
  minEnsembleVotes := 2
  budget := none
  canaryGate := none
  calibrationTrainedAt := none
  providerGate := none
  outside :=
    { search := fun _ => .found ["https://source"]
      fetch := fun _ => .content "text"
      verify := fun _ => .verdict true
      votes := [paidVote "openai", paidVote "anthropic"]
      aggregationRecorded := true }

/-- What a returned record states, and what was incurred for it. -/
def statedAndIncurred :
    EStateM.Result PipelineError PipelineState ForecastRecord → Option (ℤ × ℤ)
  | .ok record s => some (record.researchCostMicros, s.incurredMicros)
  | .error _ _ => none

/-- **Votes left out of the record.**  The two votes are charged, and the record states the fixed
research charge alone. -/
theorem record_leaves_votes_out :
    ¬ ∀ (run : PipelineRun) (budget : ResearchBudget) (s : PipelineState),
      ChargedInFull s ((runPipeline (run.under budget)).run s) ∧
        RecordedInFull s ((runPipeline (run.under budget)).run s) := by
  intro h
  obtain ⟨-, hrecorded⟩ := h paidRun ⟨10000000, 10000000, 10, 0⟩ ⟨⟨.empty, []⟩, 0⟩
  have hrun : statedAndIncurred ((runPipeline (paidRun.under ⟨10000000, 10000000, 10, 0⟩)).run
      ⟨⟨.empty, []⟩, 0⟩) = some (3000000, 3002000) := by decide +kernel
  cases hresult : (runPipeline (paidRun.under ⟨10000000, 10000000, 10, 0⟩)).run
      ⟨⟨.empty, []⟩, 0⟩ with
  | error e s' =>
      rw [hresult] at hrun
      cases hrun
  | ok record s' =>
      have hstated := hrecorded record s' hresult
      rw [hresult, statedAndIncurred, Option.some.injEq, Prod.mk.injEq] at hrun
      rw [hrun.1, hrun.2] at hstated
      exact absurd hstated (by decide)

end Windbreak
