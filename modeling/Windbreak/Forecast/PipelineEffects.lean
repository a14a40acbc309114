import Windbreak.Forecast.Triage

/-!
# What a run charges and what it incurs
-/

namespace Windbreak

/-! ## The ghost and the books -/

/-- What an event charges. -/
def BudgetEvent.chargedMicros : BudgetEvent → ℤ
  | .spendRecorded _ _ costMicros => costMicros
  | _ => 0

/-- Everything that the books were charged. -/
def BudgetBooks.chargedMicros (books : BudgetBooks) : ℤ :=
  (books.ledgered.map BudgetEvent.chargedMicros).sum

theorem chargedMicros_record (books : BudgetBooks) (event : BudgetEvent) :
    (books.record event).chargedMicros = books.chargedMicros + event.chargedMicros := by
  simp [BudgetBooks.chargedMicros, BudgetBooks.record]

theorem chargedMicros_charged (books : BudgetBooks) (costMicros : ℤ) (marketTicker : String)
    (date : Calendar.UtcDate) :
    (ResearchBudget.charged books costMicros marketTicker date).chargedMicros =
      books.chargedMicros + costMicros := by
  rw [ResearchBudget.charged, chargedMicros_record]
  rfl

/-- A call leads from one state to another with these costs incurred and charged. -/
structure Spends (s s' : PipelineState) (incurred charged : ℤ) : Prop where
  incurred : s'.incurredMicros = s.incurredMicros + incurred
  charged : s'.books.chargedMicros = s.books.chargedMicros + charged

theorem Spends.refl (s : PipelineState) : Spends s s 0 0 := ⟨by simp, by simp⟩

theorem Spends.trans {s t u : PipelineState} {i j c d : ℤ} (h : Spends s t i c)
    (h' : Spends t u j d) : Spends s u (i + j) (c + d) :=
  ⟨by rw [h'.incurred, h.incurred, add_assoc], by rw [h'.charged, h.charged, add_assoc]⟩

theorem incur_run (costMicros : ℤ) (s : PipelineState) :
    (incur costMicros).run s =
      .ok () { s with incurredMicros := s.incurredMicros + costMicros } := rfl

theorem spends_incur (costMicros : ℤ) (s : PipelineState) :
    Spends s { s with incurredMicros := s.incurredMicros + costMicros } costMicros 0 :=
  ⟨rfl, by simp⟩

@[simp] theorem ofExcept_run {α : Type} (x : Except PipelineError α) (s : PipelineState) :
    (ofExcept x).run s = match x with | .ok a => .ok a s | .error e => .error e s := by
  cases x <;> rfl

/-! ## Charges -/

section Charges

variable (budget : ResearchBudget) (marketTicker : String) (date : Calendar.UtcDate)
  (s : PipelineState) {costMicros : ℤ}

theorem callBudget_run {α : Type} (call : BudgetM α) :
    (callBudget call).run s = match call.run s.books with
      | .ok a books => .ok a { s with books := books }
      | .error e books => .error (.budget e) { s with books := books } := rfl

/-- A charge under the ceiling is booked. -/
theorem charge_within (hcost : 0 ≤ costMicros)
    (hwithin : budget.alreadyChargedMicros + costMicros ≤ budget.perForecastMicros) :
    (callBudget (budget.chargeForecast costMicros marketTicker (some date))).run s =
      .ok () { s with books := ResearchBudget.charged s.books costMicros marketTicker date } := by
  rw [callBudget_run, ResearchBudget.chargeForecast_run, if_neg (not_lt.mpr hcost)]
  dsimp only
  rw [if_neg (not_lt.mpr hwithin)]

/-- A charge over the ceiling is booked, and raises. -/
theorem charge_over (hcost : 0 ≤ costMicros)
    (hover : budget.perForecastMicros < budget.alreadyChargedMicros + costMicros) :
    ∃ e s', (callBudget (budget.chargeForecast costMicros marketTicker (some date))).run s =
      .error e s' ∧ Spends s s' 0 costMicros := by
  rw [callBudget_run, ResearchBudget.chargeForecast_run, if_neg (not_lt.mpr hcost)]
  dsimp only
  rw [if_pos hover]
  refine ⟨_, _, rfl, by simp, ?_⟩
  rw [chargedMicros_record, chargedMicros_charged]
  exact add_zero _

theorem spends_charged :
    Spends s { s with books := ResearchBudget.charged s.books costMicros marketTicker date }
      0 costMicros :=
  ⟨by simp, chargedMicros_charged ..⟩

/-- Is the day of the budget open? -/
def ResearchBudget.dayOpen (budget : ResearchBudget) (createdAt : Option UtcInstant)
    (books : BudgetBooks) : Bool :=
  createdAt.any fun instant =>
    decide (books.spentOn instant.date.isoformat < budget.perDayMicros)

theorem ensureDayOpen_open {createdAt : Option UtcInstant}
    (h : budget.dayOpen createdAt s.books = true) :
    (callBudget (budget.ensureDayOpen (createdAt.map UtcInstant.date))).run s = .ok () s := by
  cases createdAt with
  | none => cases h
  | some instant =>
      have hlt : s.books.spentOn instant.date.isoformat < budget.perDayMicros :=
        of_decide_eq_true h
      rw [callBudget_run, ResearchBudget.ensureDayOpen_run]
      dsimp only [Option.map_some]
      rw [if_neg (not_le.mpr hlt)]

theorem ensureDayOpen_closed {createdAt : Option UtcInstant}
    (h : ¬ budget.dayOpen createdAt s.books = true) :
    ∃ e s', (callBudget (budget.ensureDayOpen (createdAt.map UtcInstant.date))).run s =
      .error e s' ∧ Spends s s' 0 0 := by
  rw [callBudget_run, ResearchBudget.ensureDayOpen_run]
  cases createdAt with
  | none => exact ⟨_, _, rfl, Spends.refl s⟩
  | some instant =>
      have hle : budget.perDayMicros ≤ s.books.spentOn instant.date.isoformat :=
        not_lt.mp fun hlt => h (decide_eq_true hlt)
      dsimp only [Option.map_some]
      rw [if_pos hle]
      exact ⟨_, _, rfl, by simp, chargedMicros_record ..⟩

end Charges

/-! ## Votes -/

section Votes

variable (run : PipelineRun)

/-- Nothing but the typed error of a vote is raised, and the ledger takes every event. -/
def PipelineRun.votesSettle (calls : List VoteCall) : Prop :=
  ∀ call ∈ calls, call.recorded = true ∧ ∀ text, run.voteOutcome call ≠ .raised text

/-- What a vote adds to a collection. -/
def VoteCollection.add (collection : VoteCollection) : VoteOutcome → VoteCollection
  | .returned forecast => collection.keep forecast
  | .failed failed => collection.discard failed
  | .raised _ => collection

/-- What settled votes are collected into. -/
def PipelineRun.collected (calls : List VoteCall) (collection : VoteCollection) : VoteCollection :=
  calls.foldl (fun collection call => collection.add (run.voteOutcome call)) collection

theorem costMicros_add (collection : VoteCollection) (outcome : VoteOutcome) :
    (collection.add outcome).costMicros = collection.costMicros + outcome.costMicros := by
  cases outcome with
  | returned forecast =>
      simp only [VoteCollection.add, VoteCollection.keep, VoteCollection.costMicros,
        VoteOutcome.costMicros, List.map_append, List.map_singleton, List.sum_append,
        List.sum_singleton]
      omega
  | failed failed =>
      simp only [VoteCollection.add, VoteCollection.discard, VoteCollection.costMicros,
        VoteOutcome.costMicros]
      omega
  | raised text => simp [VoteCollection.add, VoteOutcome.costMicros]

theorem voteOutcome_cost_nonneg (hscreen : run.marketScreen = none) (call : VoteCall) :
    0 ≤ (run.voteOutcome call).costMicros := by
  rw [PipelineRun.voteOutcome, hscreen]
  exact call.cost_nonneg

theorem voteRecord_run (call : VoteCall) (s : PipelineState) :
    call.record.run s = if call.recorded then .ok () s else .error .ledger s := by
  rw [VoteCall.record]
  split <;> rfl

/-- One vote that settles, and the rest. -/
theorem collect_cons {call : VoteCall} (hrecorded : call.recorded = true)
    (hraised : ∀ text, run.voteOutcome call ≠ .raised text) (calls : List VoteCall)
    (collection : VoteCollection) (s : PipelineState) :
    (collectProviderForecasts run (call :: calls) collection).run s =
      (collectProviderForecasts run calls (collection.add (run.voteOutcome call))).run
        { s with incurredMicros := s.incurredMicros + (run.voteOutcome call).costMicros } := by
  rw [collectProviderForecasts]
  cases houtcome : run.voteOutcome call with
  | raised text => exact absurd houtcome (hraised text)
  | failed failed =>
      dsimp only
      rw [EStateM.run_bind, incur_run]
      dsimp only
      rw [EStateM.run_bind, voteRecord_run, if_pos hrecorded]
      rfl
  | returned forecast =>
      dsimp only
      rw [EStateM.run_bind, incur_run]
      dsimp only
      rw [EStateM.run_bind, voteRecord_run, if_pos hrecorded]
      rfl

/-- Settled votes are collected, and everything they cost is incurred. -/
theorem collect_settled {calls : List VoteCall} (h : run.votesSettle calls)
    (collection : VoteCollection) (s : PipelineState) :
    (collectProviderForecasts run calls collection).run s =
      .ok (run.collected calls collection)
        { s with incurredMicros := s.incurredMicros +
            ((run.collected calls collection).costMicros - collection.costMicros) } := by
  induction calls generalizing collection s with
  | nil =>
      simp only [collectProviderForecasts, PipelineRun.collected, List.foldl_nil, sub_self, add_zero]
      rfl
  | cons call calls ih =>
      obtain ⟨hrecorded, hraised⟩ := h call List.mem_cons_self
      rw [collect_cons run hrecorded hraised,
        ih fun other hother => h other (List.mem_cons_of_mem call hother)]
      have hcost := costMicros_add collection (run.voteOutcome call)
      simp only [PipelineRun.collected, List.foldl_cons, hcost]
      congr 2
      omega

/-- Votes that do not settle end the run; what was paid until then is not charged. -/
theorem collect_unsettled (hscreen : run.marketScreen = none) {calls : List VoteCall}
    (h : ¬ run.votesSettle calls) (collection : VoteCollection) (s : PipelineState) :
    ∃ e s' paid, (collectProviderForecasts run calls collection).run s = .error e s' ∧
      0 ≤ paid ∧ Spends s s' paid 0 := by
  induction calls generalizing collection s with
  | nil => exact absurd (fun call hcall => absurd hcall List.not_mem_nil) h
  | cons call calls ih =>
      by_cases hsettles : call.recorded = true ∧ ∀ text, run.voteOutcome call ≠ .raised text
      · have hrest : ¬ run.votesSettle calls := fun hrest => h fun other hother => by
          rcases List.mem_cons.mp hother with rfl | hother
          · exact hsettles
          · exact hrest other hother
        rw [collect_cons run hsettles.1 hsettles.2]
        obtain ⟨e, s', paid, hrun, hpaid, hspends⟩ := ih hrest
          (collection.add (run.voteOutcome call))
          { s with incurredMicros := s.incurredMicros + (run.voteOutcome call).costMicros }
        have hnonneg := voteOutcome_cost_nonneg run hscreen call
        refine ⟨e, s', _, hrun, ?_, (spends_incur _ s).trans hspends⟩
        omega
      · -- the first vote that does not settle: it raises, or its events do
        have hnonneg := voteOutcome_cost_nonneg run hscreen call
        rw [collectProviderForecasts]
        cases houtcome : run.voteOutcome call with
        | raised text => exact ⟨_, s, 0, rfl, le_refl 0, Spends.refl s⟩
        | _ =>
            have hunrecorded : ¬ call.recorded = true := fun hrecorded =>
              hsettles ⟨hrecorded, fun text => by rw [houtcome]; exact nofun⟩
            rw [houtcome] at hnonneg
            dsimp only
            rw [EStateM.run_bind, incur_run]
            dsimp only
            rw [EStateM.run_bind, voteRecord_run, if_neg hunrecorded]
            exact ⟨_, _, _, rfl, hnonneg, spends_incur _ s⟩

end Votes

/-! ## Records -/

section Records

variable {run : PipelineRun} {record : ForecastRecord}

theorem recordInstant_ok {createdAt : UtcInstant} (h : recordInstant run = .ok createdAt) :
    run.createdAt = some createdAt := by
  rw [recordInstant] at h
  cases hcreated : run.createdAt with
  | none =>
      rw [hcreated] at h
      cases h
  | some instant =>
      rw [hcreated] at h
      cases h
      rfl

/-- A record of a full run: where it comes from, and what it states. -/
structure FullRecord (run : PipelineRun) (record : ForecastRecord) : Prop where
  cost : record.researchCostMicros = researchCostMicros
  stage : record.triageStage = .full
  createdAt : run.createdAt = some record.createdAt

theorem buildAbstentionRecord_ok {citations : List Citation} {reason : AbstentionReason}
    (h : buildAbstentionRecord run citations reason = .ok record) :
    FullRecord run record ∧ record.eligibleForLive = false := by
  obtain ⟨createdAt, hinstant, h⟩ := Effects.except_bind_ok.mp h
  obtain ⟨-, -, h⟩ := Effects.except_bind_ok.mp h
  cases h
  exact ⟨⟨rfl, rfl, recordInstant_ok hinstant⟩, rfl⟩

theorem aggregateIntoRecord_ok {collection : VoteCollection} {citations : List Citation}
    {verifiedCount : ℤ}
    (h : aggregateIntoRecord run collection citations verifiedCount = .ok record) :
    FullRecord run record ∧ record.modelVotes = collection.modelVotes ∧
      fullRunEligibleForLive run collection.modelVotes record.createdAt verifiedCount =
        .ok record.eligibleForLive := by
  obtain ⟨createdAt, hinstant, h⟩ := Effects.except_bind_ok.mp h
  obtain ⟨-, -, h⟩ := Effects.except_bind_ok.mp h
  obtain ⟨eligible, heligible, h⟩ := Effects.except_bind_ok.mp h
  obtain ⟨-, -, h⟩ := Effects.except_bind_ok.mp h
  cases h
  exact ⟨⟨rfl, rfl, recordInstant_ok hinstant⟩, rfl, heligible⟩

theorem recordOfVotes_ok {collection : VoteCollection} {citations : List Citation}
    {verifiedCount : ℤ}
    (h : recordOfVotes run collection citations verifiedCount = .ok record) :
    FullRecord run record := by
  rw [recordOfVotes] at h
  cases hshort : collection.shortfall run.minEnsembleVotes with
  | some reason =>
      rw [hshort] at h
      exact (buildAbstentionRecord_ok h).1
  | none =>
      rw [hshort] at h
      exact (aggregateIntoRecord_ok h).1

end Records

/-! ## Runs

Where a run ends, and what it has incurred and charged by then.
-/

section Runs

variable {run : PipelineRun} {budget : ResearchBudget} (hbudget : run.budget = some budget)
  (s : PipelineState)

/-- Does a run get as far as its research? -/
def PipelineRun.entersResearch (run : PipelineRun) (budget : ResearchBudget)
    (books : BudgetBooks) : Bool :=
  decide (1 ≤ run.minEnsembleVotes) && run.marketScreen.isNone &&
    budget.dayOpen run.createdAt books

include hbudget

theorem openBudgetDay_run :
    (openBudgetDay run).run s =
      match (callBudget (budget.ensureDayOpen (run.createdAt.map UtcInstant.date))).run s with
      | .ok _ s' => .ok (some budget.maxPages) s'
      | .error e s' => .error e s' := by
  rw [openBudgetDay, hbudget]
  dsimp only
  rw [EStateM.run_bind]
  cases (callBudget (budget.ensureDayOpen (run.createdAt.map UtcInstant.date))).run s <;> rfl

/-- A run that is refused pays for nothing. -/
theorem runPipeline_refused (h : ¬ run.entersResearch budget s.books = true) :
    ∃ e s', (runPipeline run).run s = .error e s' ∧ Spends s s' 0 0 := by
  rw [runPipeline]
  by_cases hvotes : run.minEnsembleVotes < 1
  · rw [if_pos hvotes]
    exact ⟨_, s, rfl, Spends.refl s⟩
  · rw [if_neg hvotes]
    cases hscreen : run.marketScreen with
    | some error => exact ⟨_, s, rfl, Spends.refl s⟩
    | none =>
        have hclosed : ¬ budget.dayOpen run.createdAt s.books = true := fun hopen => h (by
          rw [PipelineRun.entersResearch, decide_eq_true (not_lt.mp hvotes), hscreen, hopen]
          rfl)
        obtain ⟨e, s', hday, hspends⟩ := ensureDayOpen_closed budget s hclosed
        refine ⟨e, s', ?_, hspends⟩
        dsimp only
        rw [EStateM.run_bind, openBudgetDay_run hbudget, hday]

/-- A run that is not refused researches. -/
theorem runPipeline_entered (h : run.entersResearch budget s.books = true) :
    (runPipeline run).run s = (researchAndVote run (some budget.maxPages)).run s := by
  rw [PipelineRun.entersResearch, Bool.and_eq_true, Bool.and_eq_true, decide_eq_true_eq,
    Option.isNone_iff_eq_none] at h
  obtain ⟨⟨hvotes, hscreen⟩, hopen⟩ := h
  rw [runPipeline, if_neg (not_lt.mpr hvotes), hscreen]
  dsimp only
  rw [EStateM.run_bind, openBudgetDay_run hbudget, ensureDayOpen_open budget s hopen]

omit hbudget in
/-- Research that raises is paid for and not charged. -/
theorem research_lost {maxPages : Option ℤ} {e : PipelineError}
    (h : gatherEvidence run maxPages = .error e) :
    (researchAndVote run maxPages).run s =
      .error e { s with incurredMicros := s.incurredMicros + researchCostMicros } := by
  rw [researchAndVote, EStateM.run_bind, incur_run]
  dsimp only
  rw [EStateM.run_bind, ofExcept_run, h]

omit hbudget in
theorem research_found {maxPages : Option ℤ} {citations : List Citation} {verifiedCount : ℤ}
    (h : gatherEvidence run maxPages = .ok (citations, verifiedCount)) :
    (researchAndVote run maxPages).run s =
      (if verifiedCount = 0 then do
          chargeResearch run researchCostMicros
          ofExcept (buildAbstentionRecord run citations .noVerifiedCitations)
        else voteAndAggregate run citations verifiedCount).run
        { s with incurredMicros := s.incurredMicros + researchCostMicros } := by
  rw [researchAndVote, EStateM.run_bind, incur_run]
  dsimp only
  rw [EStateM.run_bind, ofExcept_run, h]

/-- A charge and then a record: the charge is booked whatever comes after it, and a record comes
exactly when the charge is within the ceiling and the record can be built. -/
theorem charge_then_record {instant : UtcInstant} (hinstant : run.createdAt = some instant)
    {costMicros : ℤ} (hcost : 0 ≤ costMicros) (built : Except PipelineError ForecastRecord) :
    ∃ s', Spends s s' 0 costMicros ∧
      ((budget.alreadyChargedMicros + costMicros ≤ budget.perForecastMicros ∧
          ∃ record, built = .ok record ∧
            (chargeResearch run costMicros >>= fun _ => ofExcept built).run s = .ok record s') ∨
        (¬ (budget.alreadyChargedMicros + costMicros ≤ budget.perForecastMicros ∧
            built.isOk = true) ∧
          ∃ e, (chargeResearch run costMicros >>= fun _ => ofExcept built).run s = .error e s')) := by
  rw [EStateM.run_bind, chargeResearch, hbudget, hinstant]
  dsimp only [Option.map_some]
  by_cases hwithin : budget.alreadyChargedMicros + costMicros ≤ budget.perForecastMicros
  · rw [charge_within budget _ _ s hcost hwithin]
    dsimp only
    refine ⟨_, spends_charged run.marketTicker instant.date s, ?_⟩
    rw [ofExcept_run]
    cases built with
    | ok record => exact .inl ⟨hwithin, record, rfl, rfl⟩
    | error e => exact .inr ⟨fun h => (nomatch h.2), e, rfl⟩
  · obtain ⟨e, s', hrun, hspends⟩ := charge_over budget run.marketTicker instant.date s hcost
      (not_le.mp hwithin)
    rw [hrun]
    exact ⟨s', hspends, .inr ⟨fun h => hwithin h.1, e, rfl⟩⟩

end Runs

end Windbreak
