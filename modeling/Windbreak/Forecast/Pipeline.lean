import Windbreak.Forecast.Budget
import Windbreak.Forecast.Canary
import Windbreak.Forecast.Providers

/-!
# The forecast pipeline

One run researches a market, verifies what it found, asks an ensemble for votes, charges the budget
and builds a record, which may back a live order only if every gate is open.

The web, the providers and the ledger are outside: `PipelineRun` holds the arguments of a run and
what its calls find.  `incurredMicros` is not in the source: it adds up what the calls that were
made cost, so that what the budget is charged can be compared with it.
-/

namespace Windbreak

open Calendar (UtcDate)

/-! ## Records -/

/-- An instant, in microseconds since the epoch, with its UTC date. -/
structure UtcInstant where
  micros : ℤ
  date : UtcDate
  deriving DecidableEq, Repr

/-- How far a record's run went. -/
inductive TriageStage where
  | triageOnly
  | full
  deriving DecidableEq, Repr

/-- Why a full run declines to stand behind an estimate. -/
inductive AbstentionReason where
  | noVerifiedCitations
  | ensembleMembersAbstained
  | providerUnavailable
  | allVotesDiscarded
  | ensembleQuorumNotMet
  deriving DecidableEq, Repr

/-- A citation that research found. -/
structure Citation where
  url : String
  content : String
  deriving DecidableEq, Repr

/-- One vote of the ensemble. -/
structure ModelVote where
  provider : String
  modelVersion : String
  declaredTrainingCutoff : String
  probabilityPpm : ℤ
  responseFingerprint : String
  deriving DecidableEq, Repr

/-- A forecast record; a triage-only, incoherent or abstaining one cannot be live-eligible. -/
structure ForecastRecord where
  marketTicker : String
  modelVotes : List ModelVote
  citations : List Citation
  researchCostMicros : ℤ
  triageStage : TriageStage
  createdAt : UtcInstant
  coherenceGroupSumPpm : Option ℤ
  abstentionReason : Option AbstentionReason
  eligibleForLive : Bool
  live_full : eligibleForLive = true →
    triageStage = .full ∧ coherenceGroupSumPpm = none ∧ abstentionReason = none
  deriving DecidableEq

/-! ## A run and what it finds -/

/-- What a search returns or raises. -/
inductive SearchOutcome where
  | found (urls : List String)
  | raised (text : String)
  deriving DecidableEq, Repr

/-- What a fetch returns or raises. -/
inductive FetchOutcome where
  | content (text : String)
  | unreachable
  | egressDenied
  | raised (text : String)
  deriving DecidableEq, Repr

/-- What the verification of a citation returns or raises. -/
inductive VerifyOutcome where
  | verdict (verified : Bool)
  | raised (text : String)
  deriving DecidableEq, Repr

/-- What a vote is billed. -/
def VoteOutcome.costMicros : VoteOutcome → ℤ
  | .returned forecast => forecast.costMicros
  | .failed error => error.costMicros
  | .raised _ => 0

/-- One vote: what the provider does, and whether the ledger takes the events about it.  No provider
bills a negative cost. -/
structure VoteCall where
  outcome : VoteOutcome
  recorded : Bool
  cost_nonneg : 0 ≤ outcome.costMicros
  deriving DecidableEq

/-- What a run raises. -/
inductive PipelineError where
  | value (text : String)
  | metadataRejected (error : ProviderVoteError)
  | budget (error : BudgetError)
  | egressDenied (url : String)
  | temporalIntegrity
  | ledger
  | raised (text : String)
  deriving DecidableEq, Repr

/-- What the calls of a run find: by subquestion, by citation, and by member of the ensemble. -/
structure OutsideCalls where
  search : ℕ → SearchOutcome
  fetch : ℕ → FetchOutcome
  verify : ℕ → VerifyOutcome
  votes : List VoteCall
  /-- Does the ledger take the events of the aggregation, where there are any? -/
  aggregationRecorded : Bool

/-- The arguments of a run, and what its calls find. -/
structure PipelineRun where
  marketTicker : String
  /-- What the screen of the market's own text raises. -/
  marketScreen : Option ProviderVoteError
  createdAt : Option UtcInstant
  minVerifiedCitations : ℤ
  minEnsembleVotes : ℤ
  budget : Option ResearchBudget
  canaryGate : Option CanaryGate
  /-- The instant a wired calibration map is trained at. -/
  calibrationTrainedAt : Option ℤ
  /-- Which providers a wired track-record gate holds to be proven. -/
  providerGate : Option (String → Bool)
  outside : OutsideCalls

/-- The books of the process, and what the calls made so far cost. -/
structure PipelineState where
  books : BudgetBooks
  incurredMicros : ℤ

/-- A pipeline call. -/
abbrev PipelineM := EStateM PipelineError PipelineState

/-- A paid call is made. -/
def incur (costMicros : ℤ) : PipelineM Unit :=
  modify fun s => { s with incurredMicros := s.incurredMicros + costMicros }

/-- A call of the budget. -/
def callBudget {α : Type} (call : BudgetM α) : PipelineM α := fun s =>
  match call.run s.books with
  | .ok a books => .ok a { s with books := books }
  | .error e books => .error (.budget e) { s with books := books }

/-- What a pure stage returns or raises. -/
def ofExcept {α : Type} : Except PipelineError α → PipelineM α
  | .ok a => return a
  | .error e => throw e

/-! ## Research -/

/-- The fixed charge for the searches and fetches of one full run. -/
def researchCostMicros : ℤ := 3000000

/-- The number of subquestions of a market. -/
def subquestionCount : ℕ := 3

/-- Has the run fetched as many pages as it may? -/
def pageBudgetReached (maxPages : Option ℤ) (pagesFetched : ℤ) : Bool :=
  maxPages.any fun limit => decide (limit ≤ pagesFetched)

/-- Search and fetch for the remaining subquestions. -/
def researchFrom (run : PipelineRun) (maxPages : Option ℤ) :
    List ℕ → ℤ → List Citation → Except PipelineError (List Citation)
  | [], _, citations => .ok citations
  | subquestion :: rest, pagesFetched, citations =>
    if pageBudgetReached maxPages pagesFetched then .ok citations
    else
      match run.outside.search subquestion with
      | .raised text => .error (.raised text)
      | .found [] => researchFrom run maxPages rest pagesFetched citations
      | .found (url :: _) =>
        match run.outside.fetch subquestion with
        | .unreachable => researchFrom run maxPages rest (pagesFetched + 1) citations
        | .content text =>
          researchFrom run maxPages rest (pagesFetched + 1) (citations ++ [⟨url, text⟩])
        | .egressDenied => .error (.egressDenied url)
        | .raised text => .error (.raised text)

/-- Gather citations, up to the page budget. -/
def boundedWebResearch (run : PipelineRun) (maxPages : Option ℤ) :
    Except PipelineError (List Citation) :=
  if maxPages.any fun limit => decide (limit < 0) then
    .error (.value "max_pages must be non-negative or None")
  else researchFrom run maxPages (List.range subquestionCount) 0 []

/-- Verify citations, the first of them with number `number`; the answer counts the verified. -/
def countVerified (run : PipelineRun) : ℕ → List Citation → Except PipelineError ℤ
  | _, [] => .ok 0
  | number, _ :: rest =>
    match run.outside.verify number with
    | .raised text => .error (.raised text)
    | .verdict verified => do
      let count ← countVerified run (number + 1) rest
      return if verified then count + 1 else count

/-- The citations of a run, and how many of them verify. -/
def gatherEvidence (run : PipelineRun) (maxPages : Option ℤ) :
    Except PipelineError (List Citation × ℤ) := do
  let citations ← boundedWebResearch run maxPages
  let verifiedCount ← countVerified run 0 citations
  return (citations, verifiedCount)

/-! ## Votes -/

/-- What the vote stage collects. -/
structure VoteCollection where
  forecasts : List ProviderForecast
  discardedCostMicros : ℤ
  discardTransportFlags : List Bool
  deriving DecidableEq

/-- Nothing collected yet. -/
def VoteCollection.empty : VoteCollection := ⟨[], 0, []⟩

/-- The cost of everything collected. -/
def VoteCollection.costMicros (collection : VoteCollection) : ℤ :=
  (collection.forecasts.map ProviderForecast.costMicros).sum + collection.discardedCostMicros

/-- The collection with a forecast more. -/
def VoteCollection.keep (collection : VoteCollection) (forecast : ProviderForecast) :
    VoteCollection :=
  { collection with forecasts := collection.forecasts ++ [forecast] }

/-- The collection with a discarded vote more. -/
def VoteCollection.discard (collection : VoteCollection) (failed : ProviderVoteError) :
    VoteCollection :=
  { collection with
    discardedCostMicros := collection.discardedCostMicros + failed.costMicros
    discardTransportFlags := collection.discardTransportFlags ++ [isTransportFailure failed] }

/-- What a vote comes to: the market is screened again before the provider is asked. -/
def PipelineRun.voteOutcome (run : PipelineRun) (call : VoteCall) : VoteOutcome :=
  match run.marketScreen with
  | some error => .failed error
  | none => call.outcome

/-- The ledger takes the events about a vote, or raises. -/
def VoteCall.record (call : VoteCall) : PipelineM Unit :=
  if call.recorded then return () else throw .ledger

/-- Drive the providers.  A vote that fails is discarded; anything else that is raised ends the run. -/
def collectProviderForecasts (run : PipelineRun) :
    List VoteCall → VoteCollection → PipelineM VoteCollection
  | [], collection => return collection
  | call :: calls, collection =>
    match run.voteOutcome call with
    | .raised text => throw (.raised text)
    | .failed failed => do
      incur failed.costMicros
      call.record
      collectProviderForecasts run calls (collection.discard failed)
    | .returned forecast => do
      incur forecast.costMicros
      call.record
      collectProviderForecasts run calls (collection.keep forecast)

/-- The vote of a forecast. -/
def buildModelVote (forecast : ProviderForecast) : ModelVote :=
  ⟨forecast.provider, forecast.modelVersion, forecast.trainingCutoff, forecast.probabilityPpm,
    forecast.responseFingerprint⟩

/-- The forecasts that vote. -/
def votingForecasts (forecasts : List ProviderForecast) : List ProviderForecast :=
  forecasts.filter fun forecast => !forecast.abstain

/-- Were there discards, all of them faults of the transport? -/
def allTransportDiscards (flags : List Bool) : Bool := !flags.isEmpty && flags.all id

/-- Why there are too few votes. -/
def voteShortfallReason (voteCount minEnsembleVotes : ℤ) (discardTransportFlags : List Bool)
    (abstainCount : ℤ) : Option AbstentionReason :=
  if minEnsembleVotes ≤ voteCount then none
  else if 0 < abstainCount then some .ensembleMembersAbstained
  else if voteCount = 0 then
    if allTransportDiscards discardTransportFlags then some .providerUnavailable
    else some .allVotesDiscarded
  else some .ensembleQuorumNotMet

/-- The shortfall of a collection. -/
def VoteCollection.shortfall (collection : VoteCollection) (minEnsembleVotes : ℤ) :
    Option AbstentionReason :=
  voteShortfallReason (votingForecasts collection.forecasts).length minEnsembleVotes
    collection.discardTransportFlags
    (collection.forecasts.length - (votingForecasts collection.forecasts).length)

/-! ## The record -/

/-- The refusal of an instant without an offset. -/
def naiveInstantError : PipelineError := .value "created_at must be timezone-aware"

/-- The instant of a record has an offset. -/
def recordInstant (run : PipelineRun) : Except PipelineError UtcInstant :=
  match run.createdAt with
  | none => .error naiveInstantError
  | some createdAt => .ok createdAt

/-- A record names a market. -/
def requireTicker (run : PipelineRun) : Except PipelineError Unit :=
  if run.marketTicker = "" then .error (.value "market_ticker must be non-empty") else .ok ()

/-- The record of a run that abstains. -/
def buildAbstentionRecord (run : PipelineRun) (citations : List Citation)
    (reason : AbstentionReason) : Except PipelineError ForecastRecord := do
  let createdAt ← recordInstant run
  requireTicker run
  return {
    marketTicker := run.marketTicker
    modelVotes := []
    citations := citations
    researchCostMicros := researchCostMicros
    triageStage := .full
    createdAt := createdAt
    coherenceGroupSumPpm := none
    abstentionReason := some reason
    eligibleForLive := false
    live_full := nofun }

/-- Does the canary gate permit live eligibility?  The gate is asked about no provider. -/
def liveGateOpen (canaryGate : Option CanaryGate) (createdAt : UtcInstant) : Bool :=
  canaryGate.all fun gate => !gate.isLiveBlocked createdAt.micros none

/-- Is every voting provider proven? -/
def providerGateOpen (providerGate : Option (String → Bool)) (votes : List ModelVote) : Bool :=
  providerGate.all fun isProven => votes.all fun vote => isProven vote.provider

/-- The invariants of a live-eligible record; a negative threshold is refused. -/
def isLiveEligible (verifiedCount minVerifiedCitations : ℤ) (triageStage : TriageStage)
    (coherenceFlag : Bool) (abstentionReason : Option AbstentionReason) :
    Except PipelineError Bool :=
  if minVerifiedCitations < 0 then
    .error (.value "min_verified_citations must be non-negative")
  else
    .ok (!(decide (triageStage = .triageOnly) || coherenceFlag || abstentionReason.isSome ||
      decide (verifiedCount < minVerifiedCitations)))

/-- A market of the first version stands alone, so its group has no sum. -/
def normalizeCoherence (_run : PipelineRun) : Option ℤ := none

/-- May a full run back a live order?  The invariants are only looked at when the gates are open. -/
def fullRunEligibleForLive (run : PipelineRun) (votes : List ModelVote) (createdAt : UtcInstant)
    (verifiedCount : ℤ) : Except PipelineError Bool :=
  if liveGateOpen run.canaryGate createdAt && providerGateOpen run.providerGate votes then
    isLiveEligible verifiedCount run.minVerifiedCitations .full (normalizeCoherence run).isSome none
  else .ok false

/-- The votes of a collection. -/
def VoteCollection.modelVotes (collection : VoteCollection) : List ModelVote :=
  (votingForecasts collection.forecasts).map buildModelVote

/-- The aggregation ledgers a calibration, and a hold of the provider gate. -/
def aggregationWrites (run : PipelineRun) (collection : VoteCollection) : Bool :=
  run.calibrationTrainedAt.isSome || !providerGateOpen run.providerGate collection.modelVotes

/-- A calibration map must not be younger than the forecast, and the ledger must take what the
aggregation writes. -/
def requireAggregation (run : PipelineRun) (collection : VoteCollection) (createdAt : UtcInstant) :
    Except PipelineError Unit :=
  if run.calibrationTrainedAt.any fun trained => decide (createdAt.micros < trained) then
    .error .temporalIntegrity
  else if aggregationWrites run collection && !run.outside.aggregationRecorded then .error .ledger
  else .ok ()

/-- Build the record of a run whose votes suffice. -/
def aggregateIntoRecord (run : PipelineRun) (collection : VoteCollection)
    (citations : List Citation) (verifiedCount : ℤ) : Except PipelineError ForecastRecord := do
  let createdAt ← recordInstant run
  requireAggregation run collection createdAt
  let eligible ← fullRunEligibleForLive run collection.modelVotes createdAt verifiedCount
  requireTicker run
  return {
    marketTicker := run.marketTicker
    modelVotes := collection.modelVotes
    citations := citations
    researchCostMicros := researchCostMicros
    triageStage := .full
    createdAt := createdAt
    coherenceGroupSumPpm := normalizeCoherence run
    abstentionReason := none
    eligibleForLive := eligible
    live_full := fun _ => ⟨rfl, rfl, rfl⟩ }

/-- The record of a run with verified evidence, whether its votes suffice or not. -/
def recordOfVotes (run : PipelineRun) (collection : VoteCollection) (citations : List Citation)
    (verifiedCount : ℤ) : Except PipelineError ForecastRecord :=
  match collection.shortfall run.minEnsembleVotes with
  | some reason => buildAbstentionRecord run citations reason
  | none => aggregateIntoRecord run collection citations verifiedCount

/-! ## The run -/

/-- Charge a run, when a budget is wired. -/
def chargeResearch (run : PipelineRun) (costMicros : ℤ) : PipelineM Unit :=
  match run.budget with
  | none => return ()
  | some budget => callBudget
      (budget.chargeForecast costMicros run.marketTicker (run.createdAt.map UtcInstant.date))

/-- Open the day of the budget; the answer bounds the fetches. -/
def openBudgetDay (run : PipelineRun) : PipelineM (Option ℤ) :=
  match run.budget with
  | none => return none
  | some budget => do
    callBudget (budget.ensureDayOpen (run.createdAt.map UtcInstant.date))
    return some budget.maxPages

/-- The vote stage of a run with verified evidence, and the record. -/
def voteAndAggregate (run : PipelineRun) (citations : List Citation) (verifiedCount : ℤ) :
    PipelineM ForecastRecord := do
  let collection ← collectProviderForecasts run run.outside.votes .empty
  chargeResearch run (researchCostMicros + collection.costMicros)
  ofExcept (recordOfVotes run collection citations verifiedCount)

/-- A run from its research on. -/
def researchAndVote (run : PipelineRun) (maxPages : Option ℤ) : PipelineM ForecastRecord := do
  incur researchCostMicros
  let (citations, verifiedCount) ← ofExcept (gatherEvidence run maxPages)
  if verifiedCount = 0 then do
    chargeResearch run researchCostMicros
    ofExcept (buildAbstentionRecord run citations .noVerifiedCitations)
  else voteAndAggregate run citations verifiedCount

/-- Run the pipeline. -/
def runPipeline (run : PipelineRun) : PipelineM ForecastRecord := do
  if run.minEnsembleVotes < 1 then throw (.value "min_ensemble_votes must be at least 1")
  else
    match run.marketScreen with
    | some error => throw (.metadataRejected error)
    | none => do
      let maxPages ← openBudgetDay run
      researchAndVote run maxPages

end Windbreak
