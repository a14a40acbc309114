import Mathlib.Logic.Function.Basic
import Windbreak.Core.TextLines
import Windbreak.Evaluation.Corrections

/-!
# The operator's verbs

An operator records how a market settled, or corrects what was recorded.  Each invocation is a
process of its own: it reads the whole ledger and checks its row against it, and only then appends
the row.  Between the two, other invocations and the trading loop may append rows of their own.

`foldRow_ready_iff` says when the row of a checked invocation is still accepted as it is appended;
`ledger_foldable_iff` is the law over runs.
-/

namespace Windbreak

/-! ## Commands -/

/-- The arguments of an invocation. -/
inductive VerbArguments where
  | ingestResolution (marketTicker : String) (outcome : ResolutionOutcome) (resolvedAt : CreatedAt)
      (source : String)
  | correctResolution (marketTicker : String) (supersededSequenceNumber : ℤ)
      (outcome : ResolutionOutcome) (resolvedAt : CreatedAt) (source : String)
  deriving DecidableEq, Repr

/-- The row that an invocation is about to append. -/
inductive ResolutionCommand where
  | ingest (resolution : IngestedResolution)
  | correct (correction : PersistedCorrection)
  deriving DecidableEq, Repr

/-- Why an invocation is refused. -/
inductive VerbRefusal where
  | invalid (text : String)
  | unfoldable (marketTicker : String) (error : EvaluationError)
  | conflicting (existing candidate : IngestedResolution) (target : ℤ)
  | noResolution (marketTicker : String)
  | wrongTarget (named target : ℤ) (current : IngestedResolution)
  | noOp (target : ℤ) (claim : IngestedResolution)
  deriving DecidableEq, Repr

/-- The settlement instant that an operator typed. -/
def parseResolutionInstant : CreatedAt → Except VerbRefusal ℤ
  | .aware micros => .ok micros
  | .offsetless iso => .error (.invalid (naiveInstantText "resolved_at" iso))
  | .unparseable text =>
    .error (.invalid s!"resolved_at is not an ISO-8601 instant: {text} (expected e.g. 2026-03-01T12:00:00+00:00)")

/-- The row of a settlement, which names a market and a source. -/
def newMarketResolved (marketTicker : String) (outcome : ResolutionOutcome) (resolvedAt : ℤ)
    (source : String) : Except VerbRefusal ResolutionCommand :=
  if TextLines.isBlank marketTicker.toList then
    .error (.invalid "market_ticker must be a non-blank market identifier; a resolution naming no market can never join to a forecast")
  else if TextLines.isBlank source.toList then
    .error (.invalid "source must be a non-blank provenance label; an outcome nothing attributes is unprovable evidence and is refused rather than ingested")
  else .ok (.ingest ⟨marketTicker, outcome, resolvedAt, source⟩)

/-- The row of a correction, which names a market, a source and a position to supersede. -/
def newSettlementReversed (marketTicker : String) (supersededSequenceNumber : ℤ)
    (outcome : ResolutionOutcome) (resolvedAt : ℤ) (source : String) :
    Except VerbRefusal ResolutionCommand :=
  if supersededSequenceNumber < 1 then
    .error (.invalid s!"superseded_sequence_number must be a positive ledger position, got {supersededSequenceNumber}; ledger sequence numbers start at 1, so this names no row at all")
  else if TextLines.isBlank marketTicker.toList then
    .error (.invalid "market_ticker must be a non-blank market identifier; a correction naming no market can never join to a resolution")
  else if TextLines.isBlank source.toList then
    .error (.invalid "source must be a non-blank provenance label; a correction nothing attributes cannot be audited, and overturning a settled outcome is the one act on this ledger that most needs to be")
  else .ok (.correct ⟨supersededSequenceNumber, ⟨marketTicker, outcome, resolvedAt, source⟩⟩)

/-- The row that the arguments ask for. -/
def commandOf : VerbArguments → Except VerbRefusal ResolutionCommand
  | .ingestResolution marketTicker outcome resolvedAt source => do
    let instant ← parseResolutionInstant resolvedAt
    newMarketResolved marketTicker outcome instant source
  | .correctResolution marketTicker superseded outcome resolvedAt source => do
    let instant ← parseResolutionInstant resolvedAt
    newSettlementReversed marketTicker superseded outcome instant source

/-- The claim that a command makes. -/
def ResolutionCommand.claimed : ResolutionCommand → IngestedResolution
  | .ingest resolution => resolution
  | .correct correction => correction.claim

/-- The market that a command is about. -/
def ResolutionCommand.marketTicker (command : ResolutionCommand) : String :=
  command.claimed.marketTicker

/-- What the fold reads of a command's row. -/
def ResolutionCommand.event : ResolutionCommand → EvaluationEvent
  | .ingest resolution => .marketResolved (.ok resolution)
  | .correct correction => .settlementReversed (.ok correction)

/-! ## The checks -/

/-- Check an ingest against the claims: it may repeat the claim of its market, not contradict it. -/
def conflictingIngestRefusal (claims : Claims) (candidate : IngestedResolution) :
    Option VerbRefusal :=
  match claims.get? candidate.marketTicker with
  | none => none
  | some existing =>
    if resolutionsConflict existing.resolution candidate then
      some (.conflicting existing.resolution candidate existing.sequenceNumber)
    else none

/-- Check a correction against the claims: it names the row that carries the claim of its market, and
changes it. -/
def correctionRefusal (claims : Claims) (correction : PersistedCorrection) : Option VerbRefusal :=
  match claims.get? correction.claim.marketTicker with
  | none => some (.noResolution correction.claim.marketTicker)
  | some current =>
    if current.sequenceNumber ≠ correction.supersededSequenceNumber then
      some (.wrongTarget correction.supersededSequenceNumber current.sequenceNumber
        current.resolution)
    else if resolutionsConflict current.resolution correction.claim = false then
      some (.noOp current.sequenceNumber correction.claim)
    else none

/-- Read the ledger and check a command against it; the claim of its market is what it saw. -/
def checkCommand (rows : List EvaluationRow) (command : ResolutionCommand) :
    Except VerbRefusal (Option MarketClaim) :=
  match foldResolutions rows with
  | .error error => .error (.unfoldable command.marketTicker error)
  | .ok claims =>
    let refusal :=
      match command with
      | .ingest resolution => conflictingIngestRefusal claims resolution
      | .correct correction => correctionRefusal claims correction
    match refusal with
    | some refusal => .error refusal
    | none => .ok (claims.get? command.marketTicker)

/-! ## Processes -/

/-- The position that the next row takes. -/
def nextPosition (rows : List EvaluationRow) : ℤ :=
  match rows.getLast? with
  | none => 1
  | some last => last.sequenceNumber + 1

/-- Append a row to the ledger. -/
def appendRow (rows : List EvaluationRow) (createdAt : CreatedAt) (event : EvaluationEvent) :
    List EvaluationRow :=
  rows ++ [⟨nextPosition rows, createdAt, event⟩]

/-- How far an invocation is. -/
inductive InvocationPhase where
  | idle
  | checked (command : ResolutionCommand) (seen : Option MarketClaim)
  | accepted (sequenceNumber : ℤ)
  | refused (refusal : VerbRefusal)
  | failed
  deriving DecidableEq, Repr

/-- The ledger, the invocations and, in the order of their rows, the commands accepted. -/
structure VerbState (ι : Type) where
  rows : List EvaluationRow
  phases : ι → InvocationPhase
  acceptedCommands : List (ι × ResolutionCommand)

/-- What happens next: an invocation reads and checks, appends its row or fails to, or the trading
loop appends a row that is about no settlement. -/
inductive VerbAction (ι : Type) where
  | check (invocation : ι)
  | append (invocation : ι) (createdAt : CreatedAt)
  | fail (invocation : ι)
  | loop (createdAt : CreatedAt) (event : EvaluationEvent)
      (other : event.isSettlement = false)

section Processes

variable {ι : Type} [DecidableEq ι]

/-- Nothing has happened. -/
def VerbState.init (rows : List EvaluationRow) : VerbState ι := ⟨rows, fun _ => .idle, []⟩

/-- One step; an action that an invocation is not ready for does nothing. -/
def verbStep (arguments : ι → VerbArguments) (s : VerbState ι) : VerbAction ι → VerbState ι
  | .check invocation =>
    match s.phases invocation with
    | .idle =>
      let outcome := do
        let command ← commandOf (arguments invocation)
        let seen ← checkCommand s.rows command
        return (command, seen)
      { s with
        phases := Function.update s.phases invocation <|
          match outcome with
          | .error refusal => .refused refusal
          | .ok (command, seen) => .checked command seen }
    | _ => s
  | .append invocation createdAt =>
    match s.phases invocation with
    | .checked command _ =>
      { rows := appendRow s.rows createdAt command.event
        phases := Function.update s.phases invocation (.accepted (nextPosition s.rows))
        acceptedCommands := s.acceptedCommands ++ [(invocation, command)] }
    | _ => s
  | .fail invocation =>
    match s.phases invocation with
    | .checked _ _ => { s with phases := Function.update s.phases invocation .failed }
    | _ => s
  | .loop createdAt event _ => { s with rows := appendRow s.rows createdAt event }

/-- A run, from a ledger and idle invocations. -/
def runVerbs (arguments : ι → VerbArguments) (rows : List EvaluationRow)
    (actions : List (VerbAction ι)) : VerbState ι :=
  actions.foldl (verbStep arguments) (.init rows)

end Processes

end Windbreak
