import Windbreak.Core.OrderedDict

/-!
# The inputs of an evaluation

Forecasts to score, the outcomes of the markets that settled, the temporal coordinates that the
forecasts are gated against and the live fills.
-/

namespace Windbreak

/-- How a binary market settled. -/
inductive ResolutionOutcome where
  | yes
  | no
  deriving DecidableEq, Repr

/-- `repr` of an outcome. -/
def ResolutionOutcome.shown : Option ResolutionOutcome → String
  | none => "None"
  | some .yes => "<ResolutionOutcome.YES: 'yes'>"
  | some .no => "<ResolutionOutcome.NO: 'no'>"

/-- A character of a `repr` between such quotes. -/
def escapedChar (quote c : Char) : List Char :=
  if c = quote ∨ c = '\\' then ['\\', c]
  else if c = '\t' then ['\\', 't']
  else if c = '\n' then ['\\', 'n']
  else if c = '\r' then ['\\', 'r']
  else if c.toNat < 32 ∨ c.toNat = 127 then
    ['\\', 'x', Nat.digitChar (c.toNat / 16), Nat.digitChar (c.toNat % 16)]
  else [c]

/-- `repr` of a text.  Outside ASCII every character passes for a printable one. -/
def shownText (text : String) : String :=
  let apostrophe := Char.ofNat 39
  let quote := if apostrophe ∈ text.toList ∧ '"' ∉ text.toList then '"' else apostrophe
  String.ofList (quote :: text.toList.flatMap (escapedChar quote) ++ [quote])

example : shownText "KX\n" = "'KX\\n'" := by decide

/-- A forecast to score; its sequence is that of the ledger row it was recorded in. -/
structure FixtureForecast where
  forecastId : String
  marketTicker : String
  probabilityPpm : ℤ
  eligibleForLive : Bool
  abstentionReason : Option String
  traded : Bool
  baselineExecutablePricePips : ℤ
  createdSequence : Option ℤ
  live : Bool
  probability_ppm : 0 ≤ probabilityPpm ∧ probabilityPpm ≤ 1000000
  deriving DecidableEq

/-- A live fill against the cost that the paper model gives it. -/
structure ExecutionQualityRecord where
  actualCostMicros : ℤ
  modeledCostMicros : ℤ
  modelVersion : String
  createdSequence : ℤ
  deriving DecidableEq, Repr

/-- The coordinates that one evaluation gates its forecasts against. -/
structure TemporalContext where
  deploymentSequence : ℤ
  resolutionSequences : OrderedDict String ℤ
  deriving DecidableEq

/-- What one evaluation scores. -/
structure EvaluationInputs where
  forecasts : List FixtureForecast
  resolutions : OrderedDict String ResolutionOutcome
  temporal : Option TemporalContext
  executionRecords : List ExecutionQualityRecord
  deriving DecidableEq

end Windbreak
