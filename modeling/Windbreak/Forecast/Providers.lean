import Windbreak.Core.OrderedDict
import Windbreak.Numeric.Rounding

/-!
# The provider seam

What one vote returns or raises across the seam between the forecast pipeline and a provider, and
the two price tables of a vote: list prices, which gate an attempt before its cost is known, and
token rates, which charge the attempt that succeeds.  The structures carry what their constructors
check.
-/

namespace Windbreak

/-! ## What a provider returns -/

/-- The token counts that a provider reports for a response. -/
structure TokenUsage where
  inputTokens : ℤ
  outputTokens : ℤ
  input_nonneg : 0 ≤ inputTokens
  output_nonneg : 0 ≤ outputTokens
  deriving DecidableEq

/-- The summed token counts. -/
def TokenUsage.totalTokens (usage : TokenUsage) : ℤ := usage.inputTokens + usage.outputTokens

/-- One forecast as it crosses the seam. -/
structure ProviderForecast where
  probabilityPpm : ℤ
  costMicros : ℤ
  provider : String
  modelVersion : String
  trainingCutoff : String
  responseFingerprint : String
  abstain : Bool
  usage : Option TokenUsage
  in_range : 0 ≤ probabilityPpm ∧ probabilityPpm ≤ 1000000

/-- The fields of a forecast. -/
def ProviderForecast.fields (forecast : ProviderForecast) :
    ℤ × ℤ × List String × Bool × Option TokenUsage :=
  (forecast.probabilityPpm, forecast.costMicros,
    [forecast.provider, forecast.modelVersion, forecast.trainingCutoff,
      forecast.responseFingerprint], forecast.abstain, forecast.usage)

theorem ProviderForecast.fields_eq_iff (a b : ProviderForecast) : a.fields = b.fields ↔ a = b := by
  cases a
  cases b
  simp only [ProviderForecast.fields, Prod.mk.injEq, List.cons.injEq, and_true, and_assoc,
    ProviderForecast.mk.injEq]

instance : DecidableEq ProviderForecast := fun a b => decidable_of_iff _ (a.fields_eq_iff b)

/-! ## What a provider raises -/

/-- The kinds of failure of a single vote. -/
inductive VoteFailure where
  | responseRejected
  | marketMetadataRejected
  | versionDrift
  | timeout
  | rateLimited (retryAfterSeconds : Option ℕ)
  | http (statusCode : ℤ)
  | malformedResponse
  | costOverrun (ceilingMicros : ℤ)
  | notRoutable
  deriving DecidableEq, Repr

/-- A failure of a single vote, which the pipeline can discard. -/
structure ProviderVoteError where
  kind : VoteFailure
  failureCode : String
  responseFingerprint : String
  costMicros : ℤ
  deriving DecidableEq, Repr

/-- The failure code of a cost overrun. -/
def providerFailureCostOverrun : String := "provider_cost_overrun"

/-- The fingerprint of a failure where no response ever existed. -/
def noResponseFingerprint : String := "no_response"

/-- The error of a vote that would cost more than its ceiling. -/
def providerCostOverrunError (costMicros ceilingMicros : ℤ) : ProviderVoteError where
  kind := .costOverrun ceilingMicros
  failureCode := providerFailureCostOverrun
  responseFingerprint := noResponseFingerprint
  costMicros := costMicros

/-- A status that a later attempt may clear. -/
def isRetryableStatus (statusCode : ℤ) : Bool :=
  if statusCode = 429 then true
  else decide (500 ≤ statusCode ∧ statusCode ≤ 599)

/-- A fault of the transport, as opposed to a refusal of what was received. -/
def isTransportFailure (error : ProviderVoteError) : Bool :=
  match error.kind with
  | .timeout => true
  | .rateLimited _ => true
  | .http statusCode => isRetryableStatus statusCode
  | _ => false

/-- What one call of a provider does: it returns, fails as a vote, or raises something else. -/
inductive VoteOutcome where
  | returned (forecast : ProviderForecast)
  | failed (error : ProviderVoteError)
  | raised (text : String)
  deriving DecidableEq

/-! ## Prices -/

/-- The list price of one attempt, per provider; none of them is free. -/
structure ProviderPriceTable where
  pricesMicros : OrderedDict String ℤ
  unknownProviderPriceMicros : ℤ
  prices_pos : ∀ provider price, pricesMicros.get? provider = some price → 1 ≤ price
  unknown_pos : 1 ≤ unknownProviderPriceMicros

/-- The list price of a provider. -/
def ProviderPriceTable.priceMicros (table : ProviderPriceTable) (provider : String) : ℤ :=
  (table.pricesMicros.get? provider).getD table.unknownProviderPriceMicros

/-- What a million tokens of a model cost. -/
structure ModelTokenRate where
  inputMicrosPerMillionTokens : ℤ
  outputMicrosPerMillionTokens : ℤ
  input_pos : 1 ≤ inputMicrosPerMillionTokens
  output_pos : 1 ≤ outputMicrosPerMillionTokens
  deriving DecidableEq

/-- The token rates per model, with the charge for a response whose cost cannot be derived. -/
structure ModelRateTable where
  rates : OrderedDict String ModelTokenRate
  unmeteredMicros : ℤ
  unmetered_pos : 1 ≤ unmeteredMicros

/-- The tokens over which a rate is quoted. -/
def microsPerMillionTokensDenominator : ℤ := 1000000

/-- What one response cost. -/
def ModelRateTable.microsFor (table : ModelRateTable) (modelVersion : String)
    (usage : Option TokenUsage) : ℤ :=
  match table.rates.get? modelVersion, usage with
  | some rate, some usage =>
    if usage.totalTokens = 0 then table.unmeteredMicros
    else
      quotient (usage.inputTokens * rate.inputMicrosPerMillionTokens +
          usage.outputTokens * rate.outputMicrosPerMillionTokens)
        microsPerMillionTokensDenominator .overstateCost
  | _, _ => table.unmeteredMicros

end Windbreak
