import Mathlib.Data.List.Sort
import Windbreak.Core.Effects
import Windbreak.Evaluation.Inputs

/-!
# The temporal gate

A forecast is scored only if it was recorded after the deployment and before the answer of its
market could have been known.  The gate compares sequence numbers alone; a settlement instant is
first projected onto them, as the first position of the ledger at or after it.

* **`gateForecasts_ok`** — every forecast is admitted or has one entry.
* **`firstPositionAtOrAfter_spec`** — what the projection says about instants.
-/

namespace Windbreak

/-! ## Rejections -/

/-- Why a forecast is rejected. -/
inductive RejectionReason where
  | backdated
  | preDeployment
  | unresolved
  deriving DecidableEq, Repr

/-- The entry of a rejected forecast.  One rejected as backdated names the resolution, one rejected
as unresolved has none. -/
@[ext]
structure RejectionEvent where
  forecastId : String
  marketTicker : String
  reason : RejectionReason
  createdSequence : Option ℤ
  deploymentSequence : Option ℤ
  resolutionSequence : Option ℤ
  backdated_resolved : reason = .backdated → resolutionSequence ≠ none
  unresolved_none : reason = .unresolved → resolutionSequence = none
  deriving DecidableEq

/-- What the gate makes of some forecasts. -/
structure TemporalGateResult where
  admittedForecasts : List FixtureForecast
  rejections : List RejectionEvent
  deriving DecidableEq

/-! ## The gate -/

/-- A forecast without a sequence, or with one at the deployment or before. -/
def isPreDeployment (createdSequence : Option ℤ) (deploymentSequence : ℤ) : Bool :=
  match createdSequence with
  | none => true
  | some created => created ≤ deploymentSequence

/-- A forecast recorded at its market's resolution or after. -/
def isBackdated (createdSequence resolutionSequence : Option ℤ) : Bool :=
  match createdSequence, resolutionSequence with
  | some created, some resolution => created ≥ resolution
  | _, _ => false

/-- Why a forecast is rejected, if it is. -/
def classifyForecast (forecast : FixtureForecast) (resolutions : OrderedDict String ResolutionOutcome)
    (temporal : TemporalContext) : Option RejectionReason :=
  let resolutionSequence := temporal.resolutionSequences.get? forecast.marketTicker
  if isPreDeployment forecast.createdSequence temporal.deploymentSequence then some .preDeployment
  else if isBackdated forecast.createdSequence resolutionSequence then some .backdated
  else if resolutions.get? forecast.marketTicker = none then some .unresolved
  else none

/-- Construct the entry of a rejection, unless it is incoherent. -/
def newRejectionEvent (forecast : FixtureForecast) (reason : RejectionReason)
    (deploymentSequence resolutionSequence : Option ℤ) : Except String RejectionEvent :=
  if hbackdated : reason = .backdated ∧ resolutionSequence = none then
    .error "BACKDATED rejection requires a non-None resolution_sequence; the reason presupposes a known market resolution"
  else if hunresolved : reason = .unresolved ∧ resolutionSequence ≠ none then
    .error "UNRESOLVED rejection requires resolution_sequence to be None; an unresolved market carries no resolution sequence"
  else
    .ok
      { forecastId := forecast.forecastId
        marketTicker := forecast.marketTicker
        reason := reason
        createdSequence := forecast.createdSequence
        deploymentSequence := deploymentSequence
        resolutionSequence := resolutionSequence
        backdated_resolved := fun hreason hnone => hbackdated ⟨hreason, hnone⟩
        unresolved_none := fun hreason =>
          Decidable.not_not.mp fun hsome => hunresolved ⟨hreason, hsome⟩ }

/-- The entry of a rejected forecast. -/
def buildRejection (forecast : FixtureForecast) (reason : RejectionReason)
    (temporal : TemporalContext) : Except String RejectionEvent :=
  let resolutionSequence :=
    if reason = .unresolved then none
    else temporal.resolutionSequences.get? forecast.marketTicker
  newRejectionEvent forecast reason (some temporal.deploymentSequence) resolutionSequence

/-- The loop of the gate over some forecasts. -/
def gateForecasts (resolutions : OrderedDict String ResolutionOutcome)
    (temporal : TemporalContext) : List FixtureForecast → Except String TemporalGateResult
  | [] => .ok ⟨[], []⟩
  | forecast :: rest =>
    match classifyForecast forecast resolutions temporal with
    | none => do
      let result ← gateForecasts resolutions temporal rest
      return ⟨forecast :: result.admittedForecasts, result.rejections⟩
    | some reason => do
      let rejection ← buildRejection forecast reason temporal
      let result ← gateForecasts resolutions temporal rest
      return ⟨result.admittedForecasts, rejection :: result.rejections⟩

/-- Gate the forecasts of an evaluation; forecasts without coordinates to gate them against are
refused. -/
def enforceTemporalIntegrity (inputs : EvaluationInputs) : Except String TemporalGateResult :=
  match inputs.temporal with
  | none =>
    if inputs.forecasts = [] then .ok ⟨[], []⟩
    else .error s!"enforce_temporal_integrity requires a TemporalContext to gate {inputs.forecasts.length} forecast(s); inputs.temporal was None"
  | some temporal => gateForecasts inputs.resolutions temporal inputs.forecasts

/-! ## Projecting an instant -/

/-- The sequence of an instant when there is no ledger to project it onto. -/
def unprovableResolutionSequence : ℤ := 0

/-- The first position at or after an instant, or one past the head. -/
def firstPositionAtOrAfter (positions : List (ℤ × ℤ)) (instant : ℤ) : ℤ :=
  match positions.find? fun position => position.2 ≥ instant with
  | some position => position.1
  | none =>
    match positions.getLast? with
    | none => unprovableResolutionSequence
    | some head => head.1 + 1

/-- What an instant written as text reads as. -/
inductive CreatedAt where
  | unparseable (text : String)
  | offsetless (iso : String)
  | aware (micros : ℤ)
  deriving DecidableEq, Repr

/-- The refusal of an instant without an offset. -/
def naiveInstantText (fieldName iso : String) : String :=
  s!"{fieldName} must be timezone-aware, got naive {iso}. An offsetless instant is unprovable evidence -- reading its wall clock as the host's local time would silently shift it by the host's offset, and across a calendar-day boundary that changes the answer -- so it is refused rather than normalized against a guessed timezone."

/-- An instant with an offset; others are refused. -/
def requireAwareInstant (fieldName : String) (moment : CreatedAt) : Except String ℤ :=
  match moment with
  | .aware micros => .ok micros
  | .offsetless iso => .error (naiveInstantText fieldName iso)
  | .unparseable text => .error s!"unparseable {fieldName}: {text}"

/-- Project settlement instants onto the sequence numbers of the ledger. -/
def resolutionSequencesFromInstants (ledgerInstants : List (ℤ × CreatedAt))
    (resolutionInstants : OrderedDict String ℤ) : Except String (OrderedDict String ℤ) := do
  let sorted := ledgerInstants.insertionSort fun a b => a.1 ≤ b.1
  let positions ← sorted.mapM fun position => do
    let micros ← requireAwareInstant "ledger_instant" position.2
    return (position.1, micros)
  return resolutionInstants.mapValues (firstPositionAtOrAfter positions)

/-! ## What the gate decides -/

section Gate

variable {resolutions : OrderedDict String ResolutionOutcome} {temporal : TemporalContext}

/-- A forecast is admitted exactly when it comes after the deployment, before the resolution of its
market, and its market has settled. -/
theorem classifyForecast_eq_none_iff {forecast : FixtureForecast} :
    classifyForecast forecast resolutions temporal = none ↔
      ∃ created, forecast.createdSequence = some created ∧
        temporal.deploymentSequence < created ∧
        (∀ resolved, temporal.resolutionSequences.get? forecast.marketTicker = some resolved →
          created < resolved) ∧
        ∃ outcome, resolutions.get? forecast.marketTicker = some outcome := by
  unfold classifyForecast isPreDeployment isBackdated
  cases forecast.createdSequence with
  | none => simp
  | some created =>
    cases temporal.resolutionSequences.get? forecast.marketTicker <;>
      cases resolutions.get? forecast.marketTicker <;> grind

/-- A forecast rejected as backdated comes after the deployment, and not before the resolution. -/
theorem classifyForecast_eq_backdated_iff {forecast : FixtureForecast} :
    classifyForecast forecast resolutions temporal = some .backdated ↔
      ∃ created resolved, forecast.createdSequence = some created ∧
        temporal.deploymentSequence < created ∧
        temporal.resolutionSequences.get? forecast.marketTicker = some resolved ∧
        resolved ≤ created := by
  unfold classifyForecast isPreDeployment isBackdated
  cases forecast.createdSequence with
  | none => simp
  | some created =>
    cases temporal.resolutionSequences.get? forecast.marketTicker <;>
      cases resolutions.get? forecast.marketTicker <;> grind

/-- The entry that the gate writes for a rejected forecast. -/
structure RejectedAs (resolutions : OrderedDict String ResolutionOutcome)
    (temporal : TemporalContext) (forecast : FixtureForecast) (rejection : RejectionEvent) :
    Prop where
  reason : classifyForecast forecast resolutions temporal = some rejection.reason
  forecastId : rejection.forecastId = forecast.forecastId
  marketTicker : rejection.marketTicker = forecast.marketTicker
  created : rejection.createdSequence = forecast.createdSequence
  deployment : rejection.deploymentSequence = some temporal.deploymentSequence
  resolution : rejection.reason = .backdated →
    rejection.resolutionSequence = temporal.resolutionSequences.get? forecast.marketTicker

/-- The entry of a rejected forecast is coherent, so the gate never raises on it. -/
theorem buildRejection_ok {forecast : FixtureForecast} {reason : RejectionReason}
    (h : classifyForecast forecast resolutions temporal = some reason) :
    ∃ rejection, buildRejection forecast reason temporal = .ok rejection ∧
      RejectedAs resolutions temporal forecast rejection := by
  have hbackdated : ¬ (reason = .backdated ∧
      (if reason = .unresolved then none
        else temporal.resolutionSequences.get? forecast.marketTicker) = none) := by
    rintro ⟨rfl, hnone⟩
    obtain ⟨_, _, _, _, hresolved, _⟩ := classifyForecast_eq_backdated_iff.mp h
    rw [if_neg (by decide), hresolved] at hnone
    cases hnone
  have hunresolved : ¬ (reason = .unresolved ∧
      (if reason = .unresolved then none
        else temporal.resolutionSequences.get? forecast.marketTicker) ≠ none) := by
    rintro ⟨hreason, hsome⟩
    exact hsome (if_pos hreason)
  unfold buildRejection newRejectionEvent
  rw [dif_neg hbackdated, dif_neg hunresolved]
  refine ⟨_, rfl, h, rfl, rfl, rfl, rfl, ?_⟩
  rintro hreason
  exact if_neg fun hother => by cases hreason.symm.trans hother

/-- **The gate admits or rejects**: it never raises, keeps the order, and each forecast that it does
not admit has one entry. -/
theorem gateForecasts_ok (resolutions : OrderedDict String ResolutionOutcome)
    (temporal : TemporalContext) : ∀ forecasts : List FixtureForecast,
    ∃ result, gateForecasts resolutions temporal forecasts = .ok result ∧
      result.admittedForecasts =
        forecasts.filter (fun forecast => classifyForecast forecast resolutions temporal = none) ∧
      List.Forall₂ (RejectedAs resolutions temporal)
        (forecasts.filter fun forecast => classifyForecast forecast resolutions temporal ≠ none)
        result.rejections
  | [] => ⟨⟨[], []⟩, rfl, rfl, .nil⟩
  | forecast :: rest => by
    obtain ⟨result, hresult, hadmitted, hrejections⟩ := gateForecasts_ok resolutions temporal rest
    unfold gateForecasts
    cases hreason : classifyForecast forecast resolutions temporal with
    | none =>
      refine ⟨⟨forecast :: result.admittedForecasts, result.rejections⟩, ?_, ?_, ?_⟩
      · dsimp only
        rw [hresult]
        rfl
      · rw [hadmitted, List.filter_cons_of_pos (by simpa using hreason)]
      · rw [List.filter_cons_of_neg (by simpa using hreason)]
        exact hrejections
    | some reason =>
      obtain ⟨rejection, hrejection, hmade⟩ := buildRejection_ok hreason
      refine ⟨⟨result.admittedForecasts, rejection :: result.rejections⟩, ?_, ?_, ?_⟩
      · dsimp only
        rw [hrejection, hresult]
        rfl
      · rw [hadmitted, List.filter_cons_of_neg (by simp [hreason])]
      · rw [List.filter_cons_of_pos (by simp [hreason])]
        exact .cons hmade hrejections

end Gate

/-! ## What the projection says -/

section Projection

variable {positions : List (ℤ × ℤ)} {instant : ℤ}

/-- The projection is a position at or after the instant with none before it, or lies past every
position when there is none. -/
theorem firstPositionAtOrAfter_spec (hordered : positions.Pairwise fun a b => a.1 < b.1)
    {position : ℤ × ℤ} (hmem : position ∈ positions) :
    firstPositionAtOrAfter positions instant ≤ position.1 ↔
      ∃ earlier ∈ positions, earlier.1 ≤ position.1 ∧ instant ≤ earlier.2 := by
  unfold firstPositionAtOrAfter
  cases hfind : positions.find? fun position => position.2 ≥ instant with
  | some first =>
    have hfirst : instant ≤ first.2 := by simpa using List.find?_some hfind
    have hin := List.mem_of_find?_eq_some hfind
    refine ⟨fun hle => ⟨first, hin, hle, hfirst⟩, ?_⟩
    rintro ⟨earlier, hearlier, hle, hinstant⟩
    refine le_trans ?_ hle
    obtain ⟨before, after, hsplit, hnone⟩ := (List.find?_eq_some_iff_append.mp hfind).2
    rw [hsplit] at hearlier hordered
    rcases List.mem_append.mp hearlier with hbefore | hafter
    · have := hnone earlier hbefore
      simp only [ge_iff_le, Bool.not_eq_eq_eq_not, Bool.not_true, decide_eq_false_iff_not] at this
      exact absurd hinstant this
    · rcases List.mem_cons.mp hafter with rfl | hlater
      · exact le_rfl
      · exact le_of_lt ((List.pairwise_cons.mp (List.pairwise_append.mp hordered).2.1).1 _ hlater)
  | none =>
    have hbefore := List.find?_eq_none.mp hfind
    cases hlast : positions.getLast? with
    | none =>
      rw [List.getLast?_eq_none_iff.mp hlast] at hmem
      cases hmem
    | some head =>
      have hhead : position.1 ≤ head.1 := by
        obtain ⟨front, hfront⟩ := List.getLast?_eq_some_iff.mp hlast
        rw [hfront] at hmem hordered
        rcases List.mem_append.mp hmem with hin | hin
        · exact le_of_lt ((List.pairwise_append.mp hordered).2.2 _ hin _ (List.mem_cons_self ..))
        · rw [List.mem_singleton.mp hin]
      constructor
      · intro hle
        dsimp only at hle
        omega
      · rintro ⟨earlier, hearlier, -, hinstant⟩
        exact absurd (by simpa using hinstant) (hbefore earlier hearlier)

/-- A position before the projection is stamped before the instant. -/
theorem lt_of_lt_firstPosition (hordered : positions.Pairwise fun a b => a.1 < b.1)
    {position : ℤ × ℤ} (hmem : position ∈ positions)
    (hlt : position.1 < firstPositionAtOrAfter positions instant) : position.2 < instant := by
  by_contra hlate
  have := (firstPositionAtOrAfter_spec hordered hmem).mpr
    ⟨position, hmem, le_rfl, Int.not_lt.mp hlate⟩
  omega

/-- A projection that some position has reached stays as the ledger grows. -/
theorem firstPosition_append {more : List (ℤ × ℤ)}
    (hordered : positions.Pairwise fun a b => a.1 < b.1) {position : ℤ × ℤ}
    (hmem : position ∈ positions)
    (hle : firstPositionAtOrAfter positions instant ≤ position.1) :
    firstPositionAtOrAfter (positions ++ more) instant =
      firstPositionAtOrAfter positions instant := by
  obtain ⟨earlier, hearlier, -, hinstant⟩ := (firstPositionAtOrAfter_spec hordered hmem).mp hle
  cases hfind : positions.find? fun position => position.2 ≥ instant with
  | none => exact absurd (by simpa using hinstant) (List.find?_eq_none.mp hfind earlier hearlier)
  | some first =>
    unfold firstPositionAtOrAfter
    rw [List.find?_append, hfind]
    rfl

end Projection

end Windbreak
