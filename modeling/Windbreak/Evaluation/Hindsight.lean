import Windbreak.Evaluation.TrackRecords

/-!
# No forecast knew the answer

What the gate makes of the forecasts of a ledger, in terms of the instants that its rows are stamped
with.  Three of the four laws hold of every ledger: an admitted forecast was recorded before its
market settled, every forecast is admitted or has one entry, and a backdated forecast stays
backdated.  The fourth, that a market is projected no later than the row that claims its resolution,
rests on the clock: it fails for a settlement instant that no row has reached by then.
-/

namespace Windbreak

/-- An evaluation of a ledger in append order: its claims, its inputs and what the gate makes of its
forecasts. -/
structure Evaluates (rows : List EvaluationRow) (claims : Claims) (inputs : EvaluationInputs)
    (result : TemporalGateResult) : Prop where
  ordered : Ordered rows
  folded : foldResolutions rows = .ok claims
  read : evaluationInputsFromRecords rows = .ok inputs
  gated : enforceTemporalIntegrity inputs = .ok result

/-! ## The laws -/

/-- Every admitted forecast was recorded after the deployment, about a settled market, and before
the instant at which that market settled. -/
def AdmittedBlind (rows : List EvaluationRow) (claims : Claims) (inputs : EvaluationInputs)
    (result : TemporalGateResult) : Prop :=
  ∀ forecast ∈ result.admittedForecasts, ∃ row ∈ rows, ∃ claim recorded,
    row.Records forecast ∧ deploymentSequence rows < row.sequenceNumber ∧
      claims.get? forecast.marketTicker = some claim ∧
      inputs.resolutions.get? forecast.marketTicker = some claim.resolution.outcome ∧
      row.createdAt = .aware recorded ∧ recorded < claim.resolution.resolvedAt

/-- The entries about one forecast. -/
def TemporalGateResult.rejectionsOf (result : TemporalGateResult) (forecast : FixtureForecast) :
    List RejectionEvent :=
  result.rejections.filter fun rejection => rejection.createdSequence = forecast.createdSequence

/-- Every forecast is admitted without an entry, or not admitted with exactly one. -/
def JudgedOnce (inputs : EvaluationInputs) (result : TemporalGateResult) : Prop :=
  ∀ forecast ∈ inputs.forecasts,
    (forecast ∈ result.admittedForecasts ∧ result.rejectionsOf forecast = []) ∨
      (forecast ∉ result.admittedForecasts ∧ ∃ rejection,
        result.rejectionsOf forecast = [rejection] ∧
          rejection.forecastId = forecast.forecastId ∧
          rejection.marketTicker = forecast.marketTicker)

/-- A forecast rejected as backdated is rejected by every evaluation of the ledger grown without a
correction of its market. -/
def BackdatedStays (rows : List EvaluationRow) (result : TemporalGateResult) : Prop :=
  ∀ rejection ∈ result.rejections, rejection.reason = .backdated →
    ∀ more claims inputs later, Evaluates (rows ++ more) claims inputs later →
      (∀ row ∈ more, ¬ row.Corrects rejection.marketTicker) →
      rejection ∈ later.rejections ∧
        ∀ forecast ∈ later.admittedForecasts,
          forecast.createdSequence ≠ rejection.createdSequence

/-- A settled market is projected no later than the row that carries its claim. -/
def ProjectedInTime (claims : Claims) (inputs : EvaluationInputs) : Prop :=
  ∀ marketTicker claim, claims.get? marketTicker = some claim →
    ∃ temporal projected, inputs.temporal = some temporal ∧
      temporal.resolutionSequences.get? marketTicker = some projected ∧
      projected ≤ claim.sequenceNumber

/-- By the row that claims a resolution the ledger has reached the instant that it claims. -/
def SettledWhenClaimed (rows : List EvaluationRow) (claims : Claims) : Prop :=
  ∀ marketTicker claim, claims.get? marketTicker = some claim →
    ∃ row ∈ rows, ∃ stamped, row.sequenceNumber ≤ claim.sequenceNumber ∧
      row.createdAt = .aware stamped ∧ claim.resolution.resolvedAt ≤ stamped

/-! ## What the gate makes of a ledger -/

section Evaluations

variable {rows : List EvaluationRow} {claims : Claims} {inputs : EvaluationInputs}
  {result : TemporalGateResult}

/-- An evaluation rests on its claims and admits or rejects every forecast. -/
theorem Evaluates.spec (h : Evaluates rows claims inputs result) :
    ∃ temporal, Reads rows claims inputs temporal ∧
      result.admittedForecasts = inputs.forecasts.filter
        (fun forecast => classifyForecast forecast inputs.resolutions temporal = none) ∧
      List.Forall₂ (RejectedAs inputs.resolutions temporal)
        (inputs.forecasts.filter fun forecast =>
          classifyForecast forecast inputs.resolutions temporal ≠ none)
        result.rejections := by
  obtain ⟨temporal, hreads⟩ := evaluationInputs_reads h.ordered h.folded h.read
  obtain ⟨found, hfound, hadmitted, hrejections⟩ :=
    gateForecasts_ok inputs.resolutions temporal inputs.forecasts
  have hgated := h.gated
  unfold enforceTemporalIntegrity at hgated
  rw [hreads.context] at hgated
  cases hfound.symm.trans hgated
  exact ⟨temporal, hreads, hadmitted, hrejections⟩

theorem admitted_blind (h : Evaluates rows claims inputs result) :
    AdmittedBlind rows claims inputs result := by
  intro forecast hmem
  obtain ⟨temporal, hreads, hadmitted, -⟩ := h.spec
  rw [hadmitted] at hmem
  obtain ⟨hin, hnone⟩ := List.mem_filter.mp hmem
  obtain ⟨created, hcreated, hdeployed, hbefore, outcome, houtcome⟩ :=
    classifyForecast_eq_none_iff.mp (of_decide_eq_true hnone)
  obtain ⟨row, hrow, hrecords⟩ := records_of_mem hreads.forecasts forecast hin
  cases hcreated.symm.trans hrecords.created
  rw [hreads.outcome] at houtcome
  obtain ⟨claim, hclaim, rfl⟩ := Option.map_eq_some_iff.mp houtcome
  obtain ⟨positions, hstamped, hprojected⟩ := hreads.projected hclaim
  obtain ⟨position, hposition, hsame, hrecorded⟩ := hstamped.exists_position hrow
  refine ⟨row, hrow, claim, position.2, hrecords, hreads.deployment ▸ hdeployed, hclaim, ?_,
    hrecorded, ?_⟩
  · rw [hreads.outcome, hclaim]
    rfl
  · refine lt_of_lt_firstPosition (hstamped.ordered h.ordered) hposition ?_
    rw [hsame]
    exact hbefore _ hprojected

/-- Among forecasts with different rows, those of one forecast's row are that forecast. -/
theorem filter_created : ∀ {forecasts : List FixtureForecast},
    (forecasts.Pairwise fun a b => a.createdSequence ≠ b.createdSequence) →
    ∀ forecast ∈ forecasts,
      forecasts.filter (fun other => other.createdSequence = forecast.createdSequence) = [forecast]
  | [], _, _, hmem => absurd hmem List.not_mem_nil
  | first :: rest, hdistinct, forecast, hmem => by
    obtain ⟨hfirst, hrest⟩ := List.pairwise_cons.mp hdistinct
    rcases List.mem_cons.mp hmem with rfl | hin
    · rw [List.filter_cons_of_pos (by simp)]
      congr 1
      refine List.filter_eq_nil_iff.mpr fun other hother => ?_
      simpa using fun hsame => hfirst other hother hsame.symm
    · rw [List.filter_cons_of_neg (by simpa using hfirst forecast hin)]
      exact filter_created hrest forecast hin

theorem judged_once (h : Evaluates rows claims inputs result) : JudgedOnce inputs result := by
  intro forecast hmem
  obtain ⟨temporal, hreads, hadmitted, hrejections⟩ := h.spec
  have hof := List.rel_filter
    (p := fun other : FixtureForecast =>
      decide (other.createdSequence = forecast.createdSequence))
    (q := fun rejection : RejectionEvent =>
      decide (rejection.createdSequence = forecast.createdSequence))
    (fun other rejection hmade => by
      show decide (other.createdSequence = forecast.createdSequence) = true ↔
        decide (rejection.createdSequence = forecast.createdSequence) = true
      rw [hmade.created])
    hrejections
  rw [List.filter_comm, filter_created (forecasts_created_distinct h.ordered hreads.forecasts)
    forecast hmem] at hof
  by_cases hnone : classifyForecast forecast inputs.resolutions temporal = none
  · rw [List.filter_cons_of_neg (by simpa using hnone), List.filter_nil] at hof
    refine Or.inl ⟨?_, List.forall₂_nil_left_iff.mp hof⟩
    rw [hadmitted]
    exact List.mem_filter.mpr ⟨hmem, decide_eq_true hnone⟩
  · rw [List.filter_cons_of_pos (by simpa using hnone), List.filter_nil] at hof
    obtain ⟨rejection, others, hmade, hothers, hsplit⟩ := List.forall₂_cons_left_iff.mp hof
    cases List.forall₂_nil_left_iff.mp hothers
    refine Or.inr ⟨?_, rejection, hsplit, hmade.forecastId, hmade.marketTicker⟩
    rw [hadmitted]
    exact fun hin => hnone (of_decide_eq_true (List.mem_filter.mp hin).2)

/-- A forecast rejected as backdated is so in every evaluation of a grown ledger. -/
theorem backdated_stays (h : Evaluates rows claims inputs result) :
    BackdatedStays rows result := by
  intro rejection hrejection hreason more claims' inputs' later hlater hnone
  obtain ⟨temporal, hreads, -, hrejections⟩ := h.spec
  obtain ⟨temporal', hreads', hadmitted', hrejections'⟩ := hlater.spec
  obtain ⟨forecast, hforecast, hmade⟩ := forall₂_exists_left hrejections hrejection
  have hin := (List.mem_filter.mp hforecast).1
  obtain ⟨created, resolved, hcreated, hdeployed, hresolved, hle⟩ :=
    classifyForecast_eq_backdated_iff.mp (hreason ▸ hmade.reason)
  obtain ⟨row, hrow, hrecords⟩ := records_of_mem hreads.forecasts forecast hin
  cases hcreated.symm.trans hrecords.created
  -- the claim of the market is the one it had, and so is its projection
  have hclaim : ∃ claim, claims.get? forecast.marketTicker = some claim := by
    rw [← Option.ne_none_iff_exists']
    intro hunclaimed
    rw [hreads.unclaimed hunclaimed] at hresolved
    cases hresolved
  obtain ⟨claim, hclaim⟩ := hclaim
  have hclaim' : claims'.get? forecast.marketTicker = some claim := by
    have hfolded := hlater.folded
    rw [foldResolutions, List.foldlM_append] at hfolded
    obtain ⟨between, hbetween, hmore⟩ := Effects.except_bind_ok.mp hfolded
    cases h.folded.symm.trans hbetween
    exact foldRows_claim_kept hmore hclaim (hmade.marketTicker ▸ hnone)
  have hsequence : temporal'.resolutionSequences.get? forecast.marketTicker = some resolved := by
    obtain ⟨positions, hstamped, hprojected⟩ := hreads.projected hclaim
    obtain ⟨grown, hstamped', hprojected'⟩ := hreads'.projected hclaim'
    obtain ⟨rest, rfl⟩ := hstamped.append hstamped'
    obtain ⟨position, hposition, hsame, -⟩ := hstamped.exists_position hrow
    cases hresolved.symm.trans hprojected
    rw [hprojected', firstPosition_append (hstamped.ordered h.ordered) hposition (hsame ▸ hle)]
  have hdeployment : temporal'.deploymentSequence = temporal.deploymentSequence := by
    rw [hreads'.deployment, hreads.deployment]
    exact deploymentSequence_append hlater.ordered hrow (hreads.deployment ▸ hdeployed)
  have hin' : forecast ∈ inputs'.forecasts := by
    have hgrown := hreads'.forecasts
    rw [forecastsFromRecords_append, hreads.forecasts] at hgrown
    obtain ⟨before, hbefore, hafter⟩ := Effects.except_bind_ok.mp hgrown
    obtain ⟨after, -, hpure⟩ := Effects.except_bind_ok.mp hafter
    cases hbefore
    rw [← Except.ok.inj hpure]
    exact List.mem_append_left _ hin
  have hbackdated : classifyForecast forecast inputs'.resolutions temporal' = some .backdated :=
    classifyForecast_eq_backdated_iff.mpr
      ⟨_, _, hrecords.created, hdeployment ▸ hdeployed, hsequence, hle⟩
  constructor
  · obtain ⟨again, hagain, hmade'⟩ := forall₂_exists_right hrejections'
      (List.mem_filter.mpr ⟨hin', by simp [hbackdated]⟩)
    have hreason' : again.reason = .backdated :=
      Option.some.inj (hmade'.reason.symm.trans hbackdated)
    have hsame : again = rejection := by
      refine RejectionEvent.ext (hmade'.forecastId.trans hmade.forecastId.symm)
        (hmade'.marketTicker.trans hmade.marketTicker.symm) (hreason'.trans hreason.symm)
        (hmade'.created.trans hmade.created.symm) ?_ ?_
      · rw [hmade'.deployment, hmade.deployment, hdeployment]
      · rw [hmade'.resolution hreason', hmade.resolution hreason, hsequence, hresolved]
    exact hsame ▸ hagain
  · intro other hother hsame
    rw [hadmitted'] at hother
    obtain ⟨hother, hadmits⟩ := List.mem_filter.mp hother
    have hdistinct := filter_created
      (forecasts_created_distinct hlater.ordered hreads'.forecasts) forecast hin'
    have hmem : other ∈ [forecast] := by
      rw [← hdistinct]
      exact List.mem_filter.mpr ⟨hother, decide_eq_true (hsame.trans hmade.created)⟩
    rw [List.mem_singleton.mp hmem] at hadmits
    cases hbackdated.symm.trans (of_decide_eq_true hadmits)

/-- A market is projected in time exactly when the ledger has reached its settlement by its claim. -/
theorem projected_in_time_iff (h : Evaluates rows claims inputs result) :
    ProjectedInTime claims inputs ↔ SettledWhenClaimed rows claims := by
  obtain ⟨temporal, hreads, -⟩ := h.spec
  have hof := foldResolutions_marketClaimsOf h.folded
  refine forall_congr' fun marketTicker => forall_congr' fun claim =>
    imp_congr_right fun hclaim => ?_
  obtain ⟨positions, hstamped, hprojected⟩ := hreads.projected hclaim
  obtain ⟨carrier, hcarrier, hcarried⟩ := hof.carried hclaim
  obtain ⟨position, hposition, hsame, -⟩ := hstamped.exists_position hcarrier
  have hspec : firstPositionAtOrAfter positions claim.resolution.resolvedAt ≤ position.1 ↔ _ :=
    firstPositionAtOrAfter_spec (hstamped.ordered h.ordered) hposition
  rw [hsame, hcarried] at hspec
  constructor
  · rintro ⟨context, projected, hcontext, hfound, hle⟩
    cases hreads.context.symm.trans hcontext
    cases hprojected.symm.trans hfound
    obtain ⟨earlier, hearlier, hbefore, hinstant⟩ := hspec.mp hle
    obtain ⟨row, hrow, hrowSame, hstamp⟩ := hstamped.exists_row hearlier
    exact ⟨row, hrow, earlier.2, hrowSame ▸ hbefore, hstamp, hinstant⟩
  · rintro ⟨row, hrow, stamped, hbefore, hstamp, hinstant⟩
    obtain ⟨earlier, hearlier, hrowSame, hagain⟩ := hstamped.exists_position hrow
    cases hstamp.symm.trans hagain
    exact ⟨temporal, _, hreads.context, hprojected,
      hspec.mpr ⟨earlier, hearlier, hrowSame ▸ hbefore, hinstant⟩⟩

/-- **No scored forecast knew the answer.**  An admitted forecast was recorded before its market
settled, each forecast is judged once and a backdated one stays backdated; with it, every market is
projected in time, exactly when by its claim the ledger had reached the instant claimed. -/
theorem scored_blind_iff (h : Evaluates rows claims inputs result) :
    (AdmittedBlind rows claims inputs result ∧ JudgedOnce inputs result ∧
      BackdatedStays rows result ∧ ProjectedInTime claims inputs) ↔
      SettledWhenClaimed rows claims := by
  constructor
  · rintro ⟨-, -, -, hprojected⟩
    exact (projected_in_time_iff h).mp hprojected
  · intro hsettled
    exact ⟨admitted_blind h, judged_once h, backdated_stays h,
      (projected_in_time_iff h).mpr hsettled⟩

end Evaluations

/-! ## A settlement ahead of the clock -/

/-- A ledger in which a market that settles at `resolvedAt` is ingested in the second of three rows,
and forecast in the third. -/
def ingestedEarly (resolvedAt : ℤ) : List EvaluationRow :=
  [⟨1, .aware 10, .configLoaded⟩,
   ⟨2, .aware 11, .marketResolved (.ok ⟨"KX", .yes, resolvedAt, "operator"⟩)⟩,
   ⟨3, .aware 12, .forecastCreated (.ok ⟨"f1", "KX", 900000, true, none, 5000⟩)⟩]

/-- A settlement instant that the clock has not reached is projected past the row that claims it, and
a forecast recorded after that row is scored. -/
theorem early_ingest_projected_late :
    ∃ claims inputs result, Evaluates (ingestedEarly 20) claims inputs result ∧
      result.admittedForecasts ≠ [] ∧ ¬ ProjectedInTime claims inputs := by
  refine ⟨_, _, _, ⟨by simp [Ordered, ingestedEarly], rfl, rfl, rfl⟩, List.cons_ne_nil _ _, ?_⟩
  intro hprojected
  obtain ⟨temporal, projected, hcontext, hfound, hle⟩ := hprojected "KX" _ rfl
  cases hcontext
  cases hfound
  exact absurd hle (by decide)

/-- An ingest after the settlement keeps the forecast that came after it from being scored. -/
theorem ingest_scored_blind :
    ∃ claims inputs result, Evaluates (ingestedEarly 11) claims inputs result ∧
      ((AdmittedBlind (ingestedEarly 11) claims inputs result ∧ JudgedOnce inputs result ∧
        BackdatedStays (ingestedEarly 11) result ∧ ProjectedInTime claims inputs) ↔
        SettledWhenClaimed (ingestedEarly 11) claims) := by
  have h : ∃ claims inputs result, Evaluates (ingestedEarly 11) claims inputs result :=
    ⟨_, _, _, ⟨by simp [Ordered, ingestedEarly], rfl, rfl, rfl⟩⟩
  obtain ⟨claims, inputs, result, hevaluates⟩ := h
  exact ⟨claims, inputs, result, hevaluates, scored_blind_iff hevaluates⟩

end Windbreak
