import Windbreak.Evaluation.Ingest

/-!
# Evaluating a ledger

One read of the ledger gives the forecasts, the outcomes that an operator ingested and the
coordinates that both are gated against.

`evaluationInputs_reads` says what an evaluation of a ledger in append order rests on.
-/

namespace Windbreak

/-! ## The fold -/

/-- Whether a row marks a loaded configuration. -/
def EvaluationEvent.isConfigLoaded : EvaluationEvent → Bool
  | .configLoaded => true
  | _ => false

/-- The deployment of an empty fold. -/
def emptyFoldDeploymentSequence : ℤ := 0

/-- The deployment that forecasts are gated against: the earliest loaded configuration, or the head
of a ledger without one. -/
def deploymentSequence (rows : List EvaluationRow) : ℤ :=
  let markers := (rows.filter (·.event.isConfigLoaded)).map (·.sequenceNumber)
  match markers.min? with
  | some marker => marker
  | none => (rows.map (·.sequenceNumber)).max?.getD emptyFoldDeploymentSequence

/-- The forecast of a row; one whose probability is out of range is refused. -/
def forecastFromRecord (sequenceNumber : ℤ) (payload : ForecastPayload) :
    Except EvaluationError FixtureForecast :=
  if hppm : 0 ≤ payload.probabilityPpm ∧ payload.probabilityPpm ≤ 1000000 then
    .ok
      { forecastId := payload.forecastId
        marketTicker := payload.marketTicker
        probabilityPpm := payload.probabilityPpm
        eligibleForLive := payload.eligibleForLive
        abstentionReason := payload.abstentionReason
        traded := false
        baselineExecutablePricePips := payload.baselineExecutablePricePips
        createdSequence := some sequenceNumber
        live := false
        probability_ppm := hppm }
  else
    .error (.unreadable
      s!"probability_ppm must be within [0, 1000000], got {payload.probabilityPpm}")

/-- The forecasts of a ledger read. -/
def forecastsFromRecords : List EvaluationRow → Except EvaluationError (List FixtureForecast)
  | [] => .ok []
  | row :: rest =>
    match row.event with
    | .forecastCreated payload => do
      let payload ← readPayload payload
      let forecast ← forecastFromRecord row.sequenceNumber payload
      let forecasts ← forecastsFromRecords rest
      return forecast :: forecasts
    | _ => forecastsFromRecords rest

/-- The position of a row with its instant, which must be readable. -/
def recordInstantOf (row : EvaluationRow) : Except EvaluationError (ℤ × CreatedAt) :=
  match row.createdAt with
  | .unparseable text =>
    .error (.unreadable s!"ledger row at sequence_number={row.sequenceNumber} carries an unparseable created_at: {text}")
  | moment => .ok (row.sequenceNumber, moment)

/-- The projected resolutions; without an instant to project the rows' own instants stay unread. -/
def projectedSequences (rows : List EvaluationRow) (instants : OrderedDict String ℤ) :
    Except EvaluationError (OrderedDict String ℤ) :=
  if instants.items = [] then .ok OrderedDict.empty
  else do
    let ledgerInstants ← rows.mapM recordInstantOf
    (resolutionSequencesFromInstants ledgerInstants instants).mapError .unreadable

/-- What an evaluation of a ledger read scores. -/
def evaluationInputsFromRecords (rows : List EvaluationRow) :
    Except EvaluationError EvaluationInputs := do
  let claims ← foldResolutions rows
  let resolutions := ingestedResolutions claims
  let sequences ← projectedSequences rows (resolutionInstants resolutions)
  let forecasts ← forecastsFromRecords rows
  return {
    forecasts := forecasts
    resolutions := resolutionOutcomes resolutions
    temporal := some ⟨deploymentSequence rows, sequences⟩
    executionRecords := [] }

/-! ## The deployment -/

/-- A ledger with a row past its deployment has a marker, so growing it leaves the deployment. -/
theorem deploymentSequence_append {rows more : List EvaluationRow} (hordered : Ordered (rows ++ more))
    {row : EvaluationRow} (hmem : row ∈ rows) (hlt : deploymentSequence rows < row.sequenceNumber) :
    deploymentSequence (rows ++ more) = deploymentSequence rows := by
  have hlater := (List.pairwise_append.mp hordered).2.2
  unfold deploymentSequence at hlt ⊢
  dsimp only at hlt ⊢
  rw [List.filter_append, List.map_append]
  cases hmin : ((rows.filter (·.event.isConfigLoaded)).map (·.sequenceNumber)).min? with
  | none =>
    rw [hmin] at hlt
    dsimp only at hlt
    cases hmax : (rows.map (·.sequenceNumber)).max? with
    | none =>
      rw [List.max?_eq_none_iff, List.map_eq_nil_iff] at hmax
      rw [hmax] at hmem
      cases hmem
    | some head =>
      rw [hmax] at hlt
      have := (List.max?_eq_some_iff.mp hmax).2 _ (List.mem_map_of_mem hmem)
      exact absurd hlt (Int.not_lt.mpr this)
  | some marker =>
    obtain ⟨hmarker, hleast⟩ := List.min?_eq_some_iff.mp hmin
    have hsame : ((rows.filter (·.event.isConfigLoaded)).map (·.sequenceNumber) ++
        (more.filter (·.event.isConfigLoaded)).map (·.sequenceNumber)).min? = some marker := by
      refine List.min?_eq_some_iff.mpr ⟨List.mem_append_left _ hmarker, fun other hother => ?_⟩
      rcases List.mem_append.mp hother with hin | hin
      · exact hleast other hin
      · obtain ⟨first, hfirst, rfl⟩ := List.mem_map.mp hmarker
        obtain ⟨last, hlast, rfl⟩ := List.mem_map.mp hin
        exact le_of_lt (hlater _ (List.mem_filter.mp hfirst).1 _ (List.mem_filter.mp hlast).1)
    rw [hsame]

/-! ## The forecasts -/

/-- A row records a forecast. -/
def EvaluationRow.Records (row : EvaluationRow) (forecast : FixtureForecast) : Prop :=
  ∃ payload, row.event = .forecastCreated (.ok payload) ∧
    forecastFromRecord row.sequenceNumber payload = .ok forecast

theorem EvaluationRow.Records.created {row : EvaluationRow} {forecast : FixtureForecast}
    (h : row.Records forecast) : forecast.createdSequence = some row.sequenceNumber := by
  obtain ⟨payload, -, hforecast⟩ := h
  unfold forecastFromRecord at hforecast
  by_cases hppm : 0 ≤ payload.probabilityPpm ∧ payload.probabilityPpm ≤ 1000000
  · rw [dif_pos hppm] at hforecast
    cases hforecast
    rfl
  · rw [dif_neg hppm] at hforecast
    cases hforecast

/-- A read of one more row: its forecast, if it records one, and those of the others. -/
theorem forecastsFromRecords_cons {row : EvaluationRow} {rest : List EvaluationRow}
    {forecasts : List FixtureForecast} (h : forecastsFromRecords (row :: rest) = .ok forecasts) :
    forecastsFromRecords rest = .ok forecasts ∨
      ∃ forecast others, row.Records forecast ∧ forecastsFromRecords rest = .ok others ∧
        forecasts = forecast :: others := by
  unfold forecastsFromRecords at h
  cases hevent : row.event with
  | configLoaded | marketResolved _ | settlementReversed _ | other =>
    rw [hevent] at h
    exact Or.inl h
  | forecastCreated payload =>
    rw [hevent] at h
    obtain ⟨read, hread, hforecasts⟩ := Effects.except_bind_ok.mp h
    obtain ⟨forecast, hforecast, hrest⟩ := Effects.except_bind_ok.mp hforecasts
    obtain ⟨others, hothers, hpure⟩ := Effects.except_bind_ok.mp hrest
    cases hpure
    cases payload with
    | error text => cases hread
    | ok found =>
      cases hread
      exact Or.inr ⟨forecast, others, ⟨_, hevent, hforecast⟩, hothers, rfl⟩

/-- Every forecast read has its row. -/
theorem records_of_mem : ∀ {rows : List EvaluationRow} {forecasts : List FixtureForecast},
    forecastsFromRecords rows = .ok forecasts → ∀ forecast ∈ forecasts,
      ∃ row ∈ rows, row.Records forecast
  | [], forecasts, h, forecast, hmem => by
    cases h
    cases hmem
  | row :: rest, forecasts, h, forecast, hmem => by
    rcases forecastsFromRecords_cons h with hrest | ⟨first, others, hfirst, hrest, rfl⟩
    · obtain ⟨found, hin, hrecords⟩ := records_of_mem hrest forecast hmem
      exact ⟨found, List.mem_cons_of_mem _ hin, hrecords⟩
    · rcases List.mem_cons.mp hmem with rfl | hlater
      · exact ⟨row, List.mem_cons_self .., hfirst⟩
      · obtain ⟨found, hin, hrecords⟩ := records_of_mem hrest forecast hlater
        exact ⟨found, List.mem_cons_of_mem _ hin, hrecords⟩

/-- Forecasts of a ledger in append order have different rows. -/
theorem forecasts_created_distinct :
    ∀ {rows : List EvaluationRow} {forecasts : List FixtureForecast}, Ordered rows →
      forecastsFromRecords rows = .ok forecasts →
      forecasts.Pairwise fun a b => a.createdSequence ≠ b.createdSequence
  | [], forecasts, _, h => by
    cases h
    exact .nil
  | row :: rest, forecasts, hordered, h => by
    obtain ⟨hfirst, hordered⟩ := List.pairwise_cons.mp hordered
    rcases forecastsFromRecords_cons h with hrest | ⟨forecast, others, hrecords, hrest, rfl⟩
    · exact forecasts_created_distinct hordered hrest
    · refine List.pairwise_cons.mpr ⟨fun other hother => ?_,
        forecasts_created_distinct hordered hrest⟩
      obtain ⟨found, hin, hfound⟩ := records_of_mem hrest other hother
      rw [hrecords.created, hfound.created]
      intro hsame
      have := hfirst found hin
      have := Option.some.inj hsame
      omega

/-- Reading a grown ledger reads its two parts. -/
theorem forecastsFromRecords_append (more : List EvaluationRow) : ∀ rows : List EvaluationRow,
    forecastsFromRecords (rows ++ more) = do
      let before ← forecastsFromRecords rows
      let after ← forecastsFromRecords more
      return before ++ after
  | [] => by
    show forecastsFromRecords more = _
    cases forecastsFromRecords more <;> rfl
  | row :: rest => by
    have ih := forecastsFromRecords_append more rest
    rw [List.cons_append, forecastsFromRecords, forecastsFromRecords]
    cases row.event with
    | configLoaded | marketResolved _ | settlementReversed _ | other => exact ih
    | forecastCreated payload =>
      dsimp only
      rw [ih]
      simp only [bind_assoc, pure_bind, List.cons_append]

/-! ## What an evaluation rests on -/

/-- Of two lists related item by item, an item of the first has a partner. -/
theorem forall₂_exists_right {α β : Type} {R : α → β → Prop} {xs : List α} {ys : List β}
    (h : List.Forall₂ R xs ys) {x : α} (hmem : x ∈ xs) : ∃ y ∈ ys, R x y := by
  induction h with
  | nil => cases hmem
  | cons hfirst _ ih =>
    rcases List.mem_cons.mp hmem with rfl | hin
    · exact ⟨_, List.mem_cons_self .., hfirst⟩
    · obtain ⟨y, hy, hrel⟩ := ih hin
      exact ⟨y, List.mem_cons_of_mem _ hy, hrel⟩

/-- Of two lists related item by item, an item of the second has a partner. -/
theorem forall₂_exists_left {α β : Type} {R : α → β → Prop} {xs : List α} {ys : List β}
    (h : List.Forall₂ R xs ys) {y : β} (hmem : y ∈ ys) : ∃ x ∈ xs, R x y :=
  forall₂_exists_right h.flip hmem

/-- The rows of a ledger with the instants they are stamped with. -/
def Stamped (rows : List EvaluationRow) (positions : List (ℤ × ℤ)) : Prop :=
  List.Forall₂ (fun row position => position.1 = row.sequenceNumber ∧
    row.createdAt = .aware position.2) rows positions

namespace Stamped

variable {rows : List EvaluationRow} {positions : List (ℤ × ℤ)}

theorem exists_position (h : Stamped rows positions) {row : EvaluationRow} (hmem : row ∈ rows) :
    ∃ position ∈ positions, position.1 = row.sequenceNumber ∧
      row.createdAt = .aware position.2 :=
  forall₂_exists_right h hmem

theorem exists_row (h : Stamped rows positions) {position : ℤ × ℤ} (hmem : position ∈ positions) :
    ∃ row ∈ rows, position.1 = row.sequenceNumber ∧ row.createdAt = .aware position.2 :=
  forall₂_exists_left h hmem

theorem ordered (h : Stamped rows positions) (hordered : Ordered rows) :
    positions.Pairwise fun a b => a.1 < b.1 := by
  induction h with
  | nil => exact .nil
  | cons hstamp hrest ih =>
    obtain ⟨hfirst, hlater⟩ := List.pairwise_cons.mp hordered
    refine List.pairwise_cons.mpr ⟨fun position hmem => ?_, ih hlater⟩
    obtain ⟨row, hrow, hposition, -⟩ := exists_row hrest hmem
    rw [hstamp.1, hposition]
    exact hfirst row hrow

/-- A grown ledger keeps the positions it had. -/
theorem append (h : Stamped rows positions) {more : List EvaluationRow} {grown : List (ℤ × ℤ)}
    (hgrown : Stamped (rows ++ more) grown) : ∃ rest, grown = positions ++ rest := by
  induction h generalizing grown with
  | nil => exact ⟨grown, rfl⟩
  | cons hstamp _ ih =>
    cases hgrown with
    | cons hagain hrest =>
      obtain ⟨rest, rfl⟩ := ih hrest
      refine ⟨rest, ?_⟩
      rw [List.cons_append]
      congr 1
      exact Prod.ext (hagain.1.trans hstamp.1.symm)
        (CreatedAt.aware.inj (hagain.2.symm.trans hstamp.2))

end Stamped

/-- What the inputs that a ledger gives rest on. -/
structure Reads (rows : List EvaluationRow) (claims : Claims) (inputs : EvaluationInputs)
    (temporal : TemporalContext) : Prop where
  context : inputs.temporal = some temporal
  deployment : temporal.deploymentSequence = deploymentSequence rows
  forecasts : forecastsFromRecords rows = .ok inputs.forecasts
  outcome : ∀ marketTicker, inputs.resolutions.get? marketTicker =
    (claims.get? marketTicker).map fun claim => claim.resolution.outcome
  unclaimed : ∀ {marketTicker}, claims.get? marketTicker = none →
    temporal.resolutionSequences.get? marketTicker = none
  projected : ∀ {marketTicker claim}, claims.get? marketTicker = some claim →
    ∃ positions, Stamped rows positions ∧
      temporal.resolutionSequences.get? marketTicker =
        some (firstPositionAtOrAfter positions claim.resolution.resolvedAt)

/-- The projection of a ledger in append order compares the instants of its rows. -/
theorem resolutionSequences_ok {rows : List EvaluationRow} (hordered : Ordered rows)
    {instants sequences : OrderedDict String ℤ}
    (h : resolutionSequencesFromInstants
      (rows.map fun row => (row.sequenceNumber, row.createdAt)) instants = .ok sequences) :
    ∃ positions, Stamped rows positions ∧
      sequences = instants.mapValues (firstPositionAtOrAfter positions) := by
  unfold resolutionSequencesFromInstants at h
  have hsorted : (rows.map fun row => (row.sequenceNumber, row.createdAt)).Pairwise
      fun a b => a.1 ≤ b.1 :=
    List.pairwise_map.mpr (List.Pairwise.imp (fun hlt => le_of_lt hlt) hordered)
  rw [hsorted.insertionSort_eq] at h
  obtain ⟨positions, hpositions, hsequences⟩ := Effects.except_bind_ok.mp h
  cases hsequences
  refine ⟨positions, ?_, rfl⟩
  refine List.Forall₂.imp ?_ (List.forall₂_map_left_iff.mp (Effects.except_mapM_ok hpositions))
  intro row position hread
  obtain ⟨micros, hmicros, hpair⟩ := Effects.except_bind_ok.mp hread
  cases hpair
  refine ⟨rfl, ?_⟩
  show row.createdAt = CreatedAt.aware micros
  unfold requireAwareInstant at hmicros
  cases hcreated : row.createdAt with
  | aware found =>
    rw [hcreated] at hmicros
    cases hmicros
    rfl
  | offsetless _ | unparseable _ =>
    rw [hcreated] at hmicros
    cases hmicros

theorem recordInstantsOf_ok : ∀ {rows : List EvaluationRow} {ledgerInstants : List (ℤ × CreatedAt)},
    rows.mapM recordInstantOf = .ok ledgerInstants →
      ledgerInstants = rows.map fun row => (row.sequenceNumber, row.createdAt)
  | [], ledgerInstants, h => by
    cases h
    rfl
  | row :: rest, ledgerInstants, h => by
    rw [List.mapM_cons] at h
    obtain ⟨first, hfirst, hothers⟩ := Effects.except_bind_ok.mp h
    obtain ⟨others, hrest, hpure⟩ := Effects.except_bind_ok.mp hothers
    cases hpure
    rw [recordInstantsOf_ok hrest, List.map_cons]
    congr 1
    unfold recordInstantOf at hfirst
    cases hcreated : row.createdAt <;> rw [hcreated] at hfirst <;> cases hfirst <;> rfl

/-- The projection of no instant is empty; that of some compares them with those of the rows. -/
theorem projectedSequences_ok {rows : List EvaluationRow} (hordered : Ordered rows)
    {instants sequences : OrderedDict String ℤ}
    (h : projectedSequences rows instants = .ok sequences) :
    (∀ marketTicker, instants.get? marketTicker = none ∧ sequences.get? marketTicker = none) ∨
      ∃ positions, Stamped rows positions ∧
        sequences = instants.mapValues (firstPositionAtOrAfter positions) := by
  unfold projectedSequences at h
  by_cases hitems : instants.items = []
  · rw [if_pos hitems] at h
    cases h
    refine Or.inl fun marketTicker => ⟨?_, rfl⟩
    rw [OrderedDict.get?, hitems]
    rfl
  · rw [if_neg hitems] at h
    obtain ⟨ledgerInstants, hledger, hprojected⟩ := Effects.except_bind_ok.mp h
    rw [recordInstantsOf_ok hledger] at hprojected
    cases hread : resolutionSequencesFromInstants
        (rows.map fun row => (row.sequenceNumber, row.createdAt)) instants with
    | error text =>
      rw [hread] at hprojected
      cases hprojected
    | ok found =>
      rw [hread] at hprojected
      cases hprojected
      exact Or.inr (resolutionSequences_ok hordered hread)

/-- **What an evaluation rests on**: the claims of the ledger, projected onto its rows. -/
theorem evaluationInputs_reads {rows : List EvaluationRow} {inputs : EvaluationInputs}
    {claims : Claims} (hordered : Ordered rows) (hclaims : foldResolutions rows = .ok claims)
    (h : evaluationInputsFromRecords rows = .ok inputs) :
    ∃ temporal, Reads rows claims inputs temporal := by
  unfold evaluationInputsFromRecords at h
  obtain ⟨found, hfound, hfolded⟩ := Effects.except_bind_ok.mp h
  cases hclaims.symm.trans hfound
  obtain ⟨sequences, hsequences, hinputs⟩ := Effects.except_bind_ok.mp hfolded
  obtain ⟨forecasts, hforecasts, hpure⟩ := Effects.except_bind_ok.mp hinputs
  cases hpure
  have hof := foldResolutions_marketClaimsOf hclaims
  have hinstants : ∀ marketTicker,
      (resolutionInstants (ingestedResolutions claims)).get? marketTicker =
        (claims.get? marketTicker).map fun claim => claim.resolution.resolvedAt :=
    get?_projected hof (·.resolvedAt)
  refine ⟨⟨deploymentSequence rows, sequences⟩, rfl, rfl, hforecasts,
    get?_projected hof (·.outcome), ?_, ?_⟩
  · intro marketTicker hnone
    rcases projectedSequences_ok hordered hsequences with hempty | ⟨positions, -, rfl⟩
    · exact (hempty marketTicker).2
    · show (OrderedDict.mapValues _ _).get? marketTicker = none
      rw [OrderedDict.get?_mapValues, hinstants, hnone]
      rfl
  · intro marketTicker claim hclaim
    rcases projectedSequences_ok hordered hsequences with hempty | ⟨positions, hstamped, rfl⟩
    · have hnone := (hempty marketTicker).1
      rw [hinstants, hclaim] at hnone
      cases hnone
    · refine ⟨positions, hstamped, ?_⟩
      show (OrderedDict.mapValues _ _).get? marketTicker = _
      rw [OrderedDict.get?_mapValues, hinstants, hclaim]
      rfl

end Windbreak
