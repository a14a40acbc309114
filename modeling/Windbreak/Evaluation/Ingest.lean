import Windbreak.Core.Effects
import Windbreak.Evaluation.Temporal

/-!
# Ingested resolutions

An operator records how a market settled, and may correct a record that was wrong.  The fold over
the ledger keeps one claim for each market: a correction replaces exactly the row it names, a
restatement changes nothing, and anything else is refused.

`foldRow_ok_iff` says what one row does to the claims; `foldRows_claim_kept` is the run law: without
a correction of its market, a claim stays.
-/

namespace Windbreak

/-! ## Rows -/

/-- The settled outcome of one market. -/
structure IngestedResolution where
  marketTicker : String
  outcome : ResolutionOutcome
  resolvedAt : ℤ
  source : String
  deriving DecidableEq, Repr

/-- A correction as its row holds it: the position it supersedes and what it claims instead. -/
structure PersistedCorrection where
  supersededSequenceNumber : ℤ
  claim : IngestedResolution
  deriving DecidableEq, Repr

/-- The payload of a forecast's row. -/
structure ForecastPayload where
  forecastId : String
  marketTicker : String
  probabilityPpm : ℤ
  eligibleForLive : Bool
  abstentionReason : Option String
  baselineExecutablePricePips : ℤ
  deriving DecidableEq, Repr

/-- A row by its type, with what reading its payload returns or raises. -/
inductive EvaluationEvent where
  | configLoaded
  | forecastCreated (payload : Except String ForecastPayload)
  | marketResolved (payload : Except String IngestedResolution)
  | settlementReversed (payload : Except String PersistedCorrection)
  | other

/-- A ledger row, as an evaluation reads it. -/
structure EvaluationRow where
  sequenceNumber : ℤ
  createdAt : CreatedAt
  event : EvaluationEvent

/-- Rows in append order. -/
def Ordered (rows : List EvaluationRow) : Prop :=
  rows.Pairwise fun earlier later => earlier.sequenceNumber < later.sequenceNumber

/-! ## The fold -/

/-- The claim of a market and the row that carries it. -/
structure MarketClaim where
  sequenceNumber : ℤ
  resolution : IngestedResolution
  deriving DecidableEq, Repr

/-- Why an evaluation of the ledger is refused. -/
inductive EvaluationError where
  | unreadable (text : String)
  | contradicting (sequenceNumber : ℤ) (existing candidate : IngestedResolution)
  | staleCorrection (sequenceNumber : ℤ) (correction : PersistedCorrection)
      (claim : Option MarketClaim)
  deriving DecidableEq, Repr

/-- Whether two resolutions disagree on what the harness adjudicates by; the source label is not
part of it. -/
def resolutionsConflict (existing candidate : IngestedResolution) : Bool :=
  (existing.marketTicker, existing.outcome, existing.resolvedAt) ≠
    (candidate.marketTicker, candidate.outcome, candidate.resolvedAt)

/-- What a payload reads as, with the error of a row that cannot be read. -/
def readPayload {α : Type} (payload : Except String α) : Except EvaluationError α :=
  match payload with
  | .ok value => .ok value
  | .error text => .error (.unreadable text)

abbrev Claims := OrderedDict String MarketClaim

/-- Fold a resolution: the first claims its market, a restatement changes nothing. -/
def foldResolution (claims : Claims) (sequenceNumber : ℤ) (resolution : IngestedResolution) :
    Except EvaluationError Claims :=
  match claims.get? resolution.marketTicker with
  | none => .ok (claims.set resolution.marketTicker ⟨sequenceNumber, resolution⟩)
  | some existing =>
    if resolutionsConflict existing.resolution resolution then
      .error (.contradicting sequenceNumber existing.resolution resolution)
    else .ok claims

/-- Fold a correction: it replaces the claim of the row it names, if that row carries it. -/
def foldCorrection (claims : Claims) (sequenceNumber : ℤ) (correction : PersistedCorrection) :
    Except EvaluationError Claims :=
  let claim := claims.get? correction.claim.marketTicker
  if claim.map (·.sequenceNumber) = some correction.supersededSequenceNumber then
    .ok (claims.set correction.claim.marketTicker ⟨sequenceNumber, correction.claim⟩)
  else .error (.staleCorrection sequenceNumber correction claim)

/-- Fold one row. -/
def foldRow (claims : Claims) (row : EvaluationRow) : Except EvaluationError Claims :=
  match row.event with
  | .marketResolved payload => do
    let resolution ← readPayload payload
    foldResolution claims row.sequenceNumber resolution
  | .settlementReversed payload => do
    let correction ← readPayload payload
    foldCorrection claims row.sequenceNumber correction
  | _ => .ok claims

/-- The claims that a ledger read ends with. -/
def foldResolutions (rows : List EvaluationRow) : Except EvaluationError Claims :=
  rows.foldlM foldRow OrderedDict.empty

/-- The resolutions, one for each market. -/
def ingestedResolutions (claims : Claims) : List IngestedResolution :=
  claims.values.map (·.resolution)

/-- The outcomes by market. -/
def resolutionOutcomes (resolutions : List IngestedResolution) :
    OrderedDict String ResolutionOutcome :=
  .ofList (resolutions.map fun resolution => (resolution.marketTicker, resolution.outcome))

/-- The settlement instants by market. -/
def resolutionInstants (resolutions : List IngestedResolution) : OrderedDict String ℤ :=
  .ofList (resolutions.map fun resolution => (resolution.marketTicker, resolution.resolvedAt))

/-! ## What a row does to the claims -/

/-- A row corrects a market. -/
def EvaluationRow.Corrects (row : EvaluationRow) (marketTicker : String) : Prop :=
  ∃ correction, row.event = .settlementReversed (.ok correction) ∧
    correction.claim.marketTicker = marketTicker

/-- Whether a row is about a settlement. -/
def EvaluationEvent.isSettlement : EvaluationEvent → Bool
  | .marketResolved _ | .settlementReversed _ => true
  | _ => false

/-- What an accepted row does to the claims. -/
inductive RowFolds (claims : Claims) (row : EvaluationRow) : Claims → Prop
  | ignored (hevent : row.event.isSettlement = false) : RowFolds claims row claims
  | first {resolution : IngestedResolution} (hevent : row.event = .marketResolved (.ok resolution))
      (hfree : claims.get? resolution.marketTicker = none) :
      RowFolds claims row
        (claims.set resolution.marketTicker ⟨row.sequenceNumber, resolution⟩)
  | restated {resolution : IngestedResolution} {existing : MarketClaim}
      (hevent : row.event = .marketResolved (.ok resolution))
      (hclaim : claims.get? resolution.marketTicker = some existing)
      (hagree : resolutionsConflict existing.resolution resolution = false) :
      RowFolds claims row claims
  | corrected {correction : PersistedCorrection} {claim : MarketClaim}
      (hevent : row.event = .settlementReversed (.ok correction))
      (hclaim : claims.get? correction.claim.marketTicker = some claim)
      (hnames : claim.sequenceNumber = correction.supersededSequenceNumber) :
      RowFolds claims row
        (claims.set correction.claim.marketTicker ⟨row.sequenceNumber, correction.claim⟩)

theorem readPayload_ok {α : Type} {payload : Except String α} {value : α}
    (h : readPayload payload = .ok value) : payload = .ok value := by
  cases payload with
  | error text => cases h
  | ok found =>
    cases h
    rfl

/-- **The fold of one row**: the first claim of a market, a restatement, or a correction of the row
that carries the claim; every other row about a settlement is refused. -/
theorem foldRow_ok_iff {claims after : Claims} {row : EvaluationRow} :
    foldRow claims row = .ok after ↔ RowFolds claims row after := by
  constructor
  · intro h
    unfold foldRow at h
    cases hevent : row.event with
    | configLoaded | forecastCreated _ | other =>
      rw [hevent] at h
      cases h
      exact .ignored (by rw [hevent]; rfl)
    | marketResolved payload =>
      rw [hevent] at h
      obtain ⟨resolution, hread, hfold⟩ := Effects.except_bind_ok.mp h
      cases readPayload_ok hread
      unfold foldResolution at hfold
      cases hclaim : claims.get? resolution.marketTicker with
      | none =>
        rw [hclaim] at hfold
        cases hfold
        exact .first hevent hclaim
      | some existing =>
        rw [hclaim] at hfold
        dsimp only at hfold
        by_cases hconflict : resolutionsConflict existing.resolution resolution = true
        · rw [if_pos hconflict] at hfold
          cases hfold
        · rw [if_neg hconflict] at hfold
          cases hfold
          exact .restated hevent hclaim (Bool.eq_false_iff.mpr hconflict)
    | settlementReversed payload =>
      rw [hevent] at h
      obtain ⟨correction, hread, hfold⟩ := Effects.except_bind_ok.mp h
      cases readPayload_ok hread
      unfold foldCorrection at hfold
      dsimp only at hfold
      by_cases hnames : (claims.get? correction.claim.marketTicker).map (·.sequenceNumber) =
          some correction.supersededSequenceNumber
      · rw [if_pos hnames] at hfold
        cases hfold
        obtain ⟨claim, hclaim, hsame⟩ := Option.map_eq_some_iff.mp hnames
        exact .corrected hevent hclaim hsame
      · rw [if_neg hnames] at hfold
        cases hfold
  · rintro (hevent | ⟨hevent, hfree⟩ | ⟨hevent, hclaim, hagree⟩ | ⟨hevent, hclaim, hnames⟩)
    · unfold foldRow
      cases hrow : row.event with
      | configLoaded | forecastCreated _ | other => rfl
      | marketResolved _ | settlementReversed _ =>
        rw [hrow] at hevent
        cases hevent
    · simp only [foldRow, hevent]
      show foldResolution claims row.sequenceNumber _ = _
      rw [foldResolution, hfree]
    · simp only [foldRow, hevent]
      show foldResolution claims row.sequenceNumber _ = _
      simp only [foldResolution, hclaim, hagree, Bool.false_eq_true, if_false]
    · simp only [foldRow, hevent]
      show foldCorrection claims row.sequenceNumber _ = _
      simp only [foldCorrection, hclaim, Option.map_some, hnames, if_true]

/-- A row leaves the claims, or puts its own claim under its own market, which had none or is
corrected by it. -/
theorem foldRow_claims {claims after : Claims} {row : EvaluationRow}
    (h : foldRow claims row = .ok after) :
    after = claims ∨
      ∃ resolution : IngestedResolution,
        after = claims.set resolution.marketTicker ⟨row.sequenceNumber, resolution⟩ ∧
          (claims.get? resolution.marketTicker = none ∨
            row.Corrects resolution.marketTicker) := by
  cases foldRow_ok_iff.mp h with
  | ignored _ | restated _ _ _ => exact Or.inl rfl
  | first _ hfree => exact Or.inr ⟨_, rfl, Or.inl hfree⟩
  | corrected hevent _ _ => exact Or.inr ⟨_, rfl, Or.inr ⟨_, hevent, rfl⟩⟩

/-- **A claim stays** as the ledger grows without a correction of its market. -/
theorem foldRows_claim_kept {marketTicker : String} {claim : MarketClaim} :
    ∀ {rows : List EvaluationRow} {claims after : Claims},
      rows.foldlM foldRow claims = .ok after → claims.get? marketTicker = some claim →
      (∀ row ∈ rows, ¬ row.Corrects marketTicker) → after.get? marketTicker = some claim
  | [], claims, after, h, hclaim, _ => by
    cases h
    exact hclaim
  | row :: rest, claims, after, h, hclaim, hnone => by
    rw [List.foldlM_cons] at h
    obtain ⟨between, hrow, hrest⟩ := Effects.except_bind_ok.mp h
    refine foldRows_claim_kept hrest ?_ fun other hother =>
      hnone other (List.mem_cons_of_mem _ hother)
    rcases foldRow_claims hrow with rfl | ⟨resolution, rfl, hfresh⟩
    · exact hclaim
    · rw [OrderedDict.get?_set, if_neg ?_]
      · exact hclaim
      · rintro rfl
        rcases hfresh with hfresh | hcorrects
        · rw [hclaim] at hfresh
          cases hfresh
        · exact hnone row (List.mem_cons_self ..) hcorrects

/-- A claim stands under the market it is about, and a row carries it. -/
structure MarketClaimsOf (rows : List EvaluationRow) (claims : Claims) : Prop where
  own_market : ∀ {marketTicker claim}, claims.get? marketTicker = some claim →
    claim.resolution.marketTicker = marketTicker
  carried : ∀ {marketTicker claim}, claims.get? marketTicker = some claim →
    ∃ row ∈ rows, row.sequenceNumber = claim.sequenceNumber

theorem foldRow_marketClaimsOf {rows : List EvaluationRow} {claims after : Claims} {row : EvaluationRow}
    (hclaims : MarketClaimsOf rows claims) (hmem : row ∈ rows) (h : foldRow claims row = .ok after) :
    MarketClaimsOf rows after := by
  rcases foldRow_claims h with rfl | ⟨resolution, rfl, -⟩
  · exact hclaims
  · constructor
    · intro marketTicker claim hclaim
      rw [OrderedDict.get?_set] at hclaim
      by_cases hsame : marketTicker = resolution.marketTicker
      · rw [if_pos hsame] at hclaim
        cases hclaim
        exact hsame.symm
      · rw [if_neg hsame] at hclaim
        exact hclaims.own_market hclaim
    · intro marketTicker claim hclaim
      rw [OrderedDict.get?_set] at hclaim
      by_cases hsame : marketTicker = resolution.marketTicker
      · rw [if_pos hsame] at hclaim
        cases hclaim
        exact ⟨row, hmem, rfl⟩
      · rw [if_neg hsame] at hclaim
        exact hclaims.carried hclaim

theorem foldRows_marketClaimsOf {rows : List EvaluationRow} :
    ∀ {more : List EvaluationRow} {claims after : Claims}, MarketClaimsOf rows claims →
      (∀ row ∈ more, row ∈ rows) → more.foldlM foldRow claims = .ok after → MarketClaimsOf rows after
  | [], _, _, hclaims, _, h => by
    cases h
    exact hclaims
  | row :: rest, claims, after, hclaims, hsub, h => by
    rw [List.foldlM_cons] at h
    obtain ⟨between, hrow, hrest⟩ := Effects.except_bind_ok.mp h
    exact foldRows_marketClaimsOf (foldRow_marketClaimsOf hclaims (hsub row (List.mem_cons_self ..)) hrow)
      (fun other hother => hsub other (List.mem_cons_of_mem _ hother)) hrest

/-- **The claims of a ledger** are each under their own market and carried by a row of it. -/
theorem foldResolutions_marketClaimsOf {rows : List EvaluationRow} {claims : Claims}
    (h : foldResolutions rows = .ok claims) : MarketClaimsOf rows claims := by
  refine foldRows_marketClaimsOf ?_ (fun _ hmem => hmem) h
  constructor
  all_goals
    intro marketTicker claim hclaim
    rw [OrderedDict.get?_empty] at hclaim
    cases hclaim

/-! ## The projections of the claims -/

/-- What the claims say by market, projected. -/
theorem get?_projected {α : Type} {rows : List EvaluationRow} {claims : Claims}
    (hclaims : MarketClaimsOf rows claims) (f : IngestedResolution → α) (marketTicker : String) :
    (OrderedDict.ofList ((ingestedResolutions claims).map fun resolution =>
      (resolution.marketTicker, f resolution))).get? marketTicker =
      (claims.get? marketTicker).map fun claim => f claim.resolution := by
  have hitems : (ingestedResolutions claims).map (fun resolution =>
      (resolution.marketTicker, f resolution)) =
      (claims.mapValues fun claim => f claim.resolution).items := by
    rw [ingestedResolutions, OrderedDict.values, List.map_map, List.map_map, OrderedDict.mapValues]
    refine List.map_congr_left fun item hitem => ?_
    have hown := hclaims.own_market (OrderedDict.mem_items_iff.mp hitem)
    exact Prod.ext hown rfl
  rw [OrderedDict.get?, hitems, OrderedDict.items_ofList (OrderedDict.nodup _)]
  exact OrderedDict.get?_mapValues _ claims marketTicker

end Windbreak
