import Mathlib.Data.List.Induction
import Windbreak.Evaluation.Ingest
import Windbreak.Evaluation.Settlement

/-!
# A correction is a settlement reversal

The ledger spends one row where the settlement machine spends two events.  Replaying the rows on the
machine, a first resolution as a settlement and a correction as a reversal with a settlement after
it, the machine takes every event of a row that the fold accepts (`foldRow_tracked`), and ends with
the outcome of every market and one reversal for each of its corrections
(`foldResolutions_tracked`).
-/

namespace Windbreak

/-! ## Replaying rows -/

/-- The settlement events of a row: none for a restatement, and for a correction two. -/
def settlementEventsOf (claims : Claims) (number : ℤ) (row : EvaluationRow) :
    List SettlementEvent :=
  match row.event with
  | .marketResolved (.ok resolution) =>
    match claims.get? resolution.marketTicker with
    | none => [settlementOf number resolution.marketTicker resolution.outcome]
    | some existing =>
      if resolutionsConflict existing.resolution resolution then
        [settlementOf number resolution.marketTicker resolution.outcome]
      else []
  | .settlementReversed (.ok correction) =>
    [reversalOf number correction.claim.marketTicker,
      settlementOf (number + 1) correction.claim.marketTicker correction.claim.outcome]
  | _ => []

/-- The settlement events of some rows, up to and with the first that the fold refuses. -/
def replayFrom (claims : Claims) (number : ℤ) : List EvaluationRow → List SettlementEvent
  | [] => []
  | row :: rest =>
    let events := settlementEventsOf claims number row
    match foldRow claims row with
    | .error _ => events
    | .ok after => events ++ replayFrom after (number + events.length) rest

/-- The settlement events of a ledger, numbered from its first position. -/
def replaySettlements (rows : List EvaluationRow) : List SettlementEvent :=
  replayFrom OrderedDict.empty 1 rows

/-! ## Corrections and the rows that carry a claim -/

/-- Whether a row corrects a market. -/
def EvaluationRow.corrects (row : EvaluationRow) (marketTicker : String) : Bool :=
  match row.event with
  | .settlementReversed (.ok correction) => correction.claim.marketTicker = marketTicker
  | _ => false

/-- Whether a row resolves a market. -/
def EvaluationRow.resolves (row : EvaluationRow) (marketTicker : String) : Bool :=
  match row.event with
  | .marketResolved (.ok resolution) => resolution.marketTicker = marketTicker
  | _ => false

/-- The claim that a row makes at its position. -/
def EvaluationRow.claim (row : EvaluationRow) : Option MarketClaim :=
  match row.event with
  | .marketResolved (.ok resolution) => some ⟨row.sequenceNumber, resolution⟩
  | .settlementReversed (.ok correction) => some ⟨row.sequenceNumber, correction.claim⟩
  | _ => none

theorem EvaluationRow.not_settlement (row : EvaluationRow)
    (hevent : row.event.isSettlement = false) (marketTicker : String) :
    row.corrects marketTicker = false ∧ row.resolves marketTicker = false := by
  unfold EvaluationRow.corrects EvaluationRow.resolves
  cases hrow : row.event with
  | configLoaded | forecastCreated _ | other => exact ⟨rfl, rfl⟩
  | marketResolved _ | settlementReversed _ =>
    rw [hrow] at hevent
    cases hevent

/-- How often a ledger corrects a market. -/
def correctionCount (rows : List EvaluationRow) (marketTicker : String) : ℕ :=
  rows.countP (·.corrects marketTicker)

/-- The last correction of a market, or its first resolution when there is none. -/
def carrierOf (rows : List EvaluationRow) (marketTicker : String) : Option EvaluationRow :=
  ((rows.filter (·.corrects marketTicker)).getLast?).or (rows.find? (·.resolves marketTicker))

theorem carrierOf_append (rows : List EvaluationRow) (row : EvaluationRow)
    (marketTicker : String) :
    carrierOf (rows ++ [row]) marketTicker =
      if row.corrects marketTicker then some row
      else (carrierOf rows marketTicker).or
        (if row.resolves marketTicker then some row else none) := by
  unfold carrierOf
  rw [List.filter_append, List.find?_append]
  by_cases hcorrects : row.corrects marketTicker = true
  · have hlast : [row].filter (·.corrects marketTicker) = [row] :=
      List.filter_cons_of_pos hcorrects
    rw [if_pos hcorrects, hlast, List.getLast?_append]
    rfl
  · have hnone : [row].filter (·.corrects marketTicker) = [] :=
      List.filter_cons_of_neg hcorrects
    rw [if_neg hcorrects, hnone, List.append_nil, Option.or_assoc]
    congr 2
    by_cases hresolves : row.resolves marketTicker = true
    · rw [if_pos hresolves]
      exact List.find?_cons_of_pos hresolves
    · rw [if_neg hresolves]
      exact List.find?_cons_of_neg hresolves

/-- A carrier makes a claim. -/
theorem claim_of_carrier {rows : List EvaluationRow} {marketTicker : String}
    (h : (carrierOf rows marketTicker).bind (·.claim) = none) :
    carrierOf rows marketTicker = none := by
  cases hcarrier : carrierOf rows marketTicker with
  | none => rfl
  | some row =>
    rw [hcarrier] at h
    rcases Option.or_eq_some_iff.mp hcarrier with hlast | ⟨-, hfirst⟩
    · have hcorrects := (List.mem_filter.mp (List.mem_of_getLast? hlast)).2
      unfold EvaluationRow.corrects at hcorrects
      unfold EvaluationRow.claim at h
      grind
    · have hresolves := List.find?_some hfirst
      unfold EvaluationRow.resolves at hresolves
      unfold EvaluationRow.claim at h
      grind

/-- The fold of a ledger with one more row folds that row over the claims of the others. -/
theorem foldResolutions_append {rows : List EvaluationRow} {row : EvaluationRow} {after : Claims} :
    foldResolutions (rows ++ [row]) = .ok after ↔
      ∃ claims, foldResolutions rows = .ok claims ∧ foldRow claims row = .ok after := by
  unfold foldResolutions
  rw [List.foldlM_append, Effects.except_bind_ok]
  simp only [List.foldlM_cons, List.foldlM_nil, bind_pure]

/-- **Who carries a claim**: the claims of a ledger are those of the carriers. -/
theorem claims_of_carriers (rows : List EvaluationRow) :
    ∀ {claims : Claims}, foldResolutions rows = .ok claims → ∀ marketTicker,
      claims.get? marketTicker = (carrierOf rows marketTicker).bind (·.claim) := by
  induction rows using List.reverseRecOn with
  | nil =>
    intro claims h marketTicker
    cases h
    rfl
  | append_singleton rows row ih =>
    intro after h marketTicker
    obtain ⟨claims, hclaims, hrow⟩ := foldResolutions_append.mp h
    have hold := ih hclaims marketTicker
    rw [carrierOf_append]
    cases foldRow_ok_iff.mp hrow with
    | ignored hevent =>
      obtain ⟨hcorrects, hresolves⟩ := row.not_settlement hevent marketTicker
      simpa [hcorrects, hresolves] using hold
    | @first resolution hevent hfree =>
      have hcorrects : row.corrects marketTicker = false := by
        rw [EvaluationRow.corrects, hevent]
      rw [if_neg (by simp [hcorrects]), OrderedDict.get?_set]
      by_cases hsame : marketTicker = resolution.marketTicker
      · subst hsame
        rw [hfree] at hold
        rw [if_pos rfl, claim_of_carrier hold.symm,
          if_pos (by simp [EvaluationRow.resolves, hevent])]
        show _ = row.claim
        rw [EvaluationRow.claim, hevent]
      · rw [if_neg hsame, if_neg (by simp [EvaluationRow.resolves, hevent, Ne.symm hsame]), hold,
          Option.or_none]
    | @restated resolution existing hevent hclaim hagree =>
      have hcorrects : row.corrects marketTicker = false := by
        rw [EvaluationRow.corrects, hevent]
      rw [if_neg (by simp [hcorrects]), hold]
      by_cases hsame : marketTicker = resolution.marketTicker
      · subst hsame
        rw [hold] at hclaim
        obtain ⟨carrier, hcarrier, -⟩ := Option.bind_eq_some_iff.mp hclaim
        rw [hcarrier, Option.some_or]
      · rw [if_neg (by simp [EvaluationRow.resolves, hevent, Ne.symm hsame]), Option.or_none]
    | @corrected correction claim hevent hclaim hnames =>
      rw [OrderedDict.get?_set]
      by_cases hsame : marketTicker = correction.claim.marketTicker
      · rw [if_pos hsame, if_pos (by simp [EvaluationRow.corrects, hevent, hsame])]
        show _ = row.claim
        rw [EvaluationRow.claim, hevent]
      · rw [if_neg hsame, if_neg (by simp [EvaluationRow.corrects, hevent, Ne.symm hsame]),
          if_neg (by simp [EvaluationRow.resolves, hevent]), Option.or_none]
        exact hold

/-! ## The machine follows the fold -/

/-- The machine knows of every market what its claim says and how often it was corrected. -/
structure Tracks (claims : Claims) (corrections : String → ℕ) (number : ℤ)
    (state : TrackerState) : Prop where
  markets : ∀ marketTicker, state.tracker.resolutions.get? marketTicker =
    (claims.get? marketTicker).map fun claim =>
      settledMarket marketTicker claim.resolution.outcome (corrections marketTicker)
  unclaimed : ∀ marketTicker, claims.get? marketTicker = none → corrections marketTicker = 0
  position : ∀ position, state.previousSequence = some position → position < number

theorem Tracks.get_unclaimed {claims : Claims} {corrections : String → ℕ} {number : ℤ}
    {state : TrackerState} (h : Tracks claims corrections number state) {marketTicker : String}
    (hfree : claims.get? marketTicker = none) :
    state.tracker.get marketTicker = unresolvedMarket marketTicker := by
  rw [ResolutionTracker.get, h.markets, hfree]
  rfl

theorem Tracks.get_claimed {claims : Claims} {corrections : String → ℕ} {number : ℤ}
    {state : TrackerState} (h : Tracks claims corrections number state) {marketTicker : String}
    {claim : MarketClaim} (hclaim : claims.get? marketTicker = some claim) :
    state.tracker.get marketTicker =
      settledMarket marketTicker claim.resolution.outcome (corrections marketTicker) := by
  rw [ResolutionTracker.get, h.markets, hclaim]
  rfl

/-- The machine after the market of a claim has been settled by it, and no other market touched. -/
theorem Tracks.settled {claims : Claims} {corrections later : String → ℕ} {number next : ℤ}
    {state after : TrackerState} (h : Tracks claims corrections number state) (claim : MarketClaim)
    (hcount : ∀ marketTicker, marketTicker ≠ claim.resolution.marketTicker →
      later marketTicker = corrections marketTicker)
    (hmarkets : ∀ marketTicker, after.tracker.resolutions.get? marketTicker =
      if marketTicker = claim.resolution.marketTicker then
        some (settledMarket marketTicker claim.resolution.outcome (later marketTicker))
      else state.tracker.resolutions.get? marketTicker)
    (hposition : ∀ position, after.previousSequence = some position → position < next) :
    Tracks (claims.set claim.resolution.marketTicker claim) later next after := by
  refine ⟨fun marketTicker => ?_, fun marketTicker hfree => ?_, hposition⟩
  · rw [hmarkets, OrderedDict.get?_set]
    by_cases hsame : marketTicker = claim.resolution.marketTicker
    · rw [if_pos hsame, if_pos hsame]
      rfl
    · rw [if_neg hsame, if_neg hsame, h.markets, hcount marketTicker hsame]
  · rw [OrderedDict.get?_set] at hfree
    by_cases hsame : marketTicker = claim.resolution.marketTicker
    · rw [if_pos hsame] at hfree
      cases hfree
    · rw [if_neg hsame] at hfree
      rw [hcount marketTicker hsame]
      exact h.unclaimed marketTicker hfree

/-- **One row.**  The machine takes the events of a row that the fold accepts. -/
theorem foldRow_tracked {claims after : Claims} {corrections : String → ℕ} {number : ℤ}
    {state : TrackerState} {row : EvaluationRow} (h : Tracks claims corrections number state)
    (hrow : foldRow claims row = .ok after) :
    ∃ later, (settlementEventsOf claims number row).foldlM trackEvent state = .ok later ∧
      Tracks after
        (fun marketTicker => corrections marketTicker + if row.corrects marketTicker then 1 else 0)
        (number + (settlementEventsOf claims number row).length) later := by
  cases foldRow_ok_iff.mp hrow with
  | ignored hevent =>
    have hnone : settlementEventsOf claims number row = [] := by
      unfold settlementEventsOf
      cases hrow : row.event <;> first | rfl | (rw [hrow] at hevent; cases hevent)
    have hcorrects := fun marketTicker => (row.not_settlement hevent marketTicker).1
    refine ⟨state, by rw [hnone]; rfl, ?_⟩
    simpa [hnone, hcorrects] using h
  | @first resolution hevent hfree =>
    have hevents : settlementEventsOf claims number row =
        [settlementOf number resolution.marketTicker resolution.outcome] := by
      simp only [settlementEventsOf, hevent, hfree]
    have hcorrects : ∀ marketTicker, row.corrects marketTicker = false := by
      intro marketTicker
      rw [EvaluationRow.corrects, hevent]
    have hopen := h.get_unclaimed hfree
    have htaken := trackEvent_settlement resolution.outcome h.position
      (by rw [hopen]; exact ResolutionStatus.noConfusion : (state.tracker.get resolution.marketTicker).status ≠ .resolved)
    rw [hopen] at htaken
    rw [hevents, List.foldlM_cons, htaken]
    refine ⟨_, rfl, h.settled ⟨row.sequenceNumber, resolution⟩ (fun _ _ => ?_)
      (fun marketTicker => ?_) ?_⟩
    · simp [hcorrects]
    · rw [OrderedDict.get?_set]
      by_cases hsame : marketTicker = resolution.marketTicker
      · subst hsame
        rw [if_pos rfl, if_pos rfl, h.unclaimed _ hfree, hcorrects]
        rfl
      · rw [if_neg hsame, if_neg hsame]
    · rintro _ ⟨⟩
      exact Int.lt_succ number
  | @restated resolution existing hevent hclaim hagree =>
    have hnone : settlementEventsOf claims number row = [] := by
      simp only [settlementEventsOf, hevent, hclaim, hagree, Bool.false_eq_true, if_false]
    have hcorrects : ∀ marketTicker, row.corrects marketTicker = false := by
      intro marketTicker
      rw [EvaluationRow.corrects, hevent]
    refine ⟨state, by rw [hnone]; rfl, ?_⟩
    simpa [hnone, hcorrects] using h
  | @corrected correction claim hevent hclaim hnames =>
    have hevents : settlementEventsOf claims number row =
        [reversalOf number correction.claim.marketTicker,
          settlementOf (number + 1) correction.claim.marketTicker correction.claim.outcome] := by
      simp only [settlementEventsOf, hevent]
    have hcorrects : ∀ marketTicker, row.corrects marketTicker =
        decide (correction.claim.marketTicker = marketTicker) := by
      intro marketTicker
      rw [EvaluationRow.corrects, hevent]
    have hsettled := h.get_claimed hclaim
    have hreversed := trackEvent_reversal h.position
      (by rw [hsettled]; rfl : (state.tracker.get correction.claim.marketTicker).status = .resolved)
    rw [hsettled] at hreversed
    -- between its two events the market of the correction is reversed
    let between : TrackerState :=
      ⟨⟨state.tracker.resolutions.set correction.claim.marketTicker
        (reversedMarket correction.claim.marketTicker
          (corrections correction.claim.marketTicker + 1))⟩, some number⟩
    have hbetween : between.tracker.get correction.claim.marketTicker =
        reversedMarket correction.claim.marketTicker
          (corrections correction.claim.marketTicker + 1) := by
      rw [ResolutionTracker.get, OrderedDict.get?_set_self]
      rfl
    have hlater : ∀ position, between.previousSequence = some position → position < number + 1 := by
      rintro _ ⟨⟩
      exact Int.lt_succ number
    have hagain := trackEvent_settlement correction.claim.outcome hlater
      (by rw [hbetween]; exact ResolutionStatus.noConfusion :
        (between.tracker.get correction.claim.marketTicker).status ≠ .resolved)
    rw [hbetween] at hagain
    rw [hevents, List.foldlM_cons, hreversed]
    show ∃ later, List.foldlM trackEvent between [_] = .ok later ∧ _
    rw [List.foldlM_cons, hagain]
    refine ⟨_, rfl, h.settled ⟨row.sequenceNumber, correction.claim⟩
      (fun marketTicker hother => ?_) (fun marketTicker => ?_) ?_⟩
    · simp [hcorrects, Ne.symm hother]
    · rw [OrderedDict.get?_set, OrderedDict.get?_set]
      by_cases hsame : marketTicker = correction.claim.marketTicker
      · subst hsame
        simp [hcorrects, reversedMarket, settledMarket]
      · rw [if_neg hsame, if_neg hsame, if_neg hsame]
    · rintro _ ⟨⟩
      simp

/-- **A run.**  The machine takes the replay of a ledger that the fold accepts. -/
theorem foldRows_tracked : ∀ {rows : List EvaluationRow} {claims after : Claims}
    {corrections : String → ℕ} {number : ℤ} {state : TrackerState},
    Tracks claims corrections number state → rows.foldlM foldRow claims = .ok after →
    ∃ later next, (replayFrom claims number rows).foldlM trackEvent state = .ok later ∧
      Tracks after (fun marketTicker => corrections marketTicker + correctionCount rows marketTicker)
        next later
  | [], claims, after, corrections, number, state, h, hfold => by
    cases hfold
    exact ⟨state, number, rfl, h⟩
  | row :: rest, claims, after, corrections, number, state, h, hfold => by
    rw [List.foldlM_cons] at hfold
    obtain ⟨between, hrow, hrest⟩ := Effects.except_bind_ok.mp hfold
    obtain ⟨middle, hmiddle, htracks⟩ := foldRow_tracked h hrow
    obtain ⟨later, next, hlater, hend⟩ := foldRows_tracked htracks hrest
    refine ⟨later, next, ?_, ?_⟩
    · unfold replayFrom
      rw [hrow]
      show List.foldlM trackEvent state (_ ++ _) = _
      rw [List.foldlM_append, hmiddle]
      exact hlater
    · convert hend using 2 with marketTicker
      rw [correctionCount, correctionCount, List.countP_cons]
      omega

/-- **The replay of a ledger** is a legal run with the outcomes of its claims and one reversal for
each correction. -/
theorem foldResolutions_tracked {rows : List EvaluationRow} {claims : Claims}
    (h : foldResolutions rows = .ok claims) :
    ∃ tracker, ResolutionTracker.fromLedger (replaySettlements rows) = .ok tracker ∧
      ∀ marketTicker,
        tracker.resolvedOutcomes.get? marketTicker =
          (resolutionOutcomes (ingestedResolutions claims)).get? marketTicker ∧
        (tracker.get marketTicker).reversalCount = correctionCount rows marketTicker := by
  have hinit : Tracks OrderedDict.empty (fun _ => 0) 1 TrackerState.init := by
    refine ⟨fun _ => rfl, fun _ _ => rfl, ?_⟩
    rintro _ ⟨⟩
  obtain ⟨later, next, hlater, htracks⟩ := foldRows_tracked hinit h
  refine ⟨later.tracker, ?_, fun marketTicker => ?_⟩
  · rw [ResolutionTracker.fromLedger, replaySettlements, hlater]
    rfl
  · have houtcomes : (resolutionOutcomes (ingestedResolutions claims)).get? marketTicker =
        (claims.get? marketTicker).map fun claim => claim.resolution.outcome :=
      get?_projected (foldResolutions_marketClaimsOf h) (·.outcome) marketTicker
    rw [ResolutionTracker.resolvedOutcomes, OrderedDict.get?_filterMapValues, htracks.markets,
      houtcomes]
    cases hclaim : claims.get? marketTicker with
    | none =>
      rw [htracks.get_unclaimed hclaim]
      exact ⟨rfl, (htracks.unclaimed marketTicker hclaim).symm.trans (Nat.zero_add _)⟩
    | some claim =>
      rw [htracks.get_claimed hclaim]
      exact ⟨rfl, Nat.zero_add _⟩

/-- **A ledger correction means a settlement reversal.**  The replay of an accepted ledger is a legal
run with the same outcomes and a reversal for each correction; a row that makes the run illegal is
refused; and the last correction of a market, or its first resolution, carries its claim. -/
theorem correction_means_reversal {rows : List EvaluationRow} {claims : Claims}
    (h : foldResolutions rows = .ok claims) :
    (∃ tracker, ResolutionTracker.fromLedger (replaySettlements rows) = .ok tracker ∧
      ∀ marketTicker,
        tracker.resolvedOutcomes.get? marketTicker =
          (resolutionOutcomes (ingestedResolutions claims)).get? marketTicker ∧
        (tracker.get marketTicker).reversalCount = correctionCount rows marketTicker) ∧
    (∀ row illegal,
      ResolutionTracker.fromLedger (replaySettlements (rows ++ [row])) = .error illegal →
        ∃ refusal, foldResolutions (rows ++ [row]) = .error refusal) ∧
    ∀ marketTicker,
      claims.get? marketTicker = (carrierOf rows marketTicker).bind (·.claim) := by
  refine ⟨foldResolutions_tracked h, fun row illegal hillegal => ?_, claims_of_carriers rows h⟩
  cases hfold : foldResolutions (rows ++ [row]) with
  | error refusal => exact ⟨refusal, rfl⟩
  | ok after =>
    obtain ⟨tracker, htracker, -⟩ := foldResolutions_tracked hfold
    cases hillegal.symm.trans htracker

/-- A market that settles, is restated and is corrected, beside one that only settles. -/
def correctedLedger : List EvaluationRow :=
  [⟨1, .aware 10, .marketResolved (.ok ⟨"KX", .yes, 5, "operator"⟩)⟩,
   ⟨2, .aware 11, .marketResolved (.ok ⟨"KY", .no, 6, "operator"⟩)⟩,
   ⟨3, .aware 12, .marketResolved (.ok ⟨"KX", .yes, 5, "exchange"⟩)⟩,
   ⟨4, .aware 13, .settlementReversed (.ok ⟨1, ⟨"KX", .no, 7, "exchange"⟩⟩)⟩]

theorem correctedLedger_means_reversal :
    ∃ claims, foldResolutions correctedLedger = .ok claims ∧
      (∃ tracker, ResolutionTracker.fromLedger (replaySettlements correctedLedger) = .ok tracker ∧
        ∀ marketTicker,
          tracker.resolvedOutcomes.get? marketTicker =
            (resolutionOutcomes (ingestedResolutions claims)).get? marketTicker ∧
          (tracker.get marketTicker).reversalCount = correctionCount correctedLedger marketTicker) ∧
      ∀ marketTicker,
        claims.get? marketTicker = (carrierOf correctedLedger marketTicker).bind (·.claim) := by
  have h : ∃ claims, foldResolutions correctedLedger = .ok claims := ⟨_, rfl⟩
  obtain ⟨claims, hclaims⟩ := h
  have hmeans := correction_means_reversal hclaims
  exact ⟨claims, hclaims, hmeans.1, hmeans.2.2⟩

end Windbreak
