import Windbreak.Core.Runs
import Windbreak.Forecast.SpendComplete

/-!
# How long a drift blocks

A breach blocks a span of instants, and eligibility is asked for any of them at any later time.  What
a later call does to the blocked instants of a dimension is read off the change that it makes to the
window; over a run the blocks stay as long as no breach re-arms an acknowledged window.
-/

namespace Windbreak

/-! ## Windows -/

theorem isBlocked_iff {window : DriftWindow} {createdAt : ℤ} :
    window.isBlocked createdAt = true ↔
      ∃ drifted, window.driftedAt = some drifted ∧ drifted ≤ createdAt ∧
        ∀ acked, window.ackedAt = some acked → createdAt < acked := by
  rw [DriftWindow.isBlocked]
  cases hdrifted : window.driftedAt with
  | none => simp
  | some drifted => cases hacked : window.ackedAt <;> simp

/-- Does a breach re-arm an acknowledged window that blocks some instant? -/
def DriftWindow.rearmedBy (window : DriftWindow) (checkedAt : ℤ) : Bool :=
  window.driftedAt.any fun drifted => window.ackedAt.any fun acked =>
    decide (drifted < acked ∧ acked ≤ checkedAt)

theorem rearmedBy_iff {window : DriftWindow} {checkedAt : ℤ} :
    window.rearmedBy checkedAt = true ↔
      ∃ drifted acked, window.driftedAt = some drifted ∧ window.ackedAt = some acked ∧
        drifted < acked ∧ acked ≤ checkedAt := by
  rw [DriftWindow.rearmedBy]
  cases hdrifted : window.driftedAt with
  | none => simp
  | some drifted => cases hacked : window.ackedAt <;> simp

/-- Keeping the earliest breach loses no blocked instant. -/
theorem isBlocked_keepEarliest {window : DriftWindow} {createdAt : ℤ} (checkedAt : ℤ)
    (h : window.isBlocked createdAt = true) :
    (window.keepEarliest checkedAt).isBlocked createdAt = true := by
  obtain ⟨drifted, hdrifted, hle, hacked⟩ := isBlocked_iff.mp h
  rw [DriftWindow.keepEarliest, hdrifted]
  dsimp only
  by_cases hearlier : checkedAt < drifted
  · rw [if_pos hearlier]
    exact isBlocked_iff.mpr ⟨checkedAt, rfl, by omega, hacked⟩
  · rw [if_neg hearlier]
    exact h

/-- **What a breach can lose.**  A breach unblocks some instant exactly when it re-arms the window. -/
theorem registerBreach_loses_iff (window : DriftWindow) (checkedAt : ℤ) :
    (∃ createdAt, window.isBlocked createdAt = true ∧
      (window.registerBreach checkedAt).isBlocked createdAt = false) ↔
    window.rearmedBy checkedAt = true := by
  rw [rearmedBy_iff]
  constructor
  · rintro ⟨createdAt, hblocked, hlost⟩
    obtain ⟨drifted, hdrifted, hle, hacked⟩ := isBlocked_iff.mp hblocked
    rw [DriftWindow.registerBreach] at hlost
    cases hack : window.ackedAt with
    | none =>
        rw [hack] at hlost
        dsimp only at hlost
        rw [isBlocked_keepEarliest checkedAt hblocked] at hlost
        cases hlost
    | some acked =>
        rw [hack] at hlost
        dsimp only at hlost
        by_cases hrearm : acked ≤ checkedAt
        · have hlt := hacked acked hack
          exact ⟨drifted, acked, hdrifted, rfl, by omega, hrearm⟩
        · rw [if_neg hrearm, isBlocked_keepEarliest checkedAt hblocked] at hlost
          cases hlost
  · rintro ⟨drifted, acked, hdrifted, hack, hlt, hrearm⟩
    refine ⟨drifted, isBlocked_iff.mpr ⟨drifted, hdrifted, le_refl drifted, ?_⟩, ?_⟩
    · intro acked' hack'
      rw [hack] at hack'
      cases hack'
      exact hlt
    · rw [DriftWindow.registerBreach, hack]
      dsimp only
      rw [if_pos hrearm, Bool.eq_false_iff, Ne, isBlocked_iff]
      rintro ⟨start, hstart, hle, -⟩
      cases hstart
      omega

/-- An acknowledgement unblocks instants at or after it only. -/
theorem isBlocked_ack {window : DriftWindow} {createdAt acked : ℤ}
    (h : window.isBlocked createdAt = true) (hbefore : createdAt < acked) :
    ({ window with ackedAt := some acked } : DriftWindow).isBlocked createdAt = true := by
  obtain ⟨drifted, hdrifted, hle, -⟩ := isBlocked_iff.mp h
  refine isBlocked_iff.mpr ⟨drifted, hdrifted, hle, fun acked' hacked' => ?_⟩
  cases hacked'
  exact hbefore

/-! ## Runs -/

/-- What happens: a call of the gate, or a full run that asks it. -/
inductive LiveOp where
  | canary (call : CanaryOp)
  | fullRun (run : PipelineRun) (books : BudgetBooks)

/-- A full run that asks the gate of a world. -/
def PipelineRun.gatedBy (run : PipelineRun) (gate : CanaryGate) : PipelineRun :=
  { run with canaryGate := some gate }

/-- The record that a run returns, if it returns one. -/
def returnedRecord : EStateM.Result PipelineError PipelineState ForecastRecord →
    Option ForecastRecord
  | .ok record _ => some record
  | .error _ _ => none

/-- One step, with the record that it produces. -/
def liveStep (w : CanaryWorld) : LiveOp → Option ForecastRecord × CanaryWorld
  | .canary call => (none, (canaryStep w call).2)
  | .fullRun run books =>
    (returnedRecord ((runPipeline (run.gatedBy w.gate)).run ⟨books, 0⟩), w)

/-- Does a step acknowledge a dimension, dated at or before an instant? -/
def LiveOp.acknowledges (key : DriftDimension) (createdAt : ℤ) : LiveOp → Bool
  | .canary (.acknowledge (some acked) _ provider) =>
    decide (provider = key) && decide (acked ≤ createdAt)
  | _ => false

/-- Does a change leave every blocked instant blocked, or acknowledge? -/
def CanaryGate.keepsBlocks (gate : CanaryGate) : WindowChange → Bool
  | .breach key checkedAt => !(gate.window key).rearmedBy checkedAt
  | .ack _ _ => true

/-- May a provider vote, at an instant, without being blocked by its own window? -/
def CanaryGate.admitsVote (gate : CanaryGate) (createdAt : UtcInstant) : VoteOutcome → Bool
  | .returned forecast =>
    forecast.abstain || !gate.isDimensionBlocked (some forecast.provider) createdAt.micros
  | _ => true

/-- A breach that re-arms no acknowledged window, and a full run none of whose voting providers has
a window that blocks its instant. -/
def LiveOp.clear (w : CanaryWorld) : LiveOp → Bool
  | .canary call => (call.change w.gate).all w.gate.keepsBlocks
  | .fullRun run _ => run.createdAt.all fun createdAt =>
    run.outside.votes.all fun call => w.gate.admitsVote createdAt call.outcome

/-- Only an acknowledgement changes a window as one does. -/
theorem acknowledges_of_change {w : CanaryWorld} {call : CanaryOp} {key : DriftDimension}
    {acked createdAt : ℤ} (h : call.change w.gate = some (.ack key acked)) :
    (LiveOp.canary call).acknowledges key createdAt = decide (acked ≤ createdAt) := by
  cases call with
  | applyRun result checkedAt seams provider =>
      obtain ⟨checked, -, h⟩ := Option.bind_eq_some_iff.mp h
      split at h <;> cases h
  | applyVersionDrift provider reportedVersion pinnedVersions checkedAt seams =>
      obtain ⟨checked, -, h⟩ := Option.bind_eq_some_iff.mp h
      split at h <;> cases h
  | acknowledge ackedAt seams provider =>
      obtain ⟨instant, hacked, h⟩ := Option.bind_eq_some_iff.mp h
      split at h
      · cases h
        rw [hacked]
        simp [LiveOp.acknowledges]
      · cases h

/-- One step keeps an instant blocked, unless it acknowledges the dimension in time. -/
theorem liveStep_blocked {w : CanaryWorld} {step : LiveOp} (hclear : step.clear w = true)
    {key : DriftDimension} {createdAt : ℤ}
    (hblocked : w.gate.isDimensionBlocked key createdAt = true)
    (hunacked : step.acknowledges key createdAt = false) :
    (liveStep w step).2.gate.isDimensionBlocked key createdAt = true := by
  cases step with
  | fullRun run books => exact hblocked
  | canary call =>
      have hwindow := canaryStep_window w call key
      rw [CanaryGate.isDimensionBlocked] at hblocked ⊢
      change ((canaryStep w call).2.gate.window key).isBlocked createdAt = true
      rw [hwindow]
      rw [LiveOp.clear] at hclear
      cases hchange : call.change w.gate with
      | none => exact hblocked
      | some change =>
          rw [hchange] at hclear
          dsimp only [Option.elim_some]
          by_cases hkey : key = change.key
          · rw [if_pos hkey]
            cases change with
            | breach other checkedAt =>
                cases hkey
                -- a breach that loses an instant re-arms the window
                by_contra hlost
                have hrearmed := (registerBreach_loses_iff _ checkedAt).mp
                  ⟨createdAt, hblocked, Bool.eq_false_iff.mpr hlost⟩
                rw [Option.all_some, CanaryGate.keepsBlocks, Bool.not_eq_true'] at hclear
                exact Bool.false_ne_true (hclear.symm.trans hrearmed)
            | ack other acked =>
                cases hkey
                change (LiveOp.canary call).acknowledges other createdAt = false at hunacked
                rw [acknowledges_of_change hchange, decide_eq_false_iff_not, not_le] at hunacked
                exact isBlocked_ack hblocked hunacked
          · rw [if_neg hkey]
            exact hblocked

/-! ## Full runs -/

/-- The forecasts that a vote stage collects are what its providers returned. -/
theorem collected_returned {run : PipelineRun} {calls : List VoteCall}
    {collection collected : VoteCollection} {s s' : PipelineState}
    (h : (collectProviderForecasts run calls collection).run s = .ok collected s') :
    ∀ forecast ∈ collected.forecasts, forecast ∈ collection.forecasts ∨
      ∃ call ∈ calls, run.voteOutcome call = .returned forecast := by
  induction calls generalizing collection s with
  | nil =>
      cases h
      exact fun forecast hforecast => .inl hforecast
  | cons call calls ih =>
      rw [collectProviderForecasts] at h
      cases houtcome : run.voteOutcome call with
      | raised text =>
          rw [houtcome] at h
          cases h
      | failed failed =>
          rw [houtcome] at h
          obtain ⟨_, _, _, h⟩ := Effects.run_bind_ok.mp h
          obtain ⟨_, _, _, h⟩ := Effects.run_bind_ok.mp h
          intro forecast hforecast
          rcases ih h forecast hforecast with hbefore | ⟨other, hother, hreturned⟩
          · exact .inl hbefore
          · exact .inr ⟨other, List.mem_cons_of_mem call hother, hreturned⟩
      | returned returned =>
          rw [houtcome] at h
          obtain ⟨_, _, _, h⟩ := Effects.run_bind_ok.mp h
          obtain ⟨_, _, _, h⟩ := Effects.run_bind_ok.mp h
          intro forecast hforecast
          rcases ih h forecast hforecast with hbefore | ⟨other, hother, hreturned⟩
          · rcases List.mem_append.mp hbefore with hbefore | hnew
            · exact .inl hbefore
            · rw [List.mem_singleton.mp hnew]
              exact .inr ⟨call, List.mem_cons_self, houtcome⟩
          · exact .inr ⟨other, List.mem_cons_of_mem call hother, hreturned⟩

/-- What backs a live-eligible record: its run's instant, at which the gate is open, and votes that
its providers returned. -/
structure LiveBacked (run : PipelineRun) (record : ForecastRecord) : Prop where
  createdAt : run.createdAt = some record.createdAt
  gate : liveGateOpen run.canaryGate record.createdAt = true
  votes : ∀ vote ∈ record.modelVotes, ∃ call ∈ run.outside.votes, ∃ forecast,
    run.voteOutcome call = .returned forecast ∧ forecast.abstain = false ∧
      vote = buildModelVote forecast

/-- The votes of a live-eligible record come from settled calls. -/
theorem aggregate_backed {run : PipelineRun} {collection : VoteCollection}
    {citations : List Citation} {verifiedCount : ℤ} {record : ForecastRecord}
    (hreturned : ∀ forecast ∈ collection.forecasts, ∃ call ∈ run.outside.votes,
      run.voteOutcome call = .returned forecast)
    (h : recordOfVotes run collection citations verifiedCount = .ok record)
    (heligible : record.eligibleForLive = true) : LiveBacked run record := by
  rw [recordOfVotes] at h
  cases hshort : collection.shortfall run.minEnsembleVotes with
  | some reason =>
      rw [hshort] at h
      rw [(buildAbstentionRecord_ok h).2] at heligible
      cases heligible
  | none =>
      rw [hshort] at h
      obtain ⟨hfull, hvotes, hgates⟩ := aggregateIntoRecord_ok h
      refine ⟨hfull.createdAt, ?_, fun vote hvote => ?_⟩
      · rw [fullRunEligibleForLive, heligible] at hgates
        split at hgates
        · rename_i hopen
          exact (Bool.and_eq_true_iff.mp hopen).1
        · cases hgates
      · rw [hvotes, VoteCollection.modelVotes] at hvote
        obtain ⟨forecast, hforecast, rfl⟩ := List.mem_map.mp hvote
        obtain ⟨hmem, hvoting⟩ := List.mem_filter.mp hforecast
        obtain ⟨call, hcall, hreturned⟩ := hreturned forecast hmem
        exact ⟨call, hcall, forecast, hreturned, Bool.not_eq_true' _ ▸ hvoting, rfl⟩

/-- **A live-eligible record is backed.** -/
theorem runPipeline_backed {run : PipelineRun} {s s' : PipelineState} {record : ForecastRecord}
    (h : (runPipeline run).run s = .ok record s') (heligible : record.eligibleForLive = true) :
    LiveBacked run record := by
  rw [runPipeline] at h
  by_cases hvotes : run.minEnsembleVotes < 1
  · rw [if_pos hvotes] at h
    cases h
  · rw [if_neg hvotes] at h
    cases hscreen : run.marketScreen with
    | some error =>
        rw [hscreen] at h
        cases h
    | none =>
        rw [hscreen] at h
        obtain ⟨maxPages, _, _, h⟩ := Effects.run_bind_ok.mp h
        rw [researchAndVote] at h
        obtain ⟨_, _, _, h⟩ := Effects.run_bind_ok.mp h
        obtain ⟨evidence, _, _, h⟩ := Effects.run_bind_ok.mp h
        dsimp only at h
        by_cases hverified : evidence.2 = 0
        · rw [if_pos hverified] at h
          obtain ⟨_, s₁, _, h⟩ := Effects.run_bind_ok.mp h
          rw [ofExcept_run] at h
          cases hbuilt : buildAbstentionRecord run evidence.1 .noVerifiedCitations with
          | error e =>
              rw [hbuilt] at h
              cases h
          | ok built =>
              rw [hbuilt] at h
              cases h
              rw [(buildAbstentionRecord_ok hbuilt).2] at heligible
              cases heligible
        · rw [if_neg hverified, voteAndAggregate] at h
          obtain ⟨collection, _, hcollected, h⟩ := Effects.run_bind_ok.mp h
          obtain ⟨_, _, _, h⟩ := Effects.run_bind_ok.mp h
          rw [ofExcept_run] at h
          cases hbuilt : recordOfVotes run collection evidence.1 evidence.2 with
          | error e =>
              rw [hbuilt] at h
              cases h
          | ok built =>
              rw [hbuilt] at h
              cases h
              refine aggregate_backed (fun forecast hforecast => ?_) hbuilt heligible
              rcases collected_returned hcollected forecast hforecast with hnone | hreturned
              · exact absurd hnone List.not_mem_nil
              · exact hreturned

/-! ## The claim about runs -/

/-- A record that neither the pinned canary model nor any provider it has a vote of blocks. -/
structure Unblocked (gate : CanaryGate) (record : ForecastRecord) : Prop where
  pinned : gate.isLiveBlocked record.createdAt.micros none = false
  providers : ∀ vote ∈ record.modelVotes,
    gate.isLiveBlocked record.createdAt.micros (some vote.provider) = false

/-- What drift is to do over a run: no live-eligible record is produced that a window blocks, and
what is blocked stays so until it is acknowledged in time. -/
structure DriftBlocks (w : CanaryWorld) (steps : List LiveOp) : Prop where
  eligible : ∀ t ∈ Machine.trace liveStep w steps, ∀ record, t.output = some record →
    record.eligibleForLive = true → Unblocked t.pre.gate record
  sticky : ∀ before between after, steps = before ++ between ++ after → ∀ key createdAt,
    (Machine.run liveStep w before).gate.isDimensionBlocked key createdAt = true →
    (∀ step ∈ between, step.acknowledges key createdAt = false) →
    (Machine.run liveStep w (before ++ between)).gate.isDimensionBlocked key createdAt = true

/-- The record of a clear full run is unblocked where it is live-eligible. -/
theorem fullRun_unblocked {w : CanaryWorld} {run : PipelineRun} {books : BudgetBooks}
    (hclear : (LiveOp.fullRun run books).clear w = true) {record : ForecastRecord}
    (hrecord : (liveStep w (.fullRun run books)).1 = some record)
    (heligible : record.eligibleForLive = true) : Unblocked w.gate record := by
  have hbacked : LiveBacked (run.gatedBy w.gate) record := by
    rw [liveStep] at hrecord
    cases hresult : (runPipeline (run.gatedBy w.gate)).run ⟨books, 0⟩ with
    | error e s' =>
        rw [hresult] at hrecord
        cases hrecord
    | ok returned s' =>
        rw [hresult] at hrecord
        cases hrecord
        exact runPipeline_backed hresult heligible
  have hpinned : w.gate.isLiveBlocked record.createdAt.micros none = false :=
    Bool.not_eq_true' _ ▸ hbacked.gate
  have hopen : w.gate.isDimensionBlocked none record.createdAt.micros = false :=
    (Bool.or_eq_false_iff.mp hpinned).1
  refine ⟨hpinned, fun vote hvote => ?_⟩
  obtain ⟨call, hcall, forecast, hreturned, hvoting, rfl⟩ := hbacked.votes vote hvote
  have houtcome : call.outcome = .returned forecast := by
    rw [PipelineRun.voteOutcome] at hreturned
    cases hscreen : (run.gatedBy w.gate).marketScreen with
    | some error =>
        rw [hscreen] at hreturned
        cases hreturned
    | none =>
        rw [hscreen] at hreturned
        exact hreturned
  have hcreated : run.createdAt = some record.createdAt := hbacked.createdAt
  rw [LiveOp.clear, hcreated, Option.all_some, List.all_eq_true] at hclear
  have hadmits := hclear call hcall
  rw [houtcome, CanaryGate.admitsVote, hvoting, Bool.false_or, Bool.not_eq_true'] at hadmits
  rw [CanaryGate.isLiveBlocked, hopen, Bool.false_or]
  exact hadmits

/-- **Drift blocks.**  It does over every run in which no breach re-arms an acknowledged window and
no full run has a vote from a provider whose own window blocks its instant. -/
theorem drift_blocks_of_clear (w : CanaryWorld) (steps : List LiveOp)
    (hclear : ∀ t ∈ Machine.trace liveStep w steps, t.input.clear t.pre = true) :
    DriftBlocks w steps := by
  constructor
  · intro t ht record hrecord heligible
    have hstep := hclear t ht
    obtain ⟨before, after, -, htransition⟩ := Machine.mem_trace.mp ht
    have houtput : t.output = (liveStep t.pre t.input).1 := by rw [htransition]; rfl
    rw [houtput] at hrecord
    cases hinput : t.input with
    | canary call =>
        rw [hinput] at hrecord
        cases hrecord
    | fullRun run books =>
        rw [hinput] at hrecord hstep
        exact fullRun_unblocked hstep hrecord heligible
  · intro before between after hsteps key createdAt hblocked hunacked
    rw [Machine.run_append]
    refine Machine.run_invariant_of_guard
      (I := fun w : CanaryWorld => w.gate.isDimensionBlocked key createdAt = true)
      (G := fun t : Machine.Transition CanaryWorld LiveOp (Option ForecastRecord) =>
        t.input.clear t.pre = true ∧ t.input.acknowledges key createdAt = false)
      (fun s i hs hG => liveStep_blocked hG.1 hs hG.2) hblocked fun t ht => ?_
    refine ⟨hclear t ?_, ?_⟩
    · rw [hsteps, Machine.trace_append, Machine.trace_append]
      exact List.mem_append_left _ (List.mem_append_right _ ht)
    · obtain ⟨pre, post, hbetween, -⟩ := Machine.mem_trace.mp ht
      exact hunacked t.input (hbetween ▸ List.mem_append_right pre List.mem_cons_self)

/-- A gate that has seen nothing. -/
def freshCanaryWorld : CanaryWorld := ⟨⟨100000, .empty⟩, [], []⟩

/-- A breach of a dimension. -/
def breachCall (provider : Option String) (checkedAt : ℤ) : CanaryOp :=
  .applyRun ⟨500000, "q1", 10⟩ (some checkedAt) ⟨true, true⟩ provider

/-- An acknowledgement of a dimension. -/
def ackCall (provider : Option String) (ackedAt : ℤ) : CanaryOp :=
  .acknowledge (some ackedAt) ⟨true, true⟩ provider

/-- A provider drifts after the instant of a run, and is acknowledged later. -/
theorem drift_blocks_once :
    (∃ t ∈ Machine.trace liveStep freshCanaryWorld
        [.canary (breachCall (some "openai") 10), .fullRun paidRun ⟨.empty, []⟩,
          .canary (ackCall (some "openai") 20)],
      (t.output.any fun record => record.eligibleForLive) = true) ∧
    DriftBlocks freshCanaryWorld
      [.canary (breachCall (some "openai") 10), .fullRun paidRun ⟨.empty, []⟩,
        .canary (ackCall (some "openai") 20)] :=
  ⟨by decide +kernel, drift_blocks_of_clear _ _ (by decide +kernel)⟩

/-- **Drift that does not block.**  The gate is asked about no provider, so a record with a vote of a
provider that drifted before its instant is live-eligible.  And where the pinned model drifts at 10
and is acknowledged as of 20, a new breach at 30 opens a new window, and a record of 15 is no longer
blocked. -/
theorem drift_does_not_block :
    (∃ t ∈ Machine.trace liveStep freshCanaryWorld
        [.canary (breachCall (some "openai") (-10)), .fullRun paidRun ⟨.empty, []⟩],
      (t.output.any fun record => record.eligibleForLive &&
        record.modelVotes.any fun vote =>
          t.pre.gate.isLiveBlocked record.createdAt.micros (some vote.provider)) = true) ∧
    ¬ ∀ (w : CanaryWorld) (steps : List LiveOp), DriftBlocks w steps := by
  refine ⟨by decide +kernel, fun h => ?_⟩
  have hblocked := (h freshCanaryWorld
    [.canary (breachCall none 10), .canary (ackCall none 20), .canary (breachCall none 30)]).sticky
    [.canary (breachCall none 10)] [.canary (ackCall none 20), .canary (breachCall none 30)] []
    rfl none 15 (by decide) (by decide)
  exact absurd hblocked (by decide)

end Windbreak
