import Windbreak.RiskKernel.Kernel
import Windbreak.RiskKernel.LedgerRuns

/-!
# Does a recorded breach halt?

A cycle records its breach, alerts, and only then hands the snapshot to the kernel that halts on
it.  The record comes first so that an alert that raises cannot lose it; but such an alert takes
the snapshot with it, and the halt is driven by the snapshot.

* **`mismatch_halts_iff`** — a cycle that records a mismatch ends in `HALT` or `KILLED` exactly
  when the kernel was there already or every alert of the breach returned.
* **`mismatch_not_halted`** — one held market the venue cannot look up is enough.
-/

namespace Windbreak

open Effects

/-- The kernel is in `HALT` or in `KILLED`. -/
def Halted (w : KernelWorld) : Prop := w.mode = .HALT ∨ w.mode = .KILLED

/-- A mismatch was recorded between two states. -/
def MismatchRecorded (w w' : KernelWorld) : Prop :=
  ∃ event ∈ w'.log.drop w.log.length, event.eventType = "VerificationMismatch"

theorem not_mismatchRecorded_of_log_eq {w w' : KernelWorld} (h : w'.log = w.log) :
    ¬ MismatchRecorded w w' := by
  rintro ⟨event, hmem, -⟩
  rw [h, List.drop_length] at hmem
  exact absurd hmem List.not_mem_nil

/-- When the cycle's own event is all that was recorded, a mismatch was recorded exactly on a
breach. -/
theorem mismatchRecorded_iff {w w' : KernelWorld} {snapshot : VerificationSnapshot}
    (h : w'.log = w.log ++ [verificationEvent snapshot]) :
    MismatchRecorded w w' ↔ snapshot.outcome = .BREACH := by
  rw [MismatchRecorded, h, List.drop_left]
  simp only [List.mem_singleton, exists_eq_left, verificationEvent, kernelEvent]
  cases snapshot.outcome <;> simp [eventTypeByOutcome]

/-- **A recorded mismatch halts exactly when the kernel was halted already or every alert of the
breach returned**, for every venue, every expectation and every state. -/
theorem mismatch_halts_iff (cfg : KernelConfig) (env : KernelEnv) (view : VerifierEnv)
    (w : KernelWorld) :
    let w' := finalState ((runVerificationCycle cfg env view).run w)
    (MismatchRecorded w w' → Halted w') ↔
      (MismatchRecorded w w' →
        Halted w ∨ BreachAlertsReturn env view.venue (observeVenue view.venue)) := by
  intro w'
  have hw' : w' = finalState ((runVerificationCycle cfg env view).run w) := rfl
  -- where no mismatch is recorded, both sides hold for that reason
  have hvacuous : ¬ MismatchRecorded w w' → ((MismatchRecorded w w' → Halted w') ↔
      (MismatchRecorded w w' →
        Halted w ∨ BreachAlertsReturn env view.venue (observeVenue view.venue))) :=
    fun h => iff_of_true (fun hrec => absurd hrec h) fun hrec => absurd hrec h
  rw [runVerificationCycle] at hw'
  cases htol : cfg.verifierTolerances with
  | none =>
      rw [htol] at hw'
      exact hvacuous (not_mismatchRecorded_of_log_eq (by rw [hw']; rfl))
  | some tolerances =>
      rw [htol] at hw'
      dsimp only at hw'
      rw [EStateM.run_bind, runCycle_run] at hw'
      cases hexp : view.expectations with
      | error text =>
          rw [hexp] at hw'
          exact hvacuous (not_mismatchRecorded_of_log_eq (by rw [hw']; rfl))
      | ok expectations =>
          rw [hexp] at hw'
          dsimp only at hw'
          set snapshot := cycleSnapshot tolerances expectations env.clock
            (observeVenue view.venue) with hsnapshot
          set event := verificationEvent snapshot with hevent
          by_cases hraise : env.recordRaises event = true
          · rw [if_pos hraise] at hw'
            exact hvacuous (not_mismatchRecorded_of_log_eq (by rw [hw']; rfl))
          · rw [if_neg hraise] at hw'
            set v := (w.noted (.record event)).logged event with hv
            have hvlog : v.log = w.log ++ [event] := rfl
            have hmachine := cycleAlerts_moves
              (R := fun s s' : KernelWorld => (s'.machine, s'.log) = (s.machine, s.log))
              (fun _ _ => rfl) env view.venue snapshot.outcome (observeVenue view.venue) v
            have hreturns := @cycleAlerts_returns env view.venue (observeVenue view.venue) v
            cases halerts : (cycleAlerts env view.venue snapshot.outcome
                (observeVenue view.venue)).run v with
            | ok a t =>
                rw [halerts] at hw' hmachine
                dsimp only at hw'
                obtain ⟨-, htlog⟩ := Prod.mk.inj hmachine
                rw [finalState_ok, hvlog] at htlog
                by_cases hbreach : snapshot.outcome = .BREACH
                · -- the alerts returned, so the snapshot reached the kernel
                  rw [hbreach] at halerts
                  have halerted := hreturns.mp ⟨a, t, halerts⟩
                  refine iff_of_true (fun _ => ?_) fun _ => Or.inr halerted
                  have hmode := absorbSnapshot_mode cfg env hbreach t
                  rw [← hw'] at hmode
                  exact hmode
                · refine hvacuous ?_
                  obtain ⟨u, hrun, hlog, -⟩ := absorbSnapshot_of_not_breach cfg env hbreach t
                  rw [hrun, finalState_ok] at hw'
                  rw [← hw', htlog] at hlog
                  exact fun hrec => hbreach ((mismatchRecorded_iff hlog).mp hrec)
            | error e t =>
                rw [halerts] at hw' hmachine
                dsimp only [finalState] at hw'
                obtain ⟨htmachine, htlog⟩ := Prod.mk.inj hmachine
                rw [finalState_error] at htmachine htlog
                rw [← hw'] at htmachine htlog
                by_cases hbreach : snapshot.outcome = .BREACH
                · -- the snapshot was lost with the alert, and the mode is what it was
                  have hnot : ¬ BreachAlertsReturn env view.venue (observeVenue view.venue) := by
                    intro halerted
                    rw [hbreach] at halerts
                    obtain ⟨a, t', hok⟩ := hreturns.mpr halerted
                    rw [halerts] at hok
                    cases hok
                  have hsame : Halted w' ↔ Halted w := by
                    rw [Halted, Halted, KernelWorld.mode, htmachine]
                    rfl
                  refine imp_congr_right fun _ => ?_
                  rw [hsame]
                  exact ⟨Or.inl, fun h => h.resolve_right hnot⟩
                · refine hvacuous ?_
                  rw [hvlog] at htlog
                  exact fun hrec => hbreach ((mismatchRecorded_iff htlog).mp hrec)

/-! ## A held market that cannot be looked up -/

/-- A venue that reports everything but the one market it holds a position in. -/
def unlookableVenue : ReadOnlyVenueView where
  getPositions := .ok [⟨"PRES-2028-DEM", ⟨1000⟩⟩]
  getOpenOrders := .ok []
  getAvailableBalance := .ok ⟨1000000000⟩
  balanceSemanticsFullyKnown := .ok true
  getMarket ticker := .error s!"unknown market: {ticker}"

/-- The ledger expected the account to be flat. -/
def flatExpectations : LedgerExpectations where
  expectedAvailableCash := ⟨1000000000⟩
  expectedPositions := .empty
  expectedOpenOrderIds := ∅

def unlookableView : VerifierEnv := ⟨.ok flatExpectations, unlookableVenue⟩

/-- An unexpected position is a recorded breach, the lookup of its market raises, and the kernel
goes on in `LIVE`. -/
theorem mismatch_not_halted :
    ¬ ∀ (cfg : KernelConfig) (view : VerifierEnv) (w : KernelWorld),
      let w' := finalState ((runVerificationCycle cfg .quiet view).run w)
      MismatchRecorded w w' → Halted w' := by
  intro hclaim
  let after := finalState ((runVerificationCycle sampleConfig .quiet unlookableView).run sampleWorld)
  have hlog : (after.log.map (·.eventType)) = ["VerificationMismatch"] := by decide +kernel
  have hmode : after.mode = .LIVE := by decide +kernel
  have hrecorded : MismatchRecorded sampleWorld after := by
    have hdrop : after.log.drop sampleWorld.log.length = after.log := rfl
    rw [MismatchRecorded, hdrop]
    have hmem : "VerificationMismatch" ∈ after.log.map (·.eventType) := by
      rw [hlog]
      exact List.mem_singleton_self _
    obtain ⟨event, hevent, htype⟩ := List.mem_map.mp hmem
    exact ⟨event, hevent, htype⟩
  have hhalted : Halted after := hclaim sampleConfig unlookableView sampleWorld hrecorded
  rw [Halted, hmode] at hhalted
  exact absurd hhalted (by decide)

end Windbreak
