import Windbreak.Forecast.Providers

/-!
# Retrying a vote

A vote is attempted until it succeeds, fails for good, or runs out of attempts, of time or of money.
The inner provider and the clock are outside: what the attempts return and what the clock reads is
given by two functions of the attempt.

* **`forecastFrom`** — the retry loop: gate the attempt at its list price, call, and on a transport
  fault wait and go on.
* **`voteRun`** — a vote with the calls and sleeps that it makes.
* **`vote_run_bounds`** — what is booked is what the attempts are charged; the attempts are bounded,
  and so are the sleeps.
-/

namespace Windbreak

/-! ## Policy -/

/-- How far a vote may go. -/
structure RetryPolicy where
  maxAttempts : ℕ
  totalDeadlineMs : ℤ
  backoffBaseMs : ℤ
  maxCostMicros : ℤ
  attempts_pos : 0 < maxAttempts
  deadline_pos : 0 < totalDeadlineMs
  backoff_pos : 0 < backoffBaseMs
  cost_pos : 0 < maxCostMicros

/-- A provider wrapped with retries. -/
structure RetryingProvider where
  providerName : String
  policy : RetryPolicy
  priceTable : ProviderPriceTable
  rateTable : ModelRateTable

/-- What is outside of a vote: the inner provider, attempt by attempt, and the clock, at the start
and after each failed attempt. -/
structure VoteEnv where
  inner : ℕ → VoteOutcome
  startMs : ℤ
  failedMs : ℕ → ℤ

/-- A sleep that is begun, with the reading of the clock before it. -/
structure Sleep where
  now : ℤ
  wait : ℤ
  deriving DecidableEq, Repr

/-- A vote: how it ends, what the inner provider answered, and the sleeps in between. -/
structure VoteRun where
  outcome : VoteOutcome
  calls : List VoteOutcome
  sleeps : List Sleep
  deriving DecidableEq

/-! ## The loop -/

/-- The list price of one attempt. -/
def RetryingProvider.price (p : RetryingProvider) : ℤ := p.priceTable.priceMicros p.providerName

/-- The wait before the next attempt: what the provider asks for, else exponential backoff. -/
def computeWait (policy : RetryPolicy) (error : ProviderVoteError) (attempt : ℕ) : ℤ :=
  match error.kind with
  | .rateLimited (some retryAfterSeconds) => retryAfterSeconds * 1000
  | _ => policy.backoffBaseMs * 2 ^ (attempt - 1)

/-- The sleep before a retry, if there is one: a transport fault, an attempt left, and a wait that
ends by the deadline. -/
def retryAfterFailure (policy : RetryPolicy) (error : ProviderVoteError) (attempt : ℕ)
    (nowMs deadline : ℤ) : Option Sleep :=
  if !isTransportFailure error then none
  else if policy.maxAttempts ≤ attempt then none
  else
    let wait := computeWait policy error attempt
    if deadline < nowMs + wait then none
    else some ⟨nowMs, wait⟩

/-- What the attempt that succeeded is charged: what it says it cost, and its tokens. -/
def successCharge (p : RetryingProvider) (forecast : ProviderForecast) : ℤ :=
  forecast.costMicros + p.rateTable.microsFor forecast.modelVersion forecast.usage

/-- Total the vote, and refuse it where the total breaches the ceiling. -/
def finalizeSuccess (p : RetryingProvider) (forecast : ProviderForecast) (accrued : ℤ) :
    VoteOutcome :=
  let total := forecast.costMicros + accrued +
    p.rateTable.microsFor forecast.modelVersion forecast.usage
  if p.policy.maxCostMicros < total then
    .failed (providerCostOverrunError total p.policy.maxCostMicros)
  else
    .returned { forecast with costMicros := total }

/-- The attempts from `attempt` on.  `left` counts the attempts that may still follow this one, so
that the loop ends where the source's counter reaches its maximum. -/
def forecastFrom (p : RetryingProvider) (env : VoteEnv) (deadline : ℤ) :
    (left attempt : ℕ) → (accrued : ℤ) → VoteRun
  | left, attempt, accrued =>
    if p.policy.maxCostMicros < accrued + p.price then
      ⟨.failed (providerCostOverrunError accrued p.policy.maxCostMicros), [], []⟩
    else
      match env.inner attempt with
      | .raised text => ⟨.raised text, [.raised text], []⟩
      | .returned forecast => ⟨finalizeSuccess p forecast accrued, [.returned forecast], []⟩
      | .failed error =>
        let accrued := accrued + p.price
        match retryAfterFailure p.policy error attempt (env.failedMs attempt) deadline, left with
        | some sleep, left + 1 =>
          let rest := forecastFrom p env deadline left (attempt + 1) accrued
          ⟨rest.outcome, .failed error :: rest.calls, sleep :: rest.sleeps⟩
        | _, _ => ⟨.failed { error with costMicros := accrued }, [.failed error], []⟩

/-- The deadline of a vote. -/
def voteDeadline (p : RetryingProvider) (env : VoteEnv) : ℤ :=
  env.startMs + p.policy.totalDeadlineMs

/-- One vote. -/
def voteRun (p : RetryingProvider) (env : VoteEnv) : VoteRun :=
  forecastFrom p env (voteDeadline p env) (p.policy.maxAttempts - 1) 1 0

/-! ## What a vote is charged -/

/-- What one attempt is charged: its list price when it failed, what it consumed when it
succeeded. -/
def attemptCharge (p : RetryingProvider) : VoteOutcome → ℤ
  | .returned forecast => successCharge p forecast
  | .failed _ => p.price
  | .raised _ => 0

/-- What the attempts of a vote are charged together. -/
def charges (p : RetryingProvider) (calls : List VoteOutcome) : ℤ :=
  (calls.map (attemptCharge p)).sum

/-- The cost that a vote makes the pipeline book.  What is raised outside the provider errors
carries none. -/
def bookedCost : VoteOutcome → Option ℤ
  | .returned forecast => some forecast.costMicros
  | .failed error => some error.costMicros
  | .raised _ => none

/-- The attempt failed. -/
def VoteOutcome.Failed : VoteOutcome → Prop
  | .failed _ => True
  | _ => False

theorem retryAfterFailure_some {policy : RetryPolicy} {error : ProviderVoteError} {attempt : ℕ}
    {nowMs deadline : ℤ} {sleep : Sleep}
    (h : retryAfterFailure policy error attempt nowMs deadline = some sleep) :
    attempt < policy.maxAttempts ∧ sleep.now + sleep.wait ≤ deadline := by
  rw [retryAfterFailure] at h
  split at h
  · cases h
  · split at h
    · cases h
    · rename_i hleft
      dsimp only at h
      split at h
      · cases h
      · rename_i hintime
        cases h
        exact ⟨not_le.mp hleft, not_lt.mp hintime⟩

/-- **What the loop does** from an attempt on: it is out of money, it ends with what the inner
provider answers, or it sleeps and goes on. -/
theorem forecastFrom_cases (p : RetryingProvider) (env : VoteEnv) (deadline : ℤ)
    (left attempt : ℕ) (accrued : ℤ) :
    (p.policy.maxCostMicros < accrued + p.price ∧
        forecastFrom p env deadline left attempt accrued =
          ⟨.failed (providerCostOverrunError accrued p.policy.maxCostMicros), [], []⟩) ∨
      accrued + p.price ≤ p.policy.maxCostMicros ∧
        ((∃ text, forecastFrom p env deadline left attempt accrued =
            ⟨.raised text, [.raised text], []⟩) ∨
          (∃ forecast, forecastFrom p env deadline left attempt accrued =
            ⟨finalizeSuccess p forecast accrued, [.returned forecast], []⟩) ∨
          (∃ error, forecastFrom p env deadline left attempt accrued =
            ⟨.failed { error with costMicros := accrued + p.price }, [.failed error], []⟩) ∨
          ∃ error sleep rest left', left = left' + 1 ∧ sleep.now + sleep.wait ≤ deadline ∧
            rest = forecastFrom p env deadline left' (attempt + 1) (accrued + p.price) ∧
            forecastFrom p env deadline left attempt accrued =
              ⟨rest.outcome, .failed error :: rest.calls, sleep :: rest.sleeps⟩) := by
  rw [forecastFrom]
  by_cases hmoney : p.policy.maxCostMicros < accrued + p.price
  · exact .inl ⟨hmoney, if_pos hmoney⟩
  · refine .inr ⟨not_lt.mp hmoney, ?_⟩
    rw [if_neg hmoney]
    cases env.inner attempt with
    | raised text => exact .inl ⟨text, rfl⟩
    | returned forecast => exact .inr (.inl ⟨forecast, rfl⟩)
    | failed error =>
        dsimp only
        cases hretry : retryAfterFailure p.policy error attempt (env.failedMs attempt) deadline with
        | none => exact .inr (.inr (.inl ⟨error, rfl⟩))
        | some sleep =>
            cases left with
            | zero => exact .inr (.inr (.inl ⟨error, rfl⟩))
            | succ left' =>
                exact .inr (.inr (.inr ⟨error, sleep, _, left', rfl,
                  (retryAfterFailure_some hretry).2, rfl, rfl⟩))

/-- What holds of a run of attempts that starts with `accrued` charged and `left` retries. -/
structure RunBounds (p : RetryingProvider) (deadline : ℤ) (left : ℕ) (accrued : ℤ)
    (run : VoteRun) : Prop where
  /-- The attempts are bounded. -/
  attempts : run.calls.length ≤ left + 1
  /-- Every sleep ends by the deadline. -/
  intime : ∀ sleep ∈ run.sleeps, sleep.now + sleep.wait ≤ deadline
  /-- What is booked is what the attempts are charged. -/
  booked : ∀ cost, bookedCost run.outcome = some cost → cost = accrued + charges p run.calls
  /-- Only a response can take the charges over the bound. -/
  overrun : accrued ≤ p.policy.maxCostMicros →
    p.policy.maxCostMicros < accrued + charges p run.calls →
      ∃ forecast, run.calls.getLast? = some (.returned forecast)

theorem charges_cons (p : RetryingProvider) (call : VoteOutcome) (calls : List VoteOutcome) :
    charges p (call :: calls) = attemptCharge p call + charges p calls := List.sum_cons

theorem bookedCost_finalizeSuccess (p : RetryingProvider) (forecast : ProviderForecast)
    (accrued : ℤ) :
    bookedCost (finalizeSuccess p forecast accrued) = some (accrued + successCharge p forecast) := by
  rw [finalizeSuccess, successCharge]
  split
  · simp only [bookedCost, providerCostOverrunError, Option.some.injEq]
    ring
  · simp only [bookedCost, Option.some.injEq]
    ring

/-- **The loop keeps its bounds**, by induction on the retries that are left. -/
theorem forecastFrom_bounds (p : RetryingProvider) (env : VoteEnv) (deadline : ℤ)
    (left attempt : ℕ) (accrued : ℤ) :
    RunBounds p deadline left accrued (forecastFrom p env deadline left attempt accrued) := by
  induction left using Nat.strong_induction_on generalizing attempt accrued with
  | _ left ih =>
      rcases forecastFrom_cases p env deadline left attempt accrued with
        ⟨-, hrun⟩ | ⟨hmoney, ⟨text, hrun⟩ | ⟨forecast, hrun⟩ | ⟨error, hrun⟩ |
          ⟨error, sleep, rest, left', rfl, hintime, rfl, hrun⟩⟩
      · rw [hrun]
        refine ⟨Nat.zero_le _, by simp, fun cost hcost => ?_, fun hle hlt => ?_⟩
        · cases hcost
          exact (Int.add_zero accrued).symm
        · exact absurd hlt (not_lt.mpr ((Int.add_zero accrued).trans_le hle))
      · rw [hrun]
        refine ⟨Nat.le_add_left 1 left, by simp, fun cost hcost => ?_, fun hle hlt => ?_⟩
        · cases hcost
        · exact absurd hlt (not_lt.mpr ((Int.add_zero accrued).trans_le hle))
      · rw [hrun]
        refine ⟨Nat.le_add_left 1 left, by simp, fun cost hcost => ?_, fun _ _ => ⟨forecast, rfl⟩⟩
        rw [bookedCost_finalizeSuccess, Option.some.injEq] at hcost
        rw [← hcost, charges, List.map_singleton, List.sum_singleton, attemptCharge]
      · rw [hrun]
        refine ⟨Nat.le_add_left 1 left, by simp, fun cost hcost => ?_, fun hle hlt => ?_⟩
        · cases hcost
          rw [charges, List.map_singleton, List.sum_singleton, attemptCharge]
        · rw [charges, List.map_singleton, List.sum_singleton, attemptCharge] at hlt
          exact absurd hlt (not_lt.mpr hmoney)
      · obtain ⟨hattempts, hsleeps, hbooked, hover⟩ :=
          ih left' (Nat.lt_succ_self left') (attempt + 1) (accrued + p.price)
        rw [hrun]
        refine ⟨Nat.succ_le_succ hattempts, ?_, fun cost hcost => ?_, fun _ hlt => ?_⟩
        · intro later hlater
          rcases List.mem_cons.mp hlater with rfl | hlater
          · exact hintime
          · exact hsleeps later hlater
        · rw [hbooked cost hcost, charges_cons, attemptCharge, Int.add_assoc]
        · rw [charges_cons, attemptCharge, ← Int.add_assoc] at hlt
          obtain ⟨forecast, hlast⟩ := hover hmoney hlt
          refine ⟨forecast, ?_⟩
          rw [List.getLast?_cons, hlast, Option.getD_some]

/-! ## The bounds of a vote -/

/-- What holds of every vote. -/
structure VoteBounds (p : RetryingProvider) (env : VoteEnv) : Prop where
  /-- At most the allowed attempts reach the inner provider. -/
  attempts : (voteRun p env).calls.length ≤ p.policy.maxAttempts
  /-- No sleep is begun that would end after the deadline. -/
  intime : ∀ sleep ∈ (voteRun p env).sleeps, sleep.now + sleep.wait ≤ voteDeadline p env
  /-- What is booked covers the charges up to the bound. -/
  covers : ∀ cost, bookedCost (voteRun p env).outcome = some cost →
    min (charges p (voteRun p env).calls) p.policy.maxCostMicros ≤ cost
  /-- Where the charges are within the bound, they are what is booked. -/
  within : charges p (voteRun p env).calls ≤ p.policy.maxCostMicros →
    ∀ cost, bookedCost (voteRun p env).outcome = some cost →
      cost = charges p (voteRun p env).calls ∧ cost ≤ p.policy.maxCostMicros
  /-- Failed attempts never take the charges over the bound. -/
  gated : (∀ call ∈ (voteRun p env).calls, call.Failed) →
    charges p (voteRun p env).calls ≤ p.policy.maxCostMicros

/-- **Every vote is bounded** in attempts, sleeps and charges. -/
theorem vote_bounds (p : RetryingProvider) (env : VoteEnv) : VoteBounds p env := by
  obtain ⟨hattempts, hintime, hbooked, hover⟩ :=
    forecastFrom_bounds p env (voteDeadline p env) (p.policy.maxAttempts - 1) 1 0
  have hpos := p.policy.attempts_pos
  have hcost : ∀ cost, bookedCost (voteRun p env).outcome = some cost →
      cost = charges p (voteRun p env).calls := fun cost h =>
    (hbooked cost h).trans (Int.zero_add _)
  refine ⟨hattempts.trans (by omega), hintime, ?_, ?_, ?_⟩
  · intro cost h
    rw [hcost cost h]
    exact min_le_left _ _
  · intro hwithin cost h
    have hcharged := hcost cost h
    exact ⟨hcharged, hcharged.trans_le hwithin⟩
  · intro hfailed
    by_contra hlarge
    rw [not_le, ← Int.zero_add (charges p _)] at hlarge
    obtain ⟨forecast, hlast⟩ := hover p.policy.cost_pos.le hlarge
    exact hfailed _ (List.mem_of_getLast? hlast)

/-! ## What a failed attempt is charged -/

/-- A wrapper that may spend a thousand micros, two hundred at a time. -/
def thriftyProvider : RetryingProvider where
  providerName := "p"
  policy := ⟨3, 30000, 1000, 1000, by decide, by decide, by decide, by decide⟩
  priceTable := ⟨.empty, 200, by simp, by decide⟩
  rateTable := ⟨.empty, 500, by decide⟩

/-- An inner provider whose response is refused after it cost five hundred micros. -/
def refusedAtFiveHundred : VoteEnv where
  inner := fun _ => .failed ⟨.responseRejected, "response_rejected", "f", 500⟩
  startMs := 0
  failedMs := fun _ => 0

/-- A failed attempt is charged its list price, whatever the failure says it cost. -/
theorem failed_attempt_underbooked :
    bookedCost (voteRun thriftyProvider refusedAtFiveHundred).outcome = some 200 ∧
      (voteRun thriftyProvider refusedAtFiveHundred).calls =
        [.failed ⟨.responseRejected, "response_rejected", "f", 500⟩] ∧
      ¬ min (500 : ℤ) thriftyProvider.policy.maxCostMicros ≤ 200 := by
  decide

end Windbreak
