import Mathlib.Algebra.Order.Ring.Int
import Mathlib.Data.List.Count
import Mathlib.Tactic.Linarith
import Windbreak.Connector.Resilience
import Windbreak.Core.Runs

/-!
# How many requests a bucket lets through

An acquire reads the clock, and reads it again when the bucket is empty, to sleep for what is left
of the interval.  The clock may advance between the two readings, and the sleeper may wake late.

* `acquireStep` — one acquire, with the readings it takes and the instant it completes at.
* `Timely` — the second reading comes before the next token is due, and the sleeper wakes before
  the bucket would have filled.
* **`rate_bounded`** — in a run of timely acquires every sleep is of at least a second and at most
  an interval, and a window holds no more completions than the bucket, its intervals and one.
-/

namespace Windbreak.Resilience

open Machine

/-- A bucket and the last reading of its clock. -/
structure Limiter where
  bucket : TokenBucket
  now : ℤ
  deriving DecidableEq, Repr

/-- The readings of one acquire: of the refill, of the wait, and when the sleeper returns. -/
structure Acquire where
  refillNow : ℤ
  waitNow : ℤ
  wakeNow : ℤ
  deriving DecidableEq, Repr

/-- What an acquire asked of the sleeper, and when it completed. -/
structure Acquired where
  sleep : Option ℤ
  completedAt : ℤ
  deriving DecidableEq, Repr

/-- A full bucket. -/
def Limiter.full (policy : ResiliencePolicy) (start : ℤ) : Limiter :=
  ⟨⟨policy.bucketCapacity, start⟩, start⟩

/-- One acquire. -/
def acquireStep (policy : ResiliencePolicy) (s : Limiter) (i : Acquire) : Acquired × Limiter :=
  let acquired := s.bucket.acquire policy i.refillNow i.waitNow
  let completedAt := if acquired.2.isSome then i.wakeNow else i.refillNow
  (⟨acquired.2, completedAt⟩, ⟨acquired.1, completedAt⟩)

/-- **A clock that does not step back**, and a sleeper that does not return early. -/
structure Lawful (t : Transition Limiter Acquire Acquired) : Prop where
  refill : t.pre.now ≤ t.input.refillNow
  sleeps : ∀ sleep ∈ t.output.sleep, t.input.refillNow ≤ t.input.waitNow ∧
    t.input.waitNow ≤ t.input.wakeNow ∧ t.input.waitNow + sleep ≤ t.input.wakeNow

/-- **A timely acquire**: when it finds no token, its second reading comes before the next one is
due, and it wakes before the bucket would have filled. -/
def Timely (policy : ResiliencePolicy) (t : Transition Limiter Acquire Acquired) : Prop :=
  (t.pre.bucket.refill policy t.input.refillNow).tokens = 0 →
    t.input.waitNow < t.pre.bucket.lastRefill + policy.refillIntervalSeconds ∧
    t.input.wakeNow < t.pre.bucket.lastRefill + policy.refillIntervalSeconds +
      policy.bucketCapacity * policy.refillIntervalSeconds

/-- The tokens are between none and the capacity, and no refill lies ahead of the clock. -/
structure Sound (policy : ResiliencePolicy) (s : Limiter) : Prop where
  tokens_nonneg : 0 ≤ s.bucket.tokens
  tokens_le : s.bucket.tokens ≤ policy.bucketCapacity
  lastRefill_le : s.bucket.lastRefill ≤ s.now

/-- The tokens that a bucket can have paid out by an instant, did it never overflow. -/
def payable (policy : ResiliencePolicy) (bucket : TokenBucket) (t : ℤ) : ℤ :=
  bucket.tokens + (t - bucket.lastRefill) / policy.refillIntervalSeconds

variable {policy : ResiliencePolicy}

/-! ## What one acquire does -/

theorem interval_pos (policy : ResiliencePolicy) : 0 < policy.refillIntervalSeconds :=
  Int.lt_of_lt_of_le Int.one_pos policy.refill_interval

/-- A refilled bucket. -/
structure Refilled (policy : ResiliencePolicy) (bucket : TokenBucket) (now : ℤ)
    (refilled : TokenBucket) : Prop where
  tokens_nonneg : 0 ≤ refilled.tokens
  tokens_le : refilled.tokens ≤ policy.bucketCapacity
  lastRefill_le : refilled.lastRefill ≤ now
  lt_next : now < refilled.lastRefill + policy.refillIntervalSeconds
  payable_le : ∀ t, payable policy refilled t ≤ payable policy bucket t
  untouched : refilled.tokens = 0 → refilled = bucket

/-- **A refill** grants whole intervals and pays nothing out. -/
theorem refill_refilled {bucket : TokenBucket} {now : ℤ} (hnonneg : 0 ≤ bucket.tokens)
    (hle : bucket.tokens ≤ policy.bucketCapacity) (hlast : bucket.lastRefill ≤ now) :
    Refilled policy bucket now (bucket.refill policy now) := by
  have hpos := interval_pos policy
  have hcapacity := policy.bucket_capacity
  have hdivision := Int.mul_ediv_add_emod (now - bucket.lastRefill) policy.refillIntervalSeconds
  have hrest := Int.emod_nonneg (now - bucket.lastRefill) hpos.ne'
  have hbelow := Int.emod_lt_of_pos (now - bucket.lastRefill) hpos
  generalize hgranted : (now - bucket.lastRefill) / policy.refillIntervalSeconds = granted at *
  have hcommute := Int.mul_comm policy.refillIntervalSeconds granted
  by_cases hsome : granted > 0
  · have hrefill : bucket.refill policy now =
        ⟨min policy.bucketCapacity (bucket.tokens + granted),
          bucket.lastRefill + granted * policy.refillIntervalSeconds⟩ := by
      rw [TokenBucket.refill, hgranted]
      exact if_pos hsome
    rw [hrefill]
    refine ⟨by dsimp only; omega, by dsimp only; omega, by dsimp only; omega, by dsimp only; omega,
      fun t => ?_, fun h => by dsimp only at h; omega⟩
    have hless : (t - (bucket.lastRefill + granted * policy.refillIntervalSeconds)) /
        policy.refillIntervalSeconds =
          (t - bucket.lastRefill) / policy.refillIntervalSeconds - granted := by
      rw [← sub_sub, Int.sub_mul_ediv_right _ _ hpos.ne']
    rw [payable, payable, hless]
    dsimp only
    omega
  · have hrefill : bucket.refill policy now = bucket := by
      rw [TokenBucket.refill, hgranted]
      exact if_neg hsome
    have hzero : granted * policy.refillIntervalSeconds ≤ 0 :=
      Int.mul_nonpos_of_nonpos_of_nonneg (Int.not_lt.mp hsome) hpos.le
    rw [hrefill]
    exact ⟨hnonneg, hle, hlast, by omega, fun t => le_rfl, fun _ => rfl⟩

/-- What an acquire leaves: a token less, or an interval slept for. -/
inductive Paid (policy : ResiliencePolicy) (s : Limiter) (i : Acquire) (out : Acquired)
    (post : Limiter) : Prop
  | spent (refilled : TokenBucket) (hrefilled : Refilled policy s.bucket i.refillNow refilled)
      (hsome : 1 ≤ refilled.tokens) (hout : out = ⟨none, i.refillNow⟩)
      (hpost : post = ⟨⟨refilled.tokens - 1, refilled.lastRefill⟩, i.refillNow⟩)
  | slept (hempty : s.bucket.tokens = 0)
      (hrefill : (s.bucket.refill policy i.refillNow).tokens = 0)
      (hout : out =
        ⟨some (policy.refillIntervalSeconds - (i.waitNow - s.bucket.lastRefill)), i.wakeNow⟩)
      (hpost : post = ⟨⟨0, s.bucket.lastRefill + policy.refillIntervalSeconds⟩, i.wakeNow⟩)

/-- **One acquire**, of a sound bucket by a clock that does not step back. -/
theorem acquireStep_paid {s : Limiter} {i : Acquire} (hsound : Sound policy s)
    (hlawful : Lawful (transition (acquireStep policy) s i)) :
    Paid policy s i (acquireStep policy s i).1 (acquireStep policy s i).2 := by
  have hrefilled : Refilled policy s.bucket i.refillNow (s.bucket.refill policy i.refillNow) :=
    refill_refilled hsound.tokens_nonneg hsound.tokens_le
      (hsound.lastRefill_le.trans hlawful.refill)
  by_cases hzero : (s.bucket.refill policy i.refillNow).tokens = 0
  · have hsame := hrefilled.untouched hzero
    have hempty : s.bucket.tokens = 0 := hsame ▸ hzero
    have hacquire : s.bucket.acquire policy i.refillNow i.waitNow =
        (⟨0, s.bucket.lastRefill + policy.refillIntervalSeconds⟩,
          some (policy.refillIntervalSeconds - (i.waitNow - s.bucket.lastRefill))) := by
      rw [TokenBucket.acquire]
      dsimp only
      rw [if_pos hzero, hsame, hempty]
      rfl
    rw [acquireStep, hacquire]
    exact .slept hempty hzero rfl rfl
  · have hacquire : s.bucket.acquire policy i.refillNow i.waitNow =
        (⟨(s.bucket.refill policy i.refillNow).tokens - 1,
          (s.bucket.refill policy i.refillNow).lastRefill⟩, none) := by
      rw [TokenBucket.acquire]
      exact if_neg hzero
    rw [acquireStep, hacquire]
    have hnonneg := hrefilled.tokens_nonneg
    exact .spent _ hrefilled (by omega) rfl rfl

/-- A sleeper does not return before the next token is due. -/
theorem due_le_wake {s : Limiter} {i : Acquire}
    (hlawful : Lawful (transition (acquireStep policy) s i))
    (hout : (acquireStep policy s i).1 =
      ⟨some (policy.refillIntervalSeconds - (i.waitNow - s.bucket.lastRefill)), i.wakeNow⟩) :
    i.refillNow ≤ i.waitNow ∧ s.bucket.lastRefill + policy.refillIntervalSeconds ≤ i.wakeNow := by
  have hsleeps : ∀ sleep ∈ (acquireStep policy s i).1.sleep, i.refillNow ≤ i.waitNow ∧
      i.waitNow ≤ i.wakeNow ∧ i.waitNow + sleep ≤ i.wakeNow := hlawful.sleeps
  rw [hout] at hsleeps
  obtain ⟨hwait, -, hwake⟩ := hsleeps _ rfl
  omega

/-- An acquire of a lawful clock leaves a sound bucket. -/
theorem acquireStep_sound {s : Limiter} {i : Acquire} (hsound : Sound policy s)
    (hlawful : Lawful (transition (acquireStep policy) s i)) :
    Sound policy (acquireStep policy s i).2 := by
  have hcapacity := policy.bucket_capacity
  cases acquireStep_paid hsound hlawful with
  | spent refilled hrefilled hsome hout hpost =>
      rw [hpost]
      have hle := hrefilled.tokens_le
      exact ⟨by dsimp only; omega, by dsimp only; omega, hrefilled.lastRefill_le⟩
  | slept hempty hrefill hout hpost =>
      rw [hpost]
      exact ⟨le_rfl, by dsimp only; omega, (due_le_wake hlawful hout).2⟩

/-! ## Counting completions -/

/-- How many acquires of a run complete by an instant. -/
def completedBy (t : ℤ) (run : List (Transition Limiter Acquire Acquired)) : ℕ :=
  run.countP fun x => x.output.completedAt ≤ t

/-- How many acquires of a run complete in a window. -/
def completedIn (s t : ℤ) (run : List (Transition Limiter Acquire Acquired)) : ℕ :=
  run.countP fun x => s ≤ x.output.completedAt ∧ x.output.completedAt ≤ t

theorem completedBy_cons (t : ℤ) (x : Transition Limiter Acquire Acquired)
    (run : List (Transition Limiter Acquire Acquired)) :
    completedBy t (x :: run) = completedBy t run + if x.output.completedAt ≤ t then 1 else 0 := by
  rw [completedBy, List.countP_cons, completedBy]
  simp only [decide_eq_true_eq]

theorem completedIn_cons (s t : ℤ) (x : Transition Limiter Acquire Acquired)
    (run : List (Transition Limiter Acquire Acquired)) :
    completedIn s t (x :: run) = completedIn s t run +
      if s ≤ x.output.completedAt ∧ x.output.completedAt ≤ t then 1 else 0 := by
  rw [completedIn, List.countP_cons, completedIn]
  simp only [decide_eq_true_eq]

/-- What completes in a window completes by its end. -/
theorem completedIn_le_completedBy (s t : ℤ) (run : List (Transition Limiter Acquire Acquired)) :
    completedIn s t run ≤ completedBy t run :=
  List.countP_mono_left fun _ _ hx => decide_eq_true (of_decide_eq_true hx).2

/-- An interval slept for is a token paid out. -/
theorem payable_slept (last t : ℤ) :
    payable policy ⟨0, last + policy.refillIntervalSeconds⟩ t + 1 = payable policy ⟨0, last⟩ t := by
  have hpos := interval_pos policy
  rw [payable, payable]
  dsimp only
  rw [← sub_sub, Int.sub_ediv_of_dvd _ (dvd_refl _), Int.ediv_self hpos.ne']
  omega

/-- **An acquire pays one token out**, and one that completes by an instant pays one that was
payable by then. -/
theorem payable_step {s : Limiter} {i : Acquire} (hsound : Sound policy s)
    (hlawful : Lawful (transition (acquireStep policy) s i)) (t : ℤ) :
    payable policy (acquireStep policy s i).2.bucket t + 1 ≤ payable policy s.bucket t ∧
      ((acquireStep policy s i).1.completedAt ≤ t → 1 ≤ payable policy s.bucket t) := by
  have hpos := interval_pos policy
  cases acquireStep_paid hsound hlawful with
  | spent refilled hrefilled hsome hout hpost =>
      rw [hpost, hout]
      have hle := hrefilled.payable_le t
      refine ⟨le_trans ?_ hle, fun hby => le_trans ?_ hle⟩
      · rw [payable, payable]
        dsimp only
        omega
      · have hlast := hrefilled.lastRefill_le
        dsimp only at hby
        have hnonneg : 0 ≤ (t - refilled.lastRefill) / policy.refillIntervalSeconds :=
          Int.ediv_nonneg (by omega) hpos.le
        rw [payable]
        omega
  | slept hempty hrefill hout hpost =>
      have hdue := (due_le_wake hlawful hout).2
      have hbucket : s.bucket = ⟨0, s.bucket.lastRefill⟩ := by rw [← hempty]
      rw [hpost, hout]
      refine ⟨?_, fun hby => ?_⟩
      · rw [hbucket]
        exact (payable_slept s.bucket.lastRefill t).le
      · dsimp only at hby
        have hone : 1 ≤ (t - s.bucket.lastRefill) / policy.refillIntervalSeconds := by
          rw [Int.le_ediv_iff_mul_le hpos]
          omega
        rw [payable, hempty]
        omega

/-- **Completions by an instant** are no more than what was payable by then. -/
theorem completedBy_le {s : Limiter} (hsound : Sound policy s) {acquires : List Acquire}
    (hlawful : ∀ x ∈ trace (acquireStep policy) s acquires, Lawful x) (t : ℤ) :
    (completedBy t (trace (acquireStep policy) s acquires) : ℤ) ≤
      max 0 (payable policy s.bucket t) := by
  induction acquires generalizing s with
  | nil => exact le_max_left _ _
  | cons i rest ih =>
      have hfirst := hlawful _ (List.mem_cons_self ..)
      have hrest := ih (acquireStep_sound hsound hfirst) fun x hx =>
        hlawful x (List.mem_cons_of_mem _ hx)
      obtain ⟨hpays, hby⟩ := payable_step hsound hfirst t
      rw [trace_cons, completedBy_cons]
      by_cases hcompleted : (transition (acquireStep policy) s i).output.completedAt ≤ t
      · have hone := hby hcompleted
        rw [if_pos hcompleted]
        omega
      · rw [if_neg hcompleted]
        omega

/-- What is payable after a timely acquire that completes from an instant on. -/
theorem payable_after {s : Limiter} {i : Acquire} (hsound : Sound policy s)
    (hlawful : Lawful (transition (acquireStep policy) s i))
    (htimely : Timely policy (transition (acquireStep policy) s i)) {start t : ℤ}
    (hfrom : start ≤ (acquireStep policy s i).1.completedAt) :
    payable policy (acquireStep policy s i).2.bucket t ≤
      policy.bucketCapacity + (t - start) / policy.refillIntervalSeconds := by
  have hpos := interval_pos policy
  cases acquireStep_paid hsound hlawful with
  | spent refilled hrefilled hsome hout hpost =>
      rw [hout] at hfrom
      dsimp only at hfrom
      have hle := hrefilled.tokens_le
      have hnext := hrefilled.lt_next
      have hmono : (t - refilled.lastRefill) / policy.refillIntervalSeconds ≤
          (t - start + 1 * policy.refillIntervalSeconds) / policy.refillIntervalSeconds :=
        Int.ediv_le_ediv hpos (by omega)
      rw [Int.add_mul_ediv_right _ _ hpos.ne'] at hmono
      rw [hpost, payable]
      dsimp only
      omega
  | slept hempty hrefill hout hpost =>
      rw [hout] at hfrom
      dsimp only at hfrom
      have hwake : i.wakeNow < s.bucket.lastRefill + policy.refillIntervalSeconds +
          policy.bucketCapacity * policy.refillIntervalSeconds := (htimely hrefill).2
      have hmono : (t - (s.bucket.lastRefill + policy.refillIntervalSeconds)) /
          policy.refillIntervalSeconds ≤
            (t - start + policy.bucketCapacity * policy.refillIntervalSeconds) /
              policy.refillIntervalSeconds := Int.ediv_le_ediv hpos (by omega)
      rw [Int.add_mul_ediv_right _ _ hpos.ne'] at hmono
      rw [hpost, payable]
      dsimp only
      omega

/-- **Completions in a window** of a run of timely acquires. -/
theorem completedIn_le {s : Limiter} (hsound : Sound policy s) {acquires : List Acquire}
    (hlawful : ∀ x ∈ trace (acquireStep policy) s acquires, Lawful x)
    (htimely : ∀ x ∈ trace (acquireStep policy) s acquires, Timely policy x) {start t : ℤ}
    (hwindow : start ≤ t) :
    (completedIn start t (trace (acquireStep policy) s acquires) : ℤ) ≤
      policy.bucketCapacity + (t - start) / policy.refillIntervalSeconds + 1 := by
  have hcapacity := policy.bucket_capacity
  have hintervals : 0 ≤ (t - start) / policy.refillIntervalSeconds :=
    Int.ediv_nonneg (by omega) (interval_pos policy).le
  induction acquires generalizing s with
  | nil =>
      have hnone : (completedIn start t (trace (acquireStep policy) s []) : ℤ) = 0 := rfl
      omega
  | cons i rest ih =>
      have hfirst := hlawful _ (List.mem_cons_self ..)
      have hnext := acquireStep_sound hsound hfirst
      have hlater := fun x hx => hlawful x (List.mem_cons_of_mem _ hx)
      rw [trace_cons, completedIn_cons]
      by_cases hcompleted : start ≤ (transition (acquireStep policy) s i).output.completedAt ∧
          (transition (acquireStep policy) s i).output.completedAt ≤ t
      · -- the first completion of the window: the others are among those that follow it
        have hpayable := payable_after (t := t) hsound hfirst (htimely _ (List.mem_cons_self ..))
          hcompleted.1
        have hothers := completedBy_le hnext hlater t
        have hsub := completedIn_le_completedBy start t
          (trace (acquireStep policy) (acquireStep policy s i).2 rest)
        rw [if_pos hcompleted]
        omega
      · have hrest := ih hnext hlater fun x hx => htimely x (List.mem_cons_of_mem _ hx)
        rw [if_neg hcompleted]
        omega

/-- **What is asked of a sleeper**: at least a second and at most an interval. -/
def AskedInBounds (policy : ResiliencePolicy) (t : Transition Limiter Acquire Acquired) : Prop :=
  ∀ sleep ∈ t.output.sleep, 0 < sleep ∧ sleep ≤ policy.refillIntervalSeconds

/-- A timely acquire asks for no other sleep. -/
theorem sleep_bounds {s : Limiter} {i : Acquire} (hsound : Sound policy s)
    (hlawful : Lawful (transition (acquireStep policy) s i))
    (htimely : Timely policy (transition (acquireStep policy) s i)) :
    AskedInBounds policy (transition (acquireStep policy) s i) := by
  intro sleep hsleep
  change sleep ∈ (acquireStep policy s i).1.sleep at hsleep
  cases acquireStep_paid hsound hlawful with
  | spent refilled hrefilled hsome hout hpost =>
      rw [hout] at hsleep
      cases hsleep
  | slept hempty hrefill hout hpost =>
      have hnext : i.waitNow < s.bucket.lastRefill + policy.refillIntervalSeconds :=
        (htimely hrefill).1
      have hwait := (due_le_wake hlawful hout).1
      have hlast := hsound.lastRefill_le
      have hrefillNow : s.now ≤ i.refillNow := hlawful.refill
      rw [hout] at hsleep
      obtain rfl := Option.some.inj hsleep
      omega

/-- **The rate of timely acquires**: every sleep is of at least a second and at most an interval,
the tokens stay between none and the capacity, and a window holds no more completions than the
bucket, the window's whole intervals and one. -/
theorem rate_bounded (policy : ResiliencePolicy) (origin : ℤ) (acquires : List Acquire)
    (hlawful : ∀ x ∈ trace (acquireStep policy) (.full policy origin) acquires, Lawful x)
    (htimely : ∀ x ∈ trace (acquireStep policy) (.full policy origin) acquires, Timely policy x) :
    (∀ x ∈ trace (acquireStep policy) (.full policy origin) acquires, AskedInBounds policy x) ∧
    (∀ x ∈ trace (acquireStep policy) (.full policy origin) acquires,
      0 ≤ x.post.bucket.tokens ∧ x.post.bucket.tokens ≤ policy.bucketCapacity) ∧
    ∀ s t, s ≤ t →
      (completedIn s t (trace (acquireStep policy) (.full policy origin) acquires) : ℤ) ≤
        policy.bucketCapacity + (t - s) / policy.refillIntervalSeconds + 1 := by
  have hfull : Sound policy (.full policy origin) :=
    ⟨le_trans (by decide) policy.bucket_capacity, le_rfl, le_rfl⟩
  have hstep : ∀ s i, Sound policy s →
      Lawful (transition (acquireStep policy) s i) ∧
        Timely policy (transition (acquireStep policy) s i) →
      Sound policy (acquireStep policy s i).2 := fun s i hs h => acquireStep_sound hs h.1
  have hguard : ∀ x ∈ trace (acquireStep policy) (.full policy origin) acquires,
      Lawful x ∧ Timely policy x := fun x hx => ⟨hlawful x hx, htimely x hx⟩
  refine ⟨fun x hx => ?_, fun x hx => ?_,
    fun s t hwindow => completedIn_le hfull hlawful htimely hwindow⟩
  · exact trace_forall_of_guard (P := AskedInBounds policy) hstep
      (fun s i hs h => sleep_bounds hs h.1 h.2) hfull hguard x hx
  · have hsound := trace_post_of_guard hstep hfull hguard x hx
    exact ⟨hsound.tokens_nonneg, hsound.tokens_le⟩

/-! ## Late readings -/

/-- One token, refilled every second. -/
def oneASecond : ResiliencePolicy :=
  { defaultResiliencePolicy with bucketCapacity := 1, bucket_capacity := le_rfl }

/-- Two acquires at once; the second sleeps out its second. -/
def promptAcquires : List Acquire := [⟨0, 0, 0⟩, ⟨0, 0, 1⟩]

theorem prompt_trace : trace (acquireStep oneASecond) (.full oneASecond 0) promptAcquires =
    [⟨⟨⟨1, 0⟩, 0⟩, ⟨0, 0, 0⟩, ⟨none, 0⟩, ⟨⟨0, 0⟩, 0⟩⟩,
      ⟨⟨⟨0, 0⟩, 0⟩, ⟨0, 0, 1⟩, ⟨some 1, 1⟩, ⟨⟨0, 1⟩, 1⟩⟩] := rfl

theorem rate_bounded_prompt :
    completedIn 0 1 (trace (acquireStep oneASecond) (.full oneASecond 0) promptAcquires) = 2 ∧
      ((completedIn 0 1 (trace (acquireStep oneASecond) (.full oneASecond 0) promptAcquires) : ℤ) ≤
        1 + (1 - 0) / 1 + 1) := by
  have hlawful : ∀ x ∈ trace (acquireStep oneASecond) (.full oneASecond 0) promptAcquires,
      Lawful x := by
    rw [prompt_trace, List.forall_mem_cons, List.forall_mem_singleton]
    exact ⟨⟨by decide, fun sleep h => by cases h⟩,
      ⟨by decide, fun sleep h => by cases h; decide⟩⟩
  have htimely : ∀ x ∈ trace (acquireStep oneASecond) (.full oneASecond 0) promptAcquires,
      Timely oneASecond x := by
    rw [prompt_trace, List.forall_mem_cons, List.forall_mem_singleton]
    exact ⟨fun h => absurd h (by decide), fun _ => by decide⟩
  exact ⟨by decide, (rate_bounded oneASecond 0 promptAcquires hlawful htimely).2.2 0 1 (by decide)⟩

/-- The clock of the second acquire advances two seconds between its readings. -/
def lateReading : List Acquire := [⟨0, 0, 0⟩, ⟨0, 2, 2⟩]

theorem one_le_ten : (1 : ℤ) ≤ 10 := by decide

/-- One token, refilled every ten seconds. -/
def oneInTen : ResiliencePolicy :=
  { oneASecond with refillIntervalSeconds := 10, refill_interval := one_le_ten }

/-- The sleeper of the second acquire returns nineteen seconds late. -/
def lateWaking : List Acquire := [⟨0, 0, 0⟩, ⟨0, 0, 29⟩, ⟨29, 29, 29⟩, ⟨30, 30, 30⟩]

/-- A clock that advances between two readings has the sleeper asked for a negative second, and a
sleeper that returns late lets a third request into a second. -/
theorem late_readings :
    ((∀ x ∈ trace (acquireStep oneASecond) (.full oneASecond 0) lateReading, Lawful x) ∧
      (trace (acquireStep oneASecond) (.full oneASecond 0) lateReading).map
        (fun x => x.output.sleep) = [none, some (-1)] ∧
      ¬ ∀ x ∈ trace (acquireStep oneASecond) (.full oneASecond 0) lateReading,
        AskedInBounds oneASecond x) ∧
    (∀ x ∈ trace (acquireStep oneInTen) (.full oneInTen 0) lateWaking, Lawful x) ∧
      completedIn 29 30 (trace (acquireStep oneInTen) (.full oneInTen 0) lateWaking) = 3 ∧
      ¬ (3 : ℤ) ≤ oneInTen.bucketCapacity + (30 - 29) / oneInTen.refillIntervalSeconds + 1 := by
  have hreading : trace (acquireStep oneASecond) (.full oneASecond 0) lateReading =
      [⟨⟨⟨1, 0⟩, 0⟩, ⟨0, 0, 0⟩, ⟨none, 0⟩, ⟨⟨0, 0⟩, 0⟩⟩,
        ⟨⟨⟨0, 0⟩, 0⟩, ⟨0, 2, 2⟩, ⟨some (-1), 2⟩, ⟨⟨0, 1⟩, 2⟩⟩] := rfl
  have hwaking : trace (acquireStep oneInTen) (.full oneInTen 0) lateWaking =
      [⟨⟨⟨1, 0⟩, 0⟩, ⟨0, 0, 0⟩, ⟨none, 0⟩, ⟨⟨0, 0⟩, 0⟩⟩,
        ⟨⟨⟨0, 0⟩, 0⟩, ⟨0, 0, 29⟩, ⟨some 10, 29⟩, ⟨⟨0, 10⟩, 29⟩⟩,
        ⟨⟨⟨0, 10⟩, 29⟩, ⟨29, 29, 29⟩, ⟨none, 29⟩, ⟨⟨0, 20⟩, 29⟩⟩,
        ⟨⟨⟨0, 20⟩, 29⟩, ⟨30, 30, 30⟩, ⟨none, 30⟩, ⟨⟨0, 30⟩, 30⟩⟩] := rfl
  refine ⟨⟨?_, by decide, ?_⟩, ?_, by decide, by decide⟩
  · rw [hreading, List.forall_mem_cons, List.forall_mem_singleton]
    exact ⟨⟨by decide, fun sleep h => by cases h⟩,
      ⟨by decide, fun sleep h => by cases h; decide⟩⟩
  · rw [hreading, List.forall_mem_cons, List.forall_mem_singleton]
    rintro ⟨-, hasked⟩
    exact absurd (hasked (-1) rfl).1 (by decide)
  · rw [hwaking]
    rw [List.forall_mem_cons, List.forall_mem_cons, List.forall_mem_cons,
      List.forall_mem_singleton]
    exact ⟨⟨by decide, fun sleep h => by cases h⟩, ⟨by decide, fun sleep h => by cases h; decide⟩,
      ⟨by decide, fun sleep h => by cases h⟩, ⟨by decide, fun sleep h => by cases h⟩⟩

end Windbreak.Resilience
