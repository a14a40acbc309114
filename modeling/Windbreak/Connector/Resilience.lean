import Mathlib.Algebra.Group.Int.Defs
import Mathlib.Data.Int.Order.Basic
import Mathlib.Data.List.Induction

/-!
# Rate limiting, retries and the circuit breaker

A call of the connector spends one token for each transport attempt, retries what may be retried,
and counts as one failure of the breaker when every attempt is exhausted.  The breaker refuses calls
while it is open and cools down, and then admits one probe.  The body of an attempt may run another
call, so the unfinished calls are a stack.

* `callerStep_opens` — what one step does to the breaker, the stack and the ledger.
* `callerInvariant_run` — where a probe may be, and what the breaker has counted.
-/

namespace Windbreak.Resilience

/-! ## The policy -/

/-- The tunables of one connector; counts are positive and durations not negative. -/
structure ResiliencePolicy where
  bucketCapacity : ℤ
  refillIntervalSeconds : ℤ
  maxAttempts : ℕ
  baseBackoffSeconds : ℤ
  maxBackoffSeconds : ℤ
  maxJitterSeconds : ℤ
  failureThreshold : ℕ
  cooldownSeconds : ℤ
  bucket_capacity : 1 ≤ bucketCapacity
  refill_interval : 1 ≤ refillIntervalSeconds
  max_attempts : 1 ≤ maxAttempts
  failure_threshold : 1 ≤ failureThreshold
  backoff_nonneg : 0 ≤ baseBackoffSeconds ∧ 0 ≤ maxBackoffSeconds ∧ 0 ≤ maxJitterSeconds
  cooldown_nonneg : 0 ≤ cooldownSeconds

/-- The policy of a connector without one of its own. -/
def defaultResiliencePolicy : ResiliencePolicy where
  bucketCapacity := 10
  refillIntervalSeconds := 1
  maxAttempts := 3
  baseBackoffSeconds := 1
  maxBackoffSeconds := 30
  maxJitterSeconds := 1
  failureThreshold := 5
  cooldownSeconds := 30
  bucket_capacity := by decide
  refill_interval := by decide
  max_attempts := by decide
  failure_threshold := by decide
  backoff_nonneg := by decide
  cooldown_nonneg := by decide

/-! ## The token bucket -/

/-- Tokens that refill one by one. -/
structure TokenBucket where
  tokens : ℤ
  lastRefill : ℤ
  deriving DecidableEq, Repr

/-- Grant the tokens of the whole intervals that have passed. -/
def TokenBucket.refill (policy : ResiliencePolicy) (bucket : TokenBucket) (now : ℤ) : TokenBucket :=
  let granted := (now - bucket.lastRefill) / policy.refillIntervalSeconds
  if granted > 0 then
    ⟨min policy.bucketCapacity (bucket.tokens + granted),
      bucket.lastRefill + granted * policy.refillIntervalSeconds⟩
  else bucket

/-- Spend a token, after one sleep when there is none. -/
def TokenBucket.acquire (policy : ResiliencePolicy) (bucket : TokenBucket) (refillNow waitNow : ℤ) :
    TokenBucket × Option ℤ :=
  let refilled := bucket.refill policy refillNow
  if refilled.tokens = 0 then
    let remainder := waitNow - refilled.lastRefill
    (⟨refilled.tokens + 1 - 1, refilled.lastRefill + policy.refillIntervalSeconds⟩,
      some (policy.refillIntervalSeconds - remainder))
  else (⟨refilled.tokens - 1, refilled.lastRefill⟩, none)

/-! ## The breaker -/

inductive CircuitState where
  | closed
  | opened
  | halfOpen
  deriving DecidableEq, Repr

/-- The breaker: its state, its consecutive failures and when it last opened. -/
structure CircuitBreaker where
  state : CircuitState
  failures : ℕ
  openedAt : ℤ
  justOpened : Bool
  deriving DecidableEq, Repr

namespace CircuitBreaker

/-- A fresh breaker. -/
def init : CircuitBreaker := ⟨.closed, 0, 0, false⟩

/-- Gate a call: a closed breaker admits it, one whose cooldown has passed admits it as the probe. -/
def beforeCall (policy : ResiliencePolicy) (breaker : CircuitBreaker) (now : ℤ) :
    Except String CircuitBreaker :=
  match breaker.state with
  | .closed => .ok breaker
  | .halfOpen => .error "connector circuit breaker is half-open; a probe is already in flight"
  | .opened =>
    if now - breaker.openedAt ≥ policy.cooldownSeconds then
      .ok { breaker with state := .halfOpen }
    else .error "connector circuit breaker is open; refusing the call"

/-- Close the breaker. -/
def recordSuccess (breaker : CircuitBreaker) : CircuitBreaker :=
  { breaker with state := .closed, failures := 0, justOpened := false }

/-- Open the breaker, for a fresh cooldown. -/
def tripOpen (breaker : CircuitBreaker) (now : ℤ) : CircuitBreaker :=
  { breaker with
    justOpened := breaker.state ≠ .opened
    state := .opened
    openedAt := now }

/-- Count a failure; one of a probe, or one at the threshold, opens the breaker. -/
def recordFailure (policy : ResiliencePolicy) (breaker : CircuitBreaker) (now : ℤ) :
    CircuitBreaker :=
  let counted := { breaker with justOpened := false, failures := breaker.failures + 1 }
  if counted.state = .halfOpen ∨ counted.failures ≥ policy.failureThreshold then
    counted.tripOpen now
  else counted

end CircuitBreaker

/-! ## Calls -/

/-- What an attempt raises; an error of the exchange carries its status. -/
structure TransportError where
  statusCode : Option ℤ
  text : String
  deriving DecidableEq, Repr

/-- Backpressure and server errors are retried. -/
def isRetryableStatus (statusCode : ℤ) : Bool :=
  if statusCode = 429 then true else 500 ≤ statusCode ∧ statusCode ≤ 599

/-- So is everything that is not an error of the exchange. -/
def isRetryableException (error : TransportError) : Bool :=
  match error.statusCode with
  | some statusCode => isRetryableStatus statusCode
  | none => true

/-- The backoff after a failed attempt, without its jitter. -/
def backoffSeconds (policy : ResiliencePolicy) (attempt : ℕ) : ℤ :=
  min policy.maxBackoffSeconds (policy.baseBackoffSeconds * 2 ^ min attempt 30)

/-- An unfinished call: the attempt it is at, whether its body is running, and the state of the
breaker that admitted it. -/
structure CallFrame where
  attempt : ℕ
  running : Bool
  admittedBy : CircuitState
  deriving DecidableEq, Repr

/-- A recorded opening of the breaker. -/
structure ConnectorHalt where
  consecutiveFailures : ℕ
  cooldownSeconds : ℤ
  lastError : String
  ts : String
  deriving DecidableEq, Repr

/-- How a call ended. -/
inductive CallEnd where
  | succeeded
  | exhausted
  | callerError
  deriving DecidableEq, Repr

/-- A caller with its unfinished calls, the innermost first; what it gave to the ledger writer and
to the sleeper, how its calls ended, and how often an attempt was made. -/
structure CallerState where
  breaker : CircuitBreaker
  bucket : TokenBucket
  stack : List CallFrame
  halts : List ConnectorHalt
  sleeps : List ℤ
  ended : List CallEnd
  attempts : ℕ
  deriving DecidableEq, Repr

/-- What happens next, with the readings of the clocks: a call, from outside or from the body of the
innermost one; an attempt of the innermost call; or the end of that attempt. -/
inductive CallerAction where
  | call (now : ℤ)
  | attempt (refillNow waitNow : ℤ)
  | finish (outcome : Option TransportError) (now : ℤ) (jitter : ℤ) (ts : String)
  deriving DecidableEq, Repr

/-- A caller that has made no call. -/
def CallerState.init (policy : ResiliencePolicy) (now : ℤ) : CallerState :=
  ⟨CircuitBreaker.init, ⟨policy.bucketCapacity, now⟩, [], [], [], [], 0⟩

/-- A call may begin when none is unfinished, or in the body of the innermost. -/
def mayCall : List CallFrame → Bool
  | [] => true
  | frame :: _ => frame.running

/-- Begin a call, if the breaker admits it. -/
def beginCall (policy : ResiliencePolicy) (s : CallerState) (now : ℤ) : CallerState :=
  match s.breaker.beforeCall policy now with
  | .error _ => s
  | .ok breaker =>
    { s with breaker := breaker, stack := ⟨0, false, s.breaker.state⟩ :: s.stack }

/-- End a call that has exhausted its attempts: one failure of the breaker, and an entry if it
opens. -/
def handleFailure (policy : ResiliencePolicy) (s : CallerState) (error : TransportError) (now : ℤ)
    (ts : String) : CallerState :=
  let breaker := s.breaker.recordFailure policy now
  { s with
    breaker := breaker
    halts :=
      if breaker.justOpened then
        s.halts ++ [⟨breaker.failures, policy.cooldownSeconds, error.text, ts⟩]
      else s.halts
    ended := s.ended ++ [.exhausted] }

/-- End an attempt of a call, over the calls that it runs in. -/
def finishAttempt (policy : ResiliencePolicy) (s : CallerState) (frame : CallFrame)
    (outer : List CallFrame) (outcome : Option TransportError) (now jitter : ℤ) (ts : String) :
    CallerState :=
  match outcome with
  | none =>
    { s with
      breaker := s.breaker.recordSuccess
      stack := outer
      ended := s.ended ++ [.succeeded] }
  | some error =>
    if isRetryableException error = false then
      { s with stack := outer, ended := s.ended ++ [.callerError] }
    else if frame.attempt + 1 < policy.maxAttempts then
      { s with
        stack := { frame with attempt := frame.attempt + 1, running := false } :: outer
        sleeps := s.sleeps ++ [backoffSeconds policy frame.attempt + jitter] }
    else handleFailure policy { s with stack := outer } error now ts

/-- One step of a caller; an action that cannot happen does nothing. -/
def callerStep (policy : ResiliencePolicy) (s : CallerState) : CallerAction → CallerState
  | .call now => if mayCall s.stack then beginCall policy s now else s
  | .attempt refillNow waitNow =>
    match s.stack with
    | [] => s
    | frame :: outer =>
      if frame.running then s
      else
        let acquired := s.bucket.acquire policy refillNow waitNow
        { s with
          bucket := acquired.1
          sleeps := s.sleeps ++ acquired.2.toList
          stack := { frame with running := true } :: outer
          attempts := s.attempts + 1 }
  | .finish outcome now jitter ts =>
    match s.stack with
    | [] => s
    | frame :: outer =>
      if frame.running then finishAttempt policy s frame outer outcome now jitter ts else s

/-- A run of a caller. -/
def runCaller (policy : ResiliencePolicy) (start : ℤ) (actions : List CallerAction) : CallerState :=
  actions.foldl (callerStep policy) (.init policy start)

/-! ## What the breaker has counted -/

/-- The calls that have failed since the last that succeeded; an error of the caller is no failure. -/
def failedSinceSuccess (ended : List CallEnd) : ℕ :=
  ended.foldl (fun failed ending =>
    match ending with
    | .succeeded => 0
    | .exhausted => failed + 1
    | .callerError => failed) 0

theorem failedSinceSuccess_append (ended : List CallEnd) (ending : CallEnd) :
    failedSinceSuccess (ended ++ [ending]) =
      match ending with
      | .succeeded => 0
      | .exhausted => failedSinceSuccess ended + 1
      | .callerError => failedSinceSuccess ended := by
  rw [failedSinceSuccess, List.foldl_append]
  cases ending <;> rfl

/-- A failure is counted, and opens the breaker or leaves its state; it has just opened exactly when
it was not open before. -/
theorem recordFailure_spec (policy : ResiliencePolicy) (breaker : CircuitBreaker) (now : ℤ) :
    (breaker.recordFailure policy now).failures = breaker.failures + 1 ∧
      ((breaker.recordFailure policy now).state = .opened ∨
        (breaker.recordFailure policy now).state = breaker.state ∧ breaker.state ≠ .halfOpen) ∧
      ((breaker.recordFailure policy now).justOpened = true ↔
        breaker.state ≠ .opened ∧ (breaker.recordFailure policy now).state = .opened) := by
  unfold CircuitBreaker.recordFailure CircuitBreaker.tripOpen
  dsimp only
  by_cases htrips : breaker.state = .halfOpen ∨ breaker.failures + 1 ≥ policy.failureThreshold
  · rw [if_pos htrips]
    simp
  · rw [if_neg htrips]
    obtain ⟨hstate, -⟩ := not_or.mp htrips
    refine ⟨rfl, Or.inr ⟨rfl, hstate⟩, ?_⟩
    simp

/-! ## The invariant -/

/-- Where a probe may be: the innermost call, while the breaker is half open. -/
def ProbeInnermost (s : CallerState) : Prop :=
  (∀ frame ∈ s.stack.tail, frame.admittedBy = .closed) ∧
    ∀ frame, s.stack.head? = some frame →
      frame.admittedBy = .closed ∨ frame.admittedBy = .opened ∧ s.breaker.state = .halfOpen

/-- What every run keeps. -/
structure CallerInvariant (s : CallerState) : Prop where
  counted : s.breaker.failures = failedSinceSuccess s.ended
  probe : ProbeInnermost s

/-- The half-open breaker has its probe. -/
def ProbeInFlight (s : CallerState) : Prop :=
  s.breaker.state = .halfOpen → ∃ frame, s.stack.head? = some frame ∧ frame.admittedBy = .opened

/-- The step does not end a probe by an error of the caller, which answers nothing. -/
def ProbeAnswered (s : CallerState) : CallerAction → Prop
  | .finish (some error) _ _ _ => isRetryableException error = false →
      ∀ frame, s.stack.head? = some frame → frame.running = true → frame.admittedBy ≠ .opened
  | _ => True

/-- The entry of a step: one if the breaker opens, with the failures since the last success. -/
def Ledgered (s s' : CallerState) : Prop :=
  if s.breaker.state ≠ .opened ∧ s'.breaker.state = .opened then
    ∃ halt, s'.halts = s.halts ++ [halt] ∧
      halt.consecutiveFailures = failedSinceSuccess s'.ended
  else s'.halts = s.halts

/-- Without its innermost call, no unfinished call is a probe. -/
theorem ProbeInnermost.pop {s : CallerState} {frame : CallFrame} {outer : List CallFrame}
    (h : ProbeInnermost s) (hstack : s.stack = frame :: outer) (breaker : CircuitBreaker)
    (ended : List CallEnd) (halts : List ConnectorHalt) :
    ProbeInnermost { s with breaker := breaker, stack := outer, ended := ended, halts := halts } := by
  have houter : ∀ other ∈ outer, other.admittedBy = .closed := by
    have htail := h.1
    rw [hstack] at htail
    exact htail
  exact ⟨fun other hother => houter other (List.mem_of_mem_tail hother),
    fun other hother => Or.inl (houter other (List.mem_of_mem_head? hother))⟩

variable {policy : ResiliencePolicy} {s : CallerState}

/-- What admitting a call does. -/
theorem beginCall_cases (policy : ResiliencePolicy) (s : CallerState) (now : ℤ) :
    beginCall policy s now = s ∨
      (s.breaker.state = .closed ∧
        beginCall policy s now = { s with stack := ⟨0, false, .closed⟩ :: s.stack }) ∨
      (s.breaker.state = .opened ∧ policy.cooldownSeconds ≤ now - s.breaker.openedAt ∧
        beginCall policy s now =
          { s with
            breaker := { s.breaker with state := .halfOpen }
            stack := ⟨0, false, .opened⟩ :: s.stack }) := by
  unfold beginCall CircuitBreaker.beforeCall
  cases hstate : s.breaker.state with
  | closed => exact Or.inr (Or.inl ⟨rfl, rfl⟩)
  | halfOpen => exact Or.inl rfl
  | opened =>
    by_cases hcooled : now - s.breaker.openedAt ≥ policy.cooldownSeconds
    · dsimp only
      rw [if_pos hcooled]
      exact Or.inr (Or.inr ⟨rfl, hcooled, rfl⟩)
    · dsimp only
      rw [if_neg hcooled]
      exact Or.inl rfl

/-- Outside the half-open state no unfinished call is a probe. -/
theorem ProbeInnermost.none_of_ne (h : ProbeInnermost s) (hstate : s.breaker.state ≠ .halfOpen) :
    ∀ frame ∈ s.stack, frame.admittedBy = .closed := by
  intro frame hframe
  cases hstack : s.stack with
  | nil =>
    rw [hstack] at hframe
    cases hframe
  | cons top outer =>
    have htail := h.1
    have hhead := h.2 top (by rw [hstack]; rfl)
    rw [hstack] at hframe htail
    rcases List.mem_cons.mp hframe with rfl | hin
    · exact hhead.resolve_right fun hprobe => hstate hprobe.2
    · exact htail frame hin

/-- What a step must be shown to keep. -/
def Keeps (s : CallerState) (action : CallerAction) (s' : CallerState) : Prop :=
  CallerInvariant s' ∧ Ledgered s s' ∧ (ProbeInFlight s → ProbeAnswered s action → ProbeInFlight s')

theorem ledgered_of_not_opens {s' : CallerState} (hhalts : s'.halts = s.halts)
    (hstate : s.breaker.state = .opened ∨ s'.breaker.state ≠ .opened) : Ledgered s s' := by
  unfold Ledgered
  rw [if_neg fun hopens => hstate.elim hopens.1 fun hne => hne hopens.2]
  exact hhalts

theorem Keeps.same (h : CallerInvariant s) (action : CallerAction) : Keeps s action s :=
  ⟨h, ledgered_of_not_opens rfl (Decidable.em _), fun hprobe _ => hprobe⟩

theorem beginCall_keeps (h : CallerInvariant s) (now : ℤ) :
    Keeps s (.call now) (beginCall policy s now) := by
  rcases beginCall_cases policy s now with hsame | ⟨hclosed, hnew⟩ | ⟨hopened, -, hnew⟩
  · rw [hsame]
    exact Keeps.same h _
  · have hnone := h.probe.none_of_ne (by rw [hclosed]; decide)
    rw [hnew]
    refine ⟨⟨h.counted, hnone, ?_⟩, ledgered_of_not_opens rfl ?_, ?_⟩
    · rintro frame ⟨⟩
      exact Or.inl rfl
    · exact Or.inr (by rw [hclosed]; decide)
    · intro _ _ hhalf
      rw [show s.breaker.state = .halfOpen from hhalf] at hclosed
      cases hclosed
  · have hnone := h.probe.none_of_ne (by rw [hopened]; decide)
    rw [hnew]
    refine ⟨⟨h.counted, hnone, ?_⟩, ledgered_of_not_opens rfl (Or.inl hopened), ?_⟩
    · rintro frame ⟨⟩
      exact Or.inr ⟨rfl, rfl⟩
    · exact fun _ _ _ => ⟨_, rfl, rfl⟩

/-- Changing how far the innermost call is leaves what is kept. -/
theorem Keeps.of_progress (h : CallerInvariant s) (action : CallerAction) {s' : CallerState}
    {frame frame' : CallFrame} {outer : List CallFrame} (hstack : s.stack = frame :: outer)
    (hstack' : s'.stack = frame' :: outer) (hadmitted : frame'.admittedBy = frame.admittedBy)
    (hbreaker : s'.breaker = s.breaker) (hended : s'.ended = s.ended)
    (hhalts : s'.halts = s.halts) : Keeps s action s' := by
  refine ⟨⟨?_, ?_, ?_⟩, ledgered_of_not_opens hhalts ?_, ?_⟩
  · rw [hbreaker, hended]
    exact h.counted
  · have htail := h.probe.1
    rw [hstack] at htail
    rw [hstack']
    exact htail
  · intro top htop
    have hhead := h.probe.2 frame (by rw [hstack]; rfl)
    rw [hstack'] at htop
    cases htop
    rw [hadmitted, hbreaker]
    exact hhead
  · rw [hbreaker]
    exact Decidable.em _
  · intro hprobe _ hhalf
    rw [hbreaker] at hhalf
    obtain ⟨top, htop, hopened⟩ := hprobe hhalf
    rw [hstack] at htop
    cases htop
    exact ⟨frame', by rw [hstack']; rfl, hadmitted.trans hopened⟩

theorem handleFailure_keeps (h : CallerInvariant s) {frame : CallFrame} {outer : List CallFrame}
    (hstack : s.stack = frame :: outer) (action : CallerAction) (error : TransportError) (now : ℤ)
    (ts : String) :
    Keeps s action (handleFailure policy { s with stack := outer } error now ts) := by
  obtain ⟨hfailures, hstate, hopened⟩ := recordFailure_spec policy s.breaker now
  have hcounted : (s.breaker.recordFailure policy now).failures =
      failedSinceSuccess (s.ended ++ [.exhausted]) := by
    rw [hfailures, failedSinceSuccess_append, h.counted]
  refine ⟨⟨hcounted, h.probe.pop hstack _ _ _⟩, ?_, ?_⟩
  · unfold Ledgered handleFailure
    dsimp only
    by_cases hopens : s.breaker.state ≠ .opened ∧
        (s.breaker.recordFailure policy now).state = .opened
    · rw [if_pos hopens, if_pos (hopened.mpr hopens)]
      exact ⟨_, rfl, hcounted⟩
    · rw [if_neg hopens, if_neg fun hjust => hopens (hopened.mp hjust)]
  · intro _ _ hhalf
    have hlater : (s.breaker.recordFailure policy now).state = .halfOpen := hhalf
    rcases hstate with hopen | ⟨hsame, hne⟩
    · rw [hopen] at hlater
      cases hlater
    · exact absurd (hsame.symm.trans hlater) hne

theorem finishAttempt_keeps (h : CallerInvariant s) {frame : CallFrame} {outer : List CallFrame}
    (hstack : s.stack = frame :: outer) (hrunning : frame.running = true)
    (outcome : Option TransportError) (now jitter : ℤ) (ts : String) :
    Keeps s (.finish outcome now jitter ts)
      (finishAttempt policy s frame outer outcome now jitter ts) := by
  unfold finishAttempt
  cases outcome with
  | none =>
    refine ⟨⟨?_, h.probe.pop hstack _ _ _⟩, ledgered_of_not_opens rfl (Or.inr nofun),
      fun _ _ => nofun⟩
    show 0 = _
    rw [failedSinceSuccess_append]
  | some error =>
    dsimp only
    by_cases hcaller : isRetryableException error = false
    · rw [if_pos hcaller]
      refine ⟨⟨?_, h.probe.pop hstack _ _ _⟩, ledgered_of_not_opens rfl (Decidable.em _), ?_⟩
      · show s.breaker.failures = _
        rw [failedSinceSuccess_append, h.counted]
      · intro hprobe hanswered hhalf
        obtain ⟨top, htop, hopened⟩ := hprobe hhalf
        rw [hstack] at htop
        cases htop
        exact absurd hopened (hanswered hcaller frame (by rw [hstack]; rfl) hrunning)
    · rw [if_neg hcaller]
      by_cases hretry : frame.attempt + 1 < policy.maxAttempts
      · rw [if_pos hretry]
        exact Keeps.of_progress h _ hstack rfl rfl rfl rfl rfl
      · rw [if_neg hretry]
        exact handleFailure_keeps h hstack _ error now ts

/-- **One step** keeps the invariant and ledgers what it opens; and if it answers its probe, a
half-open breaker still has one. -/
theorem callerStep_keeps (h : CallerInvariant s) (action : CallerAction) :
    Keeps s action (callerStep policy s action) := by
  cases action with
  | call now =>
    show Keeps s (.call now) (if mayCall s.stack then beginCall policy s now else s)
    by_cases hmay : mayCall s.stack = true
    · rw [if_pos hmay]
      exact beginCall_keeps h now
    · rw [if_neg hmay]
      exact Keeps.same h _
  | attempt refillNow waitNow =>
    cases hstack : s.stack with
    | nil =>
      simp only [callerStep, hstack]
      exact Keeps.same h _
    | cons frame outer =>
      simp only [callerStep, hstack]
      by_cases hrunning : frame.running = true
      · rw [if_pos hrunning]
        exact Keeps.same h _
      · rw [if_neg hrunning]
        exact Keeps.of_progress h _ hstack rfl rfl rfl rfl rfl
  | finish outcome now jitter ts =>
    cases hstack : s.stack with
    | nil =>
      simp only [callerStep, hstack]
      exact Keeps.same h _
    | cons frame outer =>
      simp only [callerStep, hstack]
      by_cases hrunning : frame.running = true
      · rw [if_pos hrunning]
        exact finishAttempt_keeps h hstack hrunning outcome now jitter ts
      · rw [if_neg hrunning]
        exact Keeps.same h _

theorem runCaller_append (policy : ResiliencePolicy) (start : ℤ) (done : List CallerAction)
    (action : CallerAction) :
    runCaller policy start (done ++ [action]) =
      callerStep policy (runCaller policy start done) action := by
  rw [runCaller, List.foldl_append]
  rfl

/-- **A run** keeps the invariant. -/
theorem callerInvariant_run (policy : ResiliencePolicy) (start : ℤ) (actions : List CallerAction) :
    CallerInvariant (runCaller policy start actions) := by
  induction actions using List.reverseRecOn with
  | nil => exact ⟨rfl, nofun, nofun⟩
  | append_singleton done action ih =>
    rw [runCaller_append]
    exact (callerStep_keeps ih action).1

/-- No step of a run ends a probe by an error of the caller. -/
def ProbesAnswered (policy : ResiliencePolicy) (start : ℤ) (actions : List CallerAction) : Prop :=
  ∀ done action rest, actions = done ++ action :: rest →
    ProbeAnswered (runCaller policy start done) action

/-- A half-open breaker has its probe, as long as the probes are answered. -/
theorem probeInFlight_run (policy : ResiliencePolicy) (start : ℤ) :
    ∀ actions : List CallerAction, ProbesAnswered policy start actions →
      ProbeInFlight (runCaller policy start actions) := by
  intro actions
  induction actions using List.reverseRecOn with
  | nil => exact fun _ => nofun
  | append_singleton done action ih =>
    intro hanswered
    rw [runCaller_append]
    refine (callerStep_keeps (callerInvariant_run policy start done) action).2.2 (ih ?_)
      (hanswered done action [] rfl)
    intro before other rest hsplit
    exact hanswered before other (rest ++ [action]) (by rw [hsplit, List.append_assoc]; rfl)

/-! ## The laws of the breaker -/

/-- What holds of a state of a caller: at most one probe, and no other call admitted beside it; a
breaker that recovers; no call admitted while it is open and cools down; an entry for each opening. -/
structure BreakerLaws (policy : ResiliencePolicy) (answered : Prop) (s : CallerState) : Prop where
  one_probe : s.breaker.state = .halfOpen →
    s.stack.countP (·.admittedBy = .opened) ≤ 1 ∧ ∀ now, callerStep policy s (.call now) = s
  recovers : answered → s.stack = [] → s.breaker.state ≠ .halfOpen ∧
    ∀ now, (s.breaker.state = .opened → policy.cooldownSeconds ≤ now - s.breaker.openedAt) →
      (callerStep policy s (.call now)).stack.length = 1
  cooling : s.breaker.state = .opened → (∀ frame ∈ s.stack, frame.admittedBy = .closed) ∧
    ∀ now, now - s.breaker.openedAt < policy.cooldownSeconds → callerStep policy s (.call now) = s
  ledgered : ∀ action, Ledgered s (callerStep policy s action)

/-- A call that the breaker refuses changes nothing. -/
theorem callerStep_call_refused {now : ℤ} {text : String}
    (h : s.breaker.beforeCall policy now = .error text) : callerStep policy s (.call now) = s := by
  show (if mayCall s.stack then beginCall policy s now else s) = s
  rw [beginCall, h]
  exact ite_self _

/-- A breaker that is not half open admits a call, once it has cooled down. -/
theorem callerStep_call_admitted (hempty : s.stack = []) (hstate : s.breaker.state ≠ .halfOpen)
    {now : ℤ}
    (hcooled : s.breaker.state = .opened → policy.cooldownSeconds ≤ now - s.breaker.openedAt) :
    (callerStep policy s (.call now)).stack.length = 1 := by
  show (if mayCall s.stack then beginCall policy s now else s).stack.length = 1
  rw [hempty]
  show (beginCall policy s now).stack.length = 1
  rw [beginCall, CircuitBreaker.beforeCall]
  cases hbreaker : s.breaker.state with
  | closed =>
    show (_ :: s.stack).length = 1
    rw [hempty]
    rfl
  | halfOpen => exact absurd hbreaker hstate
  | opened =>
    dsimp only
    rw [if_pos (hcooled hbreaker)]
    show (_ :: s.stack).length = 1
    rw [hempty]
    rfl

/-- **The circuit breaker** admits one probe at a time and no call while it cools down, ledgers each
opening once with the calls that failed since the last success, and recovers if its probes are
answered. -/
theorem breaker_laws (policy : ResiliencePolicy) (start : ℤ) (actions : List CallerAction) :
    BreakerLaws policy (ProbesAnswered policy start actions) (runCaller policy start actions) := by
  have hinvariant := callerInvariant_run policy start actions
  refine ⟨fun hhalf => ⟨?_, fun now => ?_⟩, fun hanswered hempty => ?_,
    fun hopened => ⟨hinvariant.probe.none_of_ne (by rw [hopened]; decide), fun now hcooling => ?_⟩,
    fun action => (callerStep_keeps hinvariant action).2.1⟩
  · cases hstack : (runCaller policy start actions).stack with
    | nil => exact Nat.zero_le _
    | cons top outer =>
      have htail := hinvariant.probe.1
      rw [hstack] at htail
      have hzero : outer.countP (·.admittedBy = .opened) = 0 := by
        refine List.countP_eq_zero.mpr fun frame hframe => ?_
        rw [htail frame hframe]
        decide
      rw [List.countP_cons, hzero]
      split <;> omega
  · have hrefused : (runCaller policy start actions).breaker.beforeCall policy now = .error
        "connector circuit breaker is half-open; a probe is already in flight" := by
      rw [CircuitBreaker.beforeCall, hhalf]
    exact callerStep_call_refused hrefused
  · have hstate : (runCaller policy start actions).breaker.state ≠ .halfOpen := by
      intro hhalf
      obtain ⟨frame, hframe, -⟩ := probeInFlight_run policy start actions hanswered hhalf
      rw [hempty] at hframe
      cases hframe
    exact ⟨hstate, fun now hcooled => callerStep_call_admitted hempty hstate hcooled⟩
  · have hrefused : (runCaller policy start actions).breaker.beforeCall policy now = .error
        "connector circuit breaker is open; refusing the call" := by
      rw [CircuitBreaker.beforeCall, hopened]
      dsimp only
      rw [if_neg (by omega)]
    exact callerStep_call_refused hrefused

/-! ## Calls in the body of a call -/

/-- A policy whose first failure opens the breaker. -/
def oneStrikePolicy : ResiliencePolicy :=
  { defaultResiliencePolicy with
    maxAttempts := 2
    failureThreshold := 1
    max_attempts := by decide
    failure_threshold := by decide }

/-- A failure of the transport. -/
def transportFailure : TransportError := ⟨none, "ConnectionError()"⟩

/-- A call whose body runs a second one, which exhausts its attempts and opens the breaker. -/
def openedFromBody : List CallerAction :=
  [.call 0, .attempt 0 0, .call 0, .attempt 0 0, .finish (some transportFailure) 0 0 "t0",
    .attempt 0 0, .finish (some transportFailure) 0 0 "t0"]

/-- The outer call was admitted before the breaker opened: it makes its next attempt while the
breaker cools down, and it is unfinished beside the probe that its body starts afterwards. -/
theorem outer_call_outlives_opening :
    (runCaller oneStrikePolicy 0 openedFromBody).breaker.state = .opened ∧
    1 - (runCaller oneStrikePolicy 0 openedFromBody).breaker.openedAt <
      oneStrikePolicy.cooldownSeconds ∧
    (runCaller oneStrikePolicy 0
        (openedFromBody ++ [.finish (some transportFailure) 1 0 "t1", .attempt 1 1])).attempts =
      (runCaller oneStrikePolicy 0 openedFromBody).attempts + 1 ∧
    (runCaller oneStrikePolicy 0
        (openedFromBody ++ [.finish (some transportFailure) 1 0 "t1", .attempt 1 1])).breaker.state =
      .opened ∧
    (runCaller oneStrikePolicy 0 (openedFromBody ++ [.call 30])).breaker.state = .halfOpen ∧
    (runCaller oneStrikePolicy 0 (openedFromBody ++ [.call 30])).stack.length = 2 := by
  decide +kernel

end Windbreak.Resilience
