import Mathlib.Tactic.Simps.Basic
import Windbreak.Core.Effects
import Windbreak.Core.Runs
import Windbreak.Ledger.Events
import Windbreak.RiskKernel.Checks
import Windbreak.RiskKernel.Modes

/-!
# Governance of the equity floor

An operator raises the floor at once and lowers it in two steps: a request, and after a cool-off its
confirmation by a nonce.  Fresh equity highs ratchet the floor up.  Every change is an event, and the
object can be rebuilt from the events.

* **`raiseFloor`**, **`requestLower`**, **`confirmLower`**, **`observeEquity`** — the operations, each
  a computation that may raise halfway, also because a collaborator does.
* **`fromEvents`** — the object rebuilt.
* **`raiseFloor_run`** and its siblings — what each operation comes to, collaborators that raise
  included.
-/

namespace Windbreak

/-! ## Objects -/

/-- Who asks for a change of the floor. -/
inductive ChangeOrigin where
  | CLI
  | DASHBOARD
  deriving DecidableEq, Repr

def ChangeOrigin.name : ChangeOrigin → String
  | .CLI => "CLI"
  | .DASHBOARD => "DASHBOARD"

/-- A lowering that was requested and waits for its cool-off. -/
structure PendingFloorLower where
  nonce : String
  readyAt : ℤ
  targetFloorMicros : MoneyMicros
  deriving DecidableEq, Repr

inductive GovernanceErrorKind where
  | valueError
  | keyError
  | typeError
  | forbiddenOrigin
  | loweringAlreadyPending
  | noPendingLower
  | coolOffActive
  | nonceMismatch
  | writer
  | dispatcher
  | modeMachine
  deriving DecidableEq, Repr

structure GovernanceError where
  kind : GovernanceErrorKind
  message : String
  deriving DecidableEq, Repr

/-- The alerts that governance dispatches. -/
inductive GovernanceAlert where
  | FLOOR_CHANGE_REQUEST
  | PROFIT_SWEEP_ADVISORY
  deriving DecidableEq, Repr

/-- What is fixed when the object is wired. -/
structure GovernanceConfig where
  ratchetPpm : ℤ
  profitSweepThreshold : MoneyMicros
  coolOffSeconds : ℤ

/-- What the collaborators do during one call. -/
structure GovernanceEnv where
  recordRaises : Event → Bool
  dispatchRaises : GovernanceAlert → Bool
  clock : ℤ
  freshNonce : String

/-- What the object remembers. -/
@[ext] structure FloorGovernance where
  floor : MoneyMicros
  highWaterMark : MoneyMicros
  pending : Option PendingFloorLower
  deriving DecidableEq, Repr

namespace FloorGovernance

/-- A freshly constructed object. -/
def fresh (initialFloor : MoneyMicros) : FloorGovernance := ⟨initialFloor, ⟨0⟩, none⟩

@[simps] def withFloor (g : FloorGovernance) (floor : MoneyMicros) : FloorGovernance :=
  { g with floor := floor }

@[simps] def withMark (g : FloorGovernance) (mark : MoneyMicros) : FloorGovernance :=
  { g with highWaterMark := mark }

@[simps] def withPending (g : FloorGovernance) (pending : Option PendingFloorLower) :
    FloorGovernance :=
  { g with pending := pending }

end FloorGovernance

/-- The object, the mode machine it demotes, the events recorded so far, and the alerts sent. -/
structure GovernanceWorld where
  governance : FloorGovernance
  machine : ModeStateMachine
  log : List Event
  alerts : List (GovernanceAlert × String)

namespace GovernanceWorld

/-- A fresh object next to a mode machine. -/
def fresh (initialFloor : MoneyMicros) (machine : ModeStateMachine) : GovernanceWorld :=
  ⟨.fresh initialFloor, machine, [], []⟩

@[simps] def withGovernance (w : GovernanceWorld) (g : FloorGovernance) : GovernanceWorld :=
  { w with governance := g }

@[simps] def withMachine (w : GovernanceWorld) (machine : ModeStateMachine) : GovernanceWorld :=
  { w with machine := machine }

@[simps] def logged (w : GovernanceWorld) (event : Event) : GovernanceWorld :=
  { w with log := w.log ++ [event] }

@[simps] def alerted (w : GovernanceWorld) (alert : GovernanceAlert) (message : String) :
    GovernanceWorld :=
  { w with alerts := w.alerts ++ [(alert, message)] }

end GovernanceWorld

abbrev GovernanceM := EStateM GovernanceError GovernanceWorld

/-! ## Events -/

def floorRaisedEvent (previous new : MoneyMicros) (origin : ChangeOrigin) : Event :=
  kernelEvent "FloorRaised" 1
    [("previous_floor_micros", .int previous.value), ("new_floor_micros", .int new.value),
      ("origin", .str origin.name)]

def floorLowerRequestedEvent (pending : PendingFloorLower) (requestedAt : ℤ)
    (origin : ChangeOrigin) : Event :=
  kernelEvent "FloorLowerRequested" 1
    [("nonce", .str pending.nonce), ("target_floor_micros", .int pending.targetFloorMicros.value),
      ("requested_at", .int requestedAt), ("ready_at", .int pending.readyAt),
      ("origin", .str origin.name)]

def floorLowerRefusedEvent (reason : String) (context : List (String × Json)) : Event :=
  kernelEvent "FloorLowerRefused" 1 (("reason", .str reason) :: context)

def floorLowerConfirmedEvent (previous new : MoneyMicros) (demotedTo : String) : Event :=
  kernelEvent "FloorLowerConfirmed" 1
    [("previous_floor_micros", .int previous.value), ("new_floor_micros", .int new.value),
      ("demoted_to", .str demotedTo)]

def floorRatchetAppliedEvent (previous new gain : MoneyMicros) (increment : ℤ) : Event :=
  kernelEvent "FloorRatchetApplied" 1
    [("previous_floor_micros", .int previous.value), ("new_floor_micros", .int new.value),
      ("gain_micros", .int gain.value), ("increment_micros", .int increment)]

def equityHighWaterMarkAdvancedEvent (previous new : MoneyMicros) : Event :=
  kernelEvent "EquityHighWaterMarkAdvanced" 1
    [("previous_mark_micros", .int previous.value), ("new_mark_micros", .int new.value)]

/-- The three refusals that are recorded. -/
def originRefusal (newFloor : MoneyMicros) (origin : ChangeOrigin) : Event :=
  floorLowerRefusedEvent "forbidden_origin"
    [("target_floor_micros", .int newFloor.value), ("origin", .str origin.name)]

def coolOffRefusal (pending : PendingFloorLower) : Event :=
  floorLowerRefusedEvent "cool_off_active"
    [("nonce", .str pending.nonce), ("ready_at", .int pending.readyAt)]

def nonceRefusal : Event := floorLowerRefusedEvent "nonce_mismatch" [("reason_detail", .str "nonce")]

/-! ## Errors and alerts -/

def notHigherError (floor newFloor : MoneyMicros) : GovernanceError :=
  ⟨.valueError, s!"raise_floor requires a strictly higher floor than {MoneyMicros.text floor}; " ++
    s!"use request_lower to lower it to {MoneyMicros.text newFloor}"⟩

def forbiddenOriginError (origin : ChangeOrigin) : GovernanceError :=
  ⟨.forbiddenOrigin, s!"floor lowering may only be requested from the CLI, not {origin.name}"⟩

def alreadyPendingError : GovernanceError :=
  ⟨.loweringAlreadyPending, "a floor lowering is already pending confirmation"⟩

def noPendingError : GovernanceError :=
  ⟨.noPendingLower, "no floor lowering is pending confirmation"⟩

def coolOffError (readyAt : ℤ) : GovernanceError :=
  ⟨.coolOffActive, s!"floor lowering is not confirmable until {readyAt}"⟩

def notAsciiError : GovernanceError :=
  ⟨.typeError, "comparing strings with non-ASCII characters is not supported"⟩

def nonceError : GovernanceError := ⟨.nonceMismatch, "floor-lowering nonce does not match"⟩

def writerError : GovernanceError := ⟨.writer, "event writer failed"⟩

def dispatcherError : GovernanceError := ⟨.dispatcher, "alert dispatcher failed"⟩

def requestedText (pending : PendingFloorLower) : String :=
  s!"floor lowering to {MoneyMicros.text pending.targetFloorMicros} requested; " ++
    s!"confirmable at {pending.readyAt}"

def loweredText (floor : MoneyMicros) (mode : Mode) : String :=
  s!"floor lowered to {MoneyMicros.text floor}; mode is {mode.name}"

def sweepText (gain threshold : MoneyMicros) : String :=
  s!"profit of {MoneyMicros.text gain} since the high-water mark exceeds the " ++
    s!"sweep threshold {MoneyMicros.text threshold}"

/-! ## Effects -/

/-- Record one event through the writer. -/
def recordGovernance (env : GovernanceEnv) (event : Event) : GovernanceM Unit :=
  if env.recordRaises event then throw writerError else modify (·.logged event)

/-- Send one alert through the dispatcher. -/
def dispatchGovernance (env : GovernanceEnv) (alert : GovernanceAlert) (message : String) :
    GovernanceM Unit :=
  if env.dispatchRaises alert then throw dispatcherError else modify (·.alerted alert message)

/-- Change what the object remembers. -/
def govern (f : FloorGovernance → FloorGovernance) : GovernanceM Unit :=
  modify fun w => w.withGovernance (f w.governance)

/-! ## Operations -/

/-- Raise the floor at once. -/
def raiseFloor (env : GovernanceEnv) (newFloor : MoneyMicros) (origin : ChangeOrigin) :
    GovernanceM Unit := do
  let previous := (← get).governance.floor
  if newFloor ≤ previous then throw (notHigherError previous newFloor)
  else do
    govern (·.withFloor newFloor)
    recordGovernance env (floorRaisedEvent previous newFloor origin)

/-- The lowering that a request issues; its deadline is fixed here. -/
def newPending (cfg : GovernanceConfig) (env : GovernanceEnv) (newFloor : MoneyMicros) :
    PendingFloorLower :=
  ⟨env.freshNonce, env.clock + cfg.coolOffSeconds, newFloor⟩

/-- Begin a lowering. -/
def requestLower (cfg : GovernanceConfig) (env : GovernanceEnv) (newFloor : MoneyMicros)
    (origin : ChangeOrigin) : GovernanceM PendingFloorLower :=
  if origin ≠ .CLI then do
    recordGovernance env (originRefusal newFloor origin)
    throw (forbiddenOriginError origin)
  else do
    let g := (← get).governance
    if g.pending.isSome then throw alreadyPendingError
    else do
      let pending := newPending cfg env newFloor
      govern (·.withPending (some pending))
      recordGovernance env (floorLowerRequestedEvent pending env.clock origin)
      dispatchGovernance env .FLOOR_CHANGE_REQUEST (requestedText pending)
      return pending

/-- The live modes, which a completed lowering demotes out of. -/
def liveModes : List Mode := [.LIVE, .LIVE_MICRO]

/-- Demote rung by rung until out of the live modes; there are as many rungs as live modes. -/
def demoteOutOfLive : ℕ → ModeStateMachine → Except KernelError ModeStateMachine
  | 0, m => .ok m
  | n + 1, m => if m.mode ∈ liveModes then do demoteOutOfLive n (← m.demoteOneRung) else .ok m

/-- Whether the comparison of two nonces raises: it takes ASCII text only. -/
def comparable (nonce : String) : Bool := nonce.toList.all fun c => decide (c.toNat < 128)

/-- Record a refusal and raise unless a pending lowering may be confirmed. -/
def rejectUnlessConfirmable (env : GovernanceEnv) (nonce : String) (pending : PendingFloorLower) :
    GovernanceM Unit :=
  if env.clock < pending.readyAt then do
    recordGovernance env (coolOffRefusal pending)
    throw (coolOffError pending.readyAt)
  else if ¬ (comparable nonce ∧ comparable pending.nonce) then throw notAsciiError
  else if nonce ≠ pending.nonce then do
    recordGovernance env nonceRefusal
    throw nonceError
  else return ()

/-- Apply a confirmed lowering: floor, demotion, alert, event, and only then the pending one is
cleared. -/
def applyConfirmedLower (env : GovernanceEnv) (pending : PendingFloorLower) : GovernanceM Unit := do
  let w ← get
  govern (·.withFloor pending.targetFloorMicros)
  match demoteOutOfLive liveModes.length w.machine with
  | .error e => throw ⟨.modeMachine, e.message⟩
  | .ok machine => do
    modify (·.withMachine machine)
    dispatchGovernance env .FLOOR_CHANGE_REQUEST (loweredText pending.targetFloorMicros machine.mode)
    recordGovernance env (floorLowerConfirmedEvent w.governance.floor pending.targetFloorMicros
      machine.mode.name)
    govern (·.withPending none)

/-- Confirm a pending lowering. -/
def confirmLower (env : GovernanceEnv) (nonce : String) : GovernanceM Unit := do
  match (← get).governance.pending with
  | none => throw noPendingError
  | some pending => do
    rejectUnlessConfirmable env nonce pending
    applyConfirmedLower env pending

/-- Advise when a gain exceeds the threshold. -/
def maybeAdviseProfitSweep (cfg : GovernanceConfig) (env : GovernanceEnv) (gain : MoneyMicros) :
    GovernanceM Unit :=
  if cfg.profitSweepThreshold < gain then
    dispatchGovernance env .PROFIT_SWEEP_ADVISORY (sweepText gain cfg.profitSweepThreshold)
  else return ()

/-- Ratchet the floor up by its share of a gain. -/
def maybeRatchet (cfg : GovernanceConfig) (env : GovernanceEnv) (gain : MoneyMicros) :
    GovernanceM Unit := do
  let increment := ppmOf gain.value cfg.ratchetPpm
  let previous := (← get).governance.floor
  if increment ≤ 0 then return ()
  else do
    govern (·.withFloor (previous + ⟨increment⟩))
    recordGovernance env (floorRatchetAppliedEvent previous (previous + ⟨increment⟩) gain increment)

/-- Ratchet and advise on a fresh high. -/
def observeEquity (cfg : GovernanceConfig) (env : GovernanceEnv) (equity : MoneyMicros) :
    GovernanceM Unit := do
  let mark := (← get).governance.highWaterMark
  if equity ≤ mark then return ()
  else do
    maybeAdviseProfitSweep cfg env (equity - mark)
    maybeRatchet cfg env (equity - mark)
    recordGovernance env (equityHighWaterMarkAdvancedEvent mark equity)
    govern (·.withMark equity)

/-! ## Replay -/

/-- An integer field of a replayed payload; one that is missing raises. -/
def replayedMoney (event : Event) (key : String) : Except GovernanceError MoneyMicros :=
  match event.int? key with
  | some value => .ok ⟨value⟩
  | none => .error ⟨.keyError, key⟩

def pendingFromPayload (event : Event) : Except GovernanceError PendingFloorLower :=
  match event.str? "nonce", event.int? "ready_at" with
  | some nonce, some readyAt => do
    let target ← replayedMoney event "target_floor_micros"
    return ⟨nonce, readyAt, target⟩
  | none, _ => .error ⟨.keyError, "nonce"⟩
  | some _, none => .error ⟨.keyError, "ready_at"⟩

/-- Fold one event into the object; an event of another type is ignored. -/
def absorbReplayedEvent (g : FloorGovernance) (event : Event) :
    Except GovernanceError FloorGovernance :=
  if event.eventType ∈ ["FloorRaised", "FloorRatchetApplied"] then do
    return g.withFloor (← replayedMoney event "new_floor_micros")
  else if event.eventType = "EquityHighWaterMarkAdvanced" then do
    return g.withMark (← replayedMoney event "new_mark_micros")
  else if event.eventType = "FloorLowerRequested" then do
    return g.withPending (some (← pendingFromPayload event))
  else if event.eventType = "FloorLowerConfirmed" then do
    return (g.withFloor (← replayedMoney event "new_floor_micros")).withPending none
  else .ok g

/-- The object rebuilt from a history; it starts from a floor of zero. -/
def fromEvents (events : List Event) : Except GovernanceError FloorGovernance :=
  events.foldlM absorbReplayedEvent (.fresh ⟨0⟩)

/-! ## Steps -/

/-- An operation, or a move of the mode by another component. -/
inductive GovernanceOp where
  | raiseFloor (newFloor : MoneyMicros) (origin : ChangeOrigin)
  | requestLower (newFloor : MoneyMicros) (origin : ChangeOrigin)
  | confirmLower (nonce : String)
  | observeEquity (equity : MoneyMicros)
  | modeMoves (machine : ModeStateMachine)

structure GovernanceInput where
  env : GovernanceEnv
  op : GovernanceOp

/-- One operation: what it raised, if anything, and what it left behind. -/
def governanceStep (cfg : GovernanceConfig) (w : GovernanceWorld) (i : GovernanceInput) :
    Option GovernanceError × GovernanceWorld :=
  match i.op with
  | .raiseFloor newFloor origin => Effects.settle ((raiseFloor i.env newFloor origin).run w)
  | .requestLower newFloor origin => Effects.settle ((requestLower cfg i.env newFloor origin).run w)
  | .confirmLower nonce => Effects.settle ((confirmLower i.env nonce).run w)
  | .observeEquity equity => Effects.settle ((observeEquity cfg i.env equity).run w)
  | .modeMoves machine => (none, w.withMachine machine)

abbrev GovernanceTransition :=
  Machine.Transition GovernanceWorld GovernanceInput (Option GovernanceError)

/-! ## What an operation does -/

/-- The mode that a completed lowering lands in. -/
def landing (mode : Mode) : Mode := if mode ∈ liveModes then .PAPER else mode

theorem landing_not_live (mode : Mode) : landing mode ∉ liveModes := by
  cases mode <;> decide

/-- **Demoting out of the live modes** never raises and lands below them. -/
theorem demoteOutOfLive_eq (m : ModeStateMachine) :
    demoteOutOfLive liveModes.length m = .ok (m.withMode (landing m.mode)) := by
  obtain ⟨ceiling, mode, rank, hrank⟩ := m
  cases mode <;> rfl

section

variable {cfg : GovernanceConfig} (env : GovernanceEnv) (w : GovernanceWorld)

theorem raiseFloor_run (newFloor : MoneyMicros) (origin : ChangeOrigin) :
    (raiseFloor env newFloor origin).run w =
      if newFloor ≤ w.governance.floor then .error (notHigherError w.governance.floor newFloor) w
      else if env.recordRaises (floorRaisedEvent w.governance.floor newFloor origin) then
        .error writerError (w.withGovernance (w.governance.withFloor newFloor))
      else .ok () ((w.withGovernance (w.governance.withFloor newFloor)).logged
        (floorRaisedEvent w.governance.floor newFloor origin)) := by
  by_cases hle : newFloor ≤ w.governance.floor
  · rw [if_pos hle]
    simp [raiseFloor, hle]
  · rw [if_neg hle]
    by_cases hraises : env.recordRaises (floorRaisedEvent w.governance.floor newFloor origin)
    · simp [raiseFloor, hle, recordGovernance, govern, hraises]
    · simp [raiseFloor, hle, recordGovernance, govern, hraises]

theorem requestLower_run (newFloor : MoneyMicros) (origin : ChangeOrigin) :
    (requestLower cfg env newFloor origin).run w =
      if origin ≠ .CLI then
        if env.recordRaises (originRefusal newFloor origin) then .error writerError w
        else .error (forbiddenOriginError origin) (w.logged (originRefusal newFloor origin))
      else if w.governance.pending.isSome then .error alreadyPendingError w
      else
        let pending := newPending cfg env newFloor
        let w' := w.withGovernance (w.governance.withPending (some pending))
        if env.recordRaises (floorLowerRequestedEvent pending env.clock origin) then
          .error writerError w'
        else
          let w' := w'.logged (floorLowerRequestedEvent pending env.clock origin)
          if env.dispatchRaises .FLOOR_CHANGE_REQUEST then .error dispatcherError w'
          else .ok pending (w'.alerted .FLOOR_CHANGE_REQUEST (requestedText pending)) := by
  by_cases horigin : origin ≠ .CLI
  · rw [if_pos horigin]
    by_cases hraises : env.recordRaises (originRefusal newFloor origin)
    · simp [requestLower, horigin, recordGovernance, hraises]
    · simp [requestLower, horigin, recordGovernance, hraises]
  · rw [if_neg horigin]
    have hcli : origin = .CLI := not_not.mp horigin
    by_cases hpending : w.governance.pending.isSome
    · simp [requestLower, hcli, hpending]
    · by_cases hraises :
          env.recordRaises (floorLowerRequestedEvent (newPending cfg env newFloor) env.clock origin)
      · rw [hcli] at hraises
        simp [requestLower, hcli, hpending, recordGovernance, govern, hraises]
      · rw [hcli] at hraises
        by_cases hdispatch : env.dispatchRaises .FLOOR_CHANGE_REQUEST
        · simp [requestLower, hcli, hpending, recordGovernance, govern, hraises, dispatchGovernance,
            hdispatch]
        · simp [requestLower, hcli, hpending, recordGovernance, govern, hraises, dispatchGovernance,
            hdispatch]

theorem rejectUnlessConfirmable_run (nonce : String) (pending : PendingFloorLower) :
    (rejectUnlessConfirmable env nonce pending).run w =
      if env.clock < pending.readyAt then
        if env.recordRaises (coolOffRefusal pending) then .error writerError w
        else .error (coolOffError pending.readyAt) (w.logged (coolOffRefusal pending))
      else if ¬ (comparable nonce ∧ comparable pending.nonce) then .error notAsciiError w
      else if nonce ≠ pending.nonce then
        if env.recordRaises nonceRefusal then .error writerError w
        else .error nonceError (w.logged nonceRefusal)
      else .ok () w := by
  unfold rejectUnlessConfirmable
  by_cases hearly : env.clock < pending.readyAt
  · rw [if_pos hearly, if_pos hearly]
    by_cases hraises : env.recordRaises (coolOffRefusal pending)
    · simp [recordGovernance, hraises]
    · simp [recordGovernance, hraises]
  · rw [if_neg hearly, if_neg hearly]
    by_cases hascii : ¬ (comparable nonce ∧ comparable pending.nonce)
    · rw [if_pos hascii, if_pos hascii]
      rfl
    · rw [if_neg hascii, if_neg hascii]
      by_cases hnonce : nonce ≠ pending.nonce
      · rw [if_pos hnonce, if_pos hnonce]
        by_cases hraises : env.recordRaises nonceRefusal
        · simp [recordGovernance, hraises]
        · simp [recordGovernance, hraises]
      · rw [if_neg hnonce, if_neg hnonce]
        rfl

/-- The event of a completed lowering. -/
def confirmedEvent (w : GovernanceWorld) (pending : PendingFloorLower) : Event :=
  floorLowerConfirmedEvent w.governance.floor pending.targetFloorMicros (landing w.machine.mode).name

theorem applyConfirmedLower_run (pending : PendingFloorLower) :
    (applyConfirmedLower env pending).run w =
      let lowered := w.governance.withFloor pending.targetFloorMicros
      let w' := (w.withGovernance lowered).withMachine (w.machine.withMode (landing w.machine.mode))
      if env.dispatchRaises .FLOOR_CHANGE_REQUEST then .error dispatcherError w'
      else
        let w' := w'.alerted .FLOOR_CHANGE_REQUEST
          (loweredText pending.targetFloorMicros (landing w.machine.mode))
        if env.recordRaises (confirmedEvent w pending) then .error writerError w'
        else .ok () ((w'.logged (confirmedEvent w pending)).withGovernance
          (lowered.withPending none)) := by
  by_cases hdispatch : env.dispatchRaises .FLOOR_CHANGE_REQUEST
  · simp [applyConfirmedLower, demoteOutOfLive_eq, dispatchGovernance, govern, hdispatch]
  · by_cases hraises : env.recordRaises (confirmedEvent w pending)
    · have hraises' := hraises
      unfold confirmedEvent at hraises'
      simp [applyConfirmedLower, demoteOutOfLive_eq, dispatchGovernance, govern, hdispatch,
        recordGovernance, hraises, hraises']
    · have hraises' := hraises
      unfold confirmedEvent at hraises'
      simp [applyConfirmedLower, demoteOutOfLive_eq, dispatchGovernance, govern, hdispatch,
        recordGovernance, hraises', confirmedEvent]

theorem confirmLower_run (nonce : String) :
    (confirmLower env nonce).run w =
      match w.governance.pending with
      | none => .error noPendingError w
      | some pending => (rejectUnlessConfirmable env nonce pending >>= fun _ =>
          applyConfirmedLower env pending).run w := by
  cases hpending : w.governance.pending with
  | none => simp [confirmLower, hpending]
  | some pending => simp [confirmLower, hpending]

/-- What a ratchet does to the floor. -/
def ratcheted (cfg : GovernanceConfig) (g : FloorGovernance) (gain : MoneyMicros) : MoneyMicros :=
  g.floor + ⟨ppmOf gain.value cfg.ratchetPpm⟩

/-- The event of a ratchet. -/
def ratchetEvent (cfg : GovernanceConfig) (g : FloorGovernance) (gain : MoneyMicros) : Event :=
  floorRatchetAppliedEvent g.floor (ratcheted cfg g gain) gain (ppmOf gain.value cfg.ratchetPpm)

theorem maybeAdviseProfitSweep_run (gain : MoneyMicros) :
    (maybeAdviseProfitSweep cfg env gain).run w =
      if cfg.profitSweepThreshold < gain then
        if env.dispatchRaises .PROFIT_SWEEP_ADVISORY then .error dispatcherError w
        else .ok () (w.alerted .PROFIT_SWEEP_ADVISORY (sweepText gain cfg.profitSweepThreshold))
      else .ok () w := by
  unfold maybeAdviseProfitSweep
  by_cases hgain : cfg.profitSweepThreshold < gain
  · rw [if_pos hgain, if_pos hgain]
    by_cases hdispatch : env.dispatchRaises .PROFIT_SWEEP_ADVISORY
    · simp [dispatchGovernance, hdispatch]
    · simp [dispatchGovernance, hdispatch]
  · rw [if_neg hgain, if_neg hgain]
    rfl

theorem maybeRatchet_run (gain : MoneyMicros) :
    (maybeRatchet cfg env gain).run w =
      if ppmOf gain.value cfg.ratchetPpm ≤ 0 then .ok () w
      else
        let w' := w.withGovernance (w.governance.withFloor (ratcheted cfg w.governance gain))
        if env.recordRaises (ratchetEvent cfg w.governance gain) then .error writerError w'
        else .ok () (w'.logged (ratchetEvent cfg w.governance gain)) := by
  by_cases hnone : ppmOf gain.value cfg.ratchetPpm ≤ 0
  · rw [if_pos hnone]
    simp [maybeRatchet, hnone]
  · rw [if_neg hnone]
    by_cases hraises : env.recordRaises (ratchetEvent cfg w.governance gain)
    · have hraises' := hraises
      unfold ratchetEvent ratcheted at hraises'
      simp [maybeRatchet, hnone, govern, recordGovernance, hraises, hraises', ratcheted]
    · have hraises' := hraises
      unfold ratchetEvent ratcheted at hraises'
      simp [maybeRatchet, hnone, govern, recordGovernance, hraises', ratcheted, ratchetEvent]

theorem observeEquity_run (equity : MoneyMicros) :
    (observeEquity cfg env equity).run w =
      if equity ≤ w.governance.highWaterMark then .ok () w
      else (maybeAdviseProfitSweep cfg env (equity - w.governance.highWaterMark) >>= fun _ =>
        maybeRatchet cfg env (equity - w.governance.highWaterMark) >>= fun _ =>
          recordGovernance env
              (equityHighWaterMarkAdvancedEvent w.governance.highWaterMark equity) >>= fun _ =>
            govern (·.withMark equity)).run w := by
  by_cases hle : equity ≤ w.governance.highWaterMark
  · rw [if_pos hle]
    simp [observeEquity, hle]
  · rw [if_neg hle]
    simp [observeEquity, hle]

end

end Windbreak
