import Windbreak.Core.Effects
import Windbreak.Core.OrderedDict
import Mathlib.Algebra.Order.Group.Unbundled.Int

/-!
# The canary gate

A canary run that drifts past the tolerance blocks forecasts from live eligibility until an operator
acknowledges the drift.  Drift has dimensions: the pinned canary model, which blocks everybody, and
each provider.  Every dimension has a window, from its drift to its acknowledgement.

Instants are microseconds since the epoch; `none` is an instant without an offset, which every call
refuses.  The alert emitter and the ledger are outside, and either may raise.
-/

namespace Windbreak

/-! ## Windows -/

/-- The block window of one dimension. -/
structure DriftWindow where
  driftedAt : Option ℤ
  ackedAt : Option ℤ
  deriving DecidableEq, Repr

namespace DriftWindow

/-- The window of a dimension that never drifted. -/
def fresh : DriftWindow := ⟨none, none⟩

/-- Keep the earliest breach. -/
def keepEarliest (window : DriftWindow) (checkedAt : ℤ) : DriftWindow :=
  match window.driftedAt with
  | none => { window with driftedAt := some checkedAt }
  | some drifted =>
    if checkedAt < drifted then { window with driftedAt := some checkedAt } else window

/-- Open or extend the window; a breach at or after the acknowledgement opens a new one. -/
def registerBreach (window : DriftWindow) (checkedAt : ℤ) : DriftWindow :=
  match window.ackedAt with
  | none => window.keepEarliest checkedAt
  | some acked => if acked ≤ checkedAt then ⟨some checkedAt, none⟩ else window.keepEarliest checkedAt

/-- Is a record of an instant blocked by this window? -/
def isBlocked (window : DriftWindow) (createdAt : ℤ) : Bool :=
  match window.driftedAt with
  | none => false
  | some drifted =>
    decide (drifted ≤ createdAt) && window.ackedAt.all fun acked => decide (createdAt < acked)

end DriftWindow

/-! ## The gate -/

/-- A scored canary run. -/
structure CanaryRunResult where
  driftScorePpm : ℤ
  worstQuestionId : String
  questionCount : ℕ
  deriving DecidableEq, Repr

/-- A dimension: a provider, or the pinned canary model. -/
abbrev DriftDimension := Option String

/-- The gate. -/
structure CanaryGate where
  driftTolerancePpm : ℤ
  windows : OrderedDict DriftDimension DriftWindow
  deriving DecidableEq

/-- What a gate decision leaves in the ledger. -/
inductive CanaryEvent where
  | answerDrift (driftScorePpm tolerancePpm : ℤ) (worstQuestionId : String) (questionCount : ℕ)
      (provider : Option String) (checkedAt : ℤ)
  | versionDrift (provider reportedVersion : String) (pinnedVersions : List String) (checkedAt : ℤ)
  | ok (driftScorePpm tolerancePpm : ℤ) (questionCount : ℕ) (checkedAt : ℤ)
  | ack (driftedAt ackedAt : ℤ) (provider : Option String)
  deriving DecidableEq, Repr

/-- What a gate call raises. -/
inductive CanaryError where
  | naive (fieldName : String)
  | noActiveDrift
  | alerts
  | ledger
  deriving DecidableEq, Repr

/-- Whether the alert emitter and the ledger take what a call hands them. -/
structure CanarySeams where
  dispatches : Bool
  records : Bool
  deriving DecidableEq, Repr

/-- The gate, the alerts it has dispatched and the events it has ledgered. -/
structure CanaryWorld where
  gate : CanaryGate
  alerts : List CanaryEvent
  ledgered : List CanaryEvent
  deriving DecidableEq

/-- A gate call. -/
abbrev CanaryM := EStateM CanaryError CanaryWorld

/-- Refuse an instant without an offset. -/
def requireAware (moment : Option ℤ) (fieldName : String) : CanaryM ℤ :=
  match moment with
  | none => throw (.naive fieldName)
  | some instant => return instant

/-- Dispatch an alert. -/
def CanarySeams.dispatch (seams : CanarySeams) (alert : CanaryEvent) : CanaryM Unit :=
  if seams.dispatches then modify fun w => { w with alerts := w.alerts ++ [alert] }
  else throw .alerts

/-- Ledger an event. -/
def CanarySeams.record (seams : CanarySeams) (event : CanaryEvent) : CanaryM Unit :=
  if seams.records then modify fun w => { w with ledgered := w.ledgered ++ [event] }
  else throw .ledger

namespace CanaryGate

/-- The window of a dimension. -/
def window (gate : CanaryGate) (key : DriftDimension) : DriftWindow :=
  (gate.windows.get? key).getD .fresh

/-- Put a window in its place. -/
def setWindow (gate : CanaryGate) (key : DriftDimension) (window : DriftWindow) : CanaryGate :=
  { gate with windows := gate.windows.set key window }

@[simp] theorem window_setWindow (gate : CanaryGate) (key key' : DriftDimension)
    (window : DriftWindow) :
    (gate.setWindow key window).window key' =
      if key' = key then window else gate.window key' := by
  rw [CanaryGate.window, setWindow, OrderedDict.get?_set]
  split <;> rfl

/-- A breach, in the window of its dimension. -/
def registerBreach (gate : CanaryGate) (key : DriftDimension) (checkedAt : ℤ) : CanaryGate :=
  gate.setWindow key ((gate.window key).registerBreach checkedAt)

/-- Does one dimension block a record? -/
def isDimensionBlocked (gate : CanaryGate) (key : DriftDimension) (createdAt : ℤ) : Bool :=
  (gate.window key).isBlocked createdAt

/-- Is a record blocked, by the pinned canary model or by the provider asked about? -/
def isLiveBlocked (gate : CanaryGate) (createdAt : ℤ) (provider : Option String) : Bool :=
  gate.isDimensionBlocked none createdAt ||
    (provider.isSome && gate.isDimensionBlocked provider createdAt)

end CanaryGate

/-! ## The calls -/

/-- Apply a scored run; the answer is whether it breached. -/
def applyRun (result : CanaryRunResult) (checkedAt : Option ℤ) (seams : CanarySeams)
    (provider : Option String) : CanaryM Bool := do
  let checked ← requireAware checkedAt "checked_at"
  let tolerance := (← get).gate.driftTolerancePpm
  if tolerance < result.driftScorePpm then do
    let breach := CanaryEvent.answerDrift result.driftScorePpm tolerance result.worstQuestionId
      result.questionCount provider checked
    seams.dispatch breach
    seams.record breach
    modify fun w => { w with gate := w.gate.registerBreach provider checked }
    return true
  else do
    seams.record (.ok result.driftScorePpm tolerance result.questionCount checked)
    return false

/-- Gate a provider on the version it reports; the answer is whether it drifted. -/
def applyVersionDrift (provider reportedVersion : String) (pinnedVersions : List String)
    (checkedAt : Option ℤ) (seams : CanarySeams) : CanaryM Bool := do
  let checked ← requireAware checkedAt "checked_at"
  if reportedVersion ∈ pinnedVersions then return false
  else do
    let drift := CanaryEvent.versionDrift provider reportedVersion pinnedVersions checked
    seams.dispatch drift
    seams.record drift
    modify fun w => { w with gate := w.gate.registerBreach (some provider) checked }
    return true

/-- Acknowledge a drift.  The window is closed before the ledger is written. -/
def acknowledge (ackedAt : Option ℤ) (seams : CanarySeams) (provider : Option String) :
    CanaryM Unit := do
  let acked ← requireAware ackedAt "acked_at"
  let window := (← get).gate.window provider
  match window.driftedAt with
  | none => throw .noActiveDrift
  | some drifted => do
    modify fun w => { w with gate := w.gate.setWindow provider { window with ackedAt := some acked } }
    seams.record (.ack drifted acked provider)

/-- A call of the gate. -/
inductive CanaryOp where
  | applyRun (result : CanaryRunResult) (checkedAt : Option ℤ) (seams : CanarySeams)
      (provider : Option String)
  | applyVersionDrift (provider reportedVersion : String) (pinnedVersions : List String)
      (checkedAt : Option ℤ) (seams : CanarySeams)
  | acknowledge (ackedAt : Option ℤ) (seams : CanarySeams) (provider : Option String)
  deriving DecidableEq, Repr

/-- One call, with what it raises. -/
def canaryStep (w : CanaryWorld) : CanaryOp → Option CanaryError × CanaryWorld
  | .applyRun result checkedAt seams provider =>
    Effects.settle ((applyRun result checkedAt seams provider).run w)
  | .applyVersionDrift provider reportedVersion pinnedVersions checkedAt seams =>
    Effects.settle
      ((applyVersionDrift provider reportedVersion pinnedVersions checkedAt seams).run w)
  | .acknowledge ackedAt seams provider =>
    Effects.settle ((acknowledge ackedAt seams provider).run w)

/-! ## What a call does to the windows -/

/-- What a call does to one window. -/
inductive WindowChange where
  | breach (key : DriftDimension) (checkedAt : ℤ)
  | ack (key : DriftDimension) (ackedAt : ℤ)
  deriving DecidableEq, Repr

/-- The dimension of a change. -/
def WindowChange.key : WindowChange → DriftDimension
  | .breach key _ => key
  | .ack key _ => key

/-- The window after a change of it. -/
def WindowChange.apply (window : DriftWindow) : WindowChange → DriftWindow
  | .breach _ checkedAt => window.registerBreach checkedAt
  | .ack _ ackedAt => { window with ackedAt := some ackedAt }

/-- The change that a call makes, if it makes one: a breach that the emitter or the ledger refuses is
not registered, an acknowledgement that the ledger refuses is. -/
def CanaryOp.change (gate : CanaryGate) : CanaryOp → Option WindowChange
  | .applyRun result checkedAt seams provider => do
    let checked ← checkedAt
    if gate.driftTolerancePpm < result.driftScorePpm ∧ seams.dispatches ∧ seams.records then
      some (.breach provider checked)
    else none
  | .applyVersionDrift provider reportedVersion pinnedVersions checkedAt seams => do
    let checked ← checkedAt
    if reportedVersion ∉ pinnedVersions ∧ seams.dispatches ∧ seams.records then
      some (.breach (some provider) checked)
    else none
  | .acknowledge ackedAt _ provider => do
    let acked ← ackedAt
    if (gate.window provider).driftedAt.isSome then some (.ack provider acked) else none

theorem CanaryGate.window_changed (gate : CanaryGate) (change : WindowChange)
    (key : DriftDimension) :
    (gate.setWindow change.key (change.apply (gate.window change.key))).window key =
      if key = change.key then change.apply (gate.window key) else gate.window key := by
  rw [window_setWindow]
  split
  · rename_i hkey
    rw [hkey]
  · rfl

theorem applyRun_gate (w : CanaryWorld) (result : CanaryRunResult) (checked : ℤ)
    (seams : CanarySeams) (provider : Option String) :
    (Effects.finalState ((applyRun result (some checked) seams provider).run w)).gate =
      if w.gate.driftTolerancePpm < result.driftScorePpm ∧ seams.dispatches ∧ seams.records then
        w.gate.registerBreach provider checked
      else w.gate := by
  obtain ⟨dispatches, records⟩ := seams
  by_cases hbreach : w.gate.driftTolerancePpm < result.driftScorePpm <;>
    cases dispatches <;> cases records <;>
    simp [applyRun, requireAware, CanarySeams.dispatch, CanarySeams.record, hbreach]

theorem applyVersionDrift_gate (w : CanaryWorld) (provider reportedVersion : String)
    (pinnedVersions : List String) (checked : ℤ) (seams : CanarySeams) :
    (Effects.finalState ((applyVersionDrift provider reportedVersion pinnedVersions (some checked)
        seams).run w)).gate =
      if reportedVersion ∉ pinnedVersions ∧ seams.dispatches ∧ seams.records then
        w.gate.registerBreach (some provider) checked
      else w.gate := by
  obtain ⟨dispatches, records⟩ := seams
  by_cases hpinned : reportedVersion ∈ pinnedVersions <;>
    cases dispatches <;> cases records <;>
    simp [applyVersionDrift, requireAware, CanarySeams.dispatch, CanarySeams.record, hpinned]

theorem acknowledge_gate (w : CanaryWorld) (acked : ℤ) (seams : CanarySeams)
    (provider : Option String) :
    (Effects.finalState ((acknowledge (some acked) seams provider).run w)).gate =
      if (w.gate.window provider).driftedAt.isSome then
        w.gate.setWindow provider { w.gate.window provider with ackedAt := some acked }
      else w.gate := by
  obtain ⟨dispatches, records⟩ := seams
  cases hdrifted : (w.gate.window provider).driftedAt <;> cases records <;>
    simp [acknowledge, requireAware, CanarySeams.record, hdrifted]

/-- **What a call can do.**  It changes the window of one dimension, or no window. -/
theorem canaryStep_window (w : CanaryWorld) (call : CanaryOp) (key : DriftDimension) :
    (canaryStep w call).2.gate.window key =
      (call.change w.gate).elim (w.gate.window key) fun change =>
        if key = change.key then change.apply (w.gate.window key) else w.gate.window key := by
  cases call with
  | applyRun result checkedAt seams provider =>
      cases checkedAt with
      | none => rfl
      | some checked =>
          rw [canaryStep, Effects.settle_snd, applyRun_gate]
          by_cases hbreach : w.gate.driftTolerancePpm < result.driftScorePpm ∧ seams.dispatches ∧
              seams.records
          · rw [if_pos hbreach]
            simp only [CanaryOp.change, Option.bind_eq_bind, Option.bind_some, if_pos hbreach,
              Option.elim_some]
            exact w.gate.window_changed (.breach provider checked) key
          · rw [if_neg hbreach]
            simp only [CanaryOp.change, Option.bind_eq_bind, Option.bind_some, if_neg hbreach,
              Option.elim_none]
  | applyVersionDrift provider reportedVersion pinnedVersions checkedAt seams =>
      cases checkedAt with
      | none => rfl
      | some checked =>
          rw [canaryStep, Effects.settle_snd, applyVersionDrift_gate]
          by_cases hdrift : reportedVersion ∉ pinnedVersions ∧ seams.dispatches ∧ seams.records
          · rw [if_pos hdrift]
            simp only [CanaryOp.change, Option.bind_eq_bind, Option.bind_some, if_pos hdrift,
              Option.elim_some]
            exact w.gate.window_changed (.breach (some provider) checked) key
          · rw [if_neg hdrift]
            simp only [CanaryOp.change, Option.bind_eq_bind, Option.bind_some, if_neg hdrift,
              Option.elim_none]
  | acknowledge ackedAt seams provider =>
      cases ackedAt with
      | none => rfl
      | some acked =>
          rw [canaryStep, Effects.settle_snd, acknowledge_gate]
          by_cases hactive : (w.gate.window provider).driftedAt.isSome = true
          · rw [if_pos hactive]
            simp only [CanaryOp.change, Option.bind_eq_bind, Option.bind_some, if_pos hactive,
              Option.elim_some]
            exact w.gate.window_changed (.ack provider acked) key
          · rw [if_neg hactive]
            simp only [CanaryOp.change, Option.bind_eq_bind, Option.bind_some, if_neg hactive,
              Option.elim_none]

end Windbreak
