import Mathlib.Tactic.Simps.Basic
import Windbreak.Core.Effects
import Windbreak.Core.OrderedDict
import Windbreak.Ledger.Events
import Windbreak.OrderGateway.ReduceOnly
import Windbreak.OrderGateway.StateMachine
import Windbreak.OrderGateway.Tokens
import Windbreak.OrderGateway.Wal

/-!
# The gateway process: its state, its collaborators, its effects

A gateway remembers in memory what it has had acknowledged, what rests on the venue and what is
being closed; a journal and a ledger remember across restarts; the venue remembers what it took.
All of it is one `GatewayWorld`, and every method is a computation over it that may raise.

* **`GatewayConfig`** — what is fixed when the process is wired.
* **`GatewayEnv`** — what the collaborators do during one call.  An append may fail with or without
  leaving its record behind, a journal line may tear, and the venue may take an order whose
  acknowledgement is lost.  A process that stops halfway through a call leaves what a call leaves
  that raises there.
* **`GatewayWorld`** — the state.  Two of its fields are histories that no code reads: `submissions`
  lists every call made to the submitter, `accepted` every order the venue took.
-/

namespace Windbreak

namespace OrderGateway

/-! ## Objects -/

/-- The class of an exception. -/
inductive GatewayErrorKind where
  | halted
  | illegalTransition
  | valueError
  | keyError
  | ledger
  | journal
  | submitter
  | source
  deriving DecidableEq, Repr

/-- A raised exception: its class and its text. -/
structure GatewayError where
  kind : GatewayErrorKind
  message : String
  deriving DecidableEq, Repr

/-- The receipt of a placement. -/
structure SubmissionAck where
  orderId : Option String
  filled : ContractCentis
  deriving DecidableEq, Repr

/-- The economic profile of one resting order of the gateway's own. -/
structure TrackedOrder where
  clientOrderId : String
  orderId : String
  ticker : String
  side : String
  pricePips : ℤ
  sizeCentis : ℤ
  action : String
  filledCentis : ℤ
  deriving DecidableEq, Repr

/-- What a sweep needs to know of a resting order: when it was tracked, and its own limit then. -/
structure RestingOrderMeta where
  createdEpochS : ℤ
  baselinePricePips : ℤ
  deriving DecidableEq, Repr

/-- A call made to the submitter: what was submitted, under which token, at which clock reading the
token had been verified, and whether through the reduce-only method. -/
structure Submission where
  intent : OrderIntent
  token : SignedApprovalToken
  verifiedAt : ℤ
  reduceOnly : Bool
  deriving DecidableEq, Repr

/-! ## Wiring, environment, world -/

/-- What is fixed when the process is wired.  The journal, the ledger reader and the three sources
are each optional. -/
structure GatewayConfig where
  hmac : HmacSha256
  sha256 : HexDigest
  verificationKey : Bytes
  hasStatusSource : Bool
  hasPositionSource : Bool
  hasWal : Bool
  hasLedgerReader : Bool
  hasReconciliationSource : Bool
  submitterIsReduceOnlyCapable : Bool

/-- Whether any crash-recovery dependency is wired. -/
def GatewayConfig.recoveryWired (cfg : GatewayConfig) : Bool :=
  cfg.hasWal || cfg.hasLedgerReader || cfg.hasReconciliationSource

/-- What an append to the ledger did. -/
inductive LedgerAppend where
  | written
  | lost
  | writtenThenRaised
  deriving DecidableEq, Repr

/-- What an append to the journal did. -/
inductive WalAppend where
  | written
  | lost
  | torn
  | writtenThenRaised
  deriving DecidableEq, Repr

/-- What a call of the submitter did: it raised before the venue took the order, it returned an
acknowledgement, or the venue took the order and the call raised all the same. -/
inductive Placement where
  | refused (text : String)
  | acknowledged (ack : SubmissionAck)
  | takenThenRaised (restingId : Option String) (text : String)
  deriving DecidableEq, Repr

/-- What the collaborators do during one call.  The clock is read once to verify a token, and once
more for each resting order that is tracked. -/
structure GatewayEnv where
  clock : ℤ
  trackedAt : String → ℤ
  status : Except String (Option String)
  positions : Except String (List Position)
  positionsAfterFill : Except String (List Position)
  walIntent : WalAppend
  walAck : WalAppend
  placement : Placement
  record : Event → LedgerAppend
  ledgerReadRaises : Bool
  openOrdersRaises : Bool

/-- The gateway, what survives it, and the venue. -/
structure GatewayWorld where
  registry : InMemorySingleUseRegistry
  acks : OrderedDict String SubmissionAck
  tracked : OrderedDict String TrackedOrder
  restingMeta : OrderedDict String RestingOrderMeta
  inflightClosing : OrderedDict String ContractCentis
  halted : Bool
  acceptingApprovals : Bool
  wal : WriteAheadLog
  ledger : List Event
  openOrders : List OpenOrder
  submissions : List Submission
  accepted : List String

/-- A method of the gateway. -/
abbrev GatewayM := EStateM GatewayError GatewayWorld

/-! ## State updates -/

namespace GatewayWorld

/-- A gateway newly built over what survives: its memory is empty, and it accepts approvals at once
only when nothing needs recovering. -/
@[simps] def rebuilt (cfg : GatewayConfig) (w : GatewayWorld) : GatewayWorld :=
  { w with
    registry := ⟨∅⟩
    acks := .empty
    tracked := .empty
    restingMeta := .empty
    inflightClosing := .empty
    halted := false
    acceptingApprovals := !cfg.recoveryWired }

/-- A gateway newly built over nothing. -/
@[simps!] def fresh (cfg : GatewayConfig) : GatewayWorld :=
  rebuilt cfg
    { registry := ⟨∅⟩, acks := .empty, tracked := .empty, restingMeta := .empty,
      inflightClosing := .empty, halted := false, acceptingApprovals := false, wal := .empty,
      ledger := [], openOrders := [], submissions := [], accepted := [] }

@[simps] def withRegistry (w : GatewayWorld) (registry : InMemorySingleUseRegistry) :
    GatewayWorld :=
  { w with registry := registry }

@[simps] def withAck (w : GatewayWorld) (coid : String) (ack : SubmissionAck) : GatewayWorld :=
  { w with acks := w.acks.set coid ack }

@[simps] def withTracked (w : GatewayWorld) (order : TrackedOrder) (noted : RestingOrderMeta) :
    GatewayWorld :=
  { w with
    tracked := w.tracked.set order.orderId order
    restingMeta := w.restingMeta.set order.orderId noted }

@[simps] def withInflight (w : GatewayWorld) (ticker : String) (size : ContractCentis) :
    GatewayWorld :=
  { w with inflightClosing := w.inflightClosing.set ticker size }

@[simps] def untracked (w : GatewayWorld) (orderId : String) : GatewayWorld :=
  { w with tracked := w.tracked.pop orderId, restingMeta := w.restingMeta.pop orderId }

@[simps] def withoutInflight (w : GatewayWorld) (ticker : String) : GatewayWorld :=
  { w with inflightClosing := w.inflightClosing.pop ticker }

@[simps] def markedHalted (w : GatewayWorld) : GatewayWorld :=
  { w with halted := true, acceptingApprovals := false }

/-- Only the halt latch; approvals are refused by the latch itself. -/
@[simps] def latchedHalted (w : GatewayWorld) : GatewayWorld := { w with halted := true }

@[simps] def opened (w : GatewayWorld) : GatewayWorld := { w with acceptingApprovals := true }

@[simps] def withWal (w : GatewayWorld) (wal : WriteAheadLog) : GatewayWorld :=
  { w with wal := wal }

@[simps] def ledgered (w : GatewayWorld) (event : Event) : GatewayWorld :=
  { w with ledger := w.ledger ++ [event] }

@[simps] def submitted (w : GatewayWorld) (submission : Submission) : GatewayWorld :=
  { w with submissions := w.submissions ++ [submission] }

/-- The venue took an order, and rests what is left of it. -/
@[simps] def venueTook (w : GatewayWorld) (coid : String) (resting : Option OpenOrder) :
    GatewayWorld :=
  { w with accepted := w.accepted ++ [coid], openOrders := w.openOrders ++ resting.toList }

@[simps] def withOpenOrders (w : GatewayWorld) (openOrders : List OpenOrder) : GatewayWorld :=
  { w with openOrders := openOrders }

end GatewayWorld

/-! ## Primitive effects -/

/-- Record one event in the ledger. -/
def record (env : GatewayEnv) (event : Event) : GatewayM Unit :=
  match env.record event with
  | .written => modify (·.ledgered event)
  | .lost => throw ⟨.ledger, "ledger append failed"⟩
  | .writtenThenRaised => do
    modify (·.ledgered event)
    throw ⟨.ledger, "ledger append failed"⟩

/-- Append one record to the journal. -/
def walAppend (outcome : WalAppend) (record : WalRecord) : GatewayM Unit :=
  match outcome with
  | .written => modify fun w => w.withWal (w.wal.append record)
  | .lost => throw ⟨.journal, "journal append failed"⟩
  | .torn => do
    modify fun w => w.withWal w.wal.tear
    throw ⟨.journal, "journal append failed"⟩
  | .writtenThenRaised => do
    modify fun w => w.withWal (w.wal.append record)
    throw ⟨.journal, "journal append failed"⟩

/-- Run a read that may raise. -/
def reading {α : Type} (kind : GatewayErrorKind) (x : Except String α) : GatewayM α :=
  match x with
  | .ok a => pure a
  | .error text => throw ⟨kind, text⟩

/-- Record a transition, and hand its target over once it is recorded. -/
def applyAndLedger (env : GatewayEnv) (state : OrderState) (event : OrderEvent) (coid : String) :
    GatewayM OrderState :=
  match state.transition event with
  | none => throw
      ⟨.illegalTransition, s!"no legal transition from {state.name} on {event.name}"⟩
  | some target => do
    record env (orderTransitionLedgeredEvent coid state.name event.name target.name)
    return target

end OrderGateway

end Windbreak
