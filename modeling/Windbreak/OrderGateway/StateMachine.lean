import Mathlib.Tactic.TypeStar

/-!
# The order lifecycle

The states of an order, the events that drive it, and the table of legal edges.

* **`OrderState.transition`** — the edge out of a state on an event, if there is one.
-/

namespace Windbreak

/-- A lifecycle state of an order. -/
inductive OrderState where
  | INTENT_CREATED
  | APPROVED
  | SUBMISSION_REQUESTED
  | SUBMITTED
  | ACKED
  | PARTIAL_FILL
  | FILLED
  | CANCEL_REQUESTED
  | CANCELLED
  | EXPIRED
  | REJECTED
  | RECONCILED
  | DISPUTED
  | SETTLEMENT_REVERSED
  deriving DecidableEq, Repr

/-- An event that may drive a transition. -/
inductive OrderEvent where
  | APPROVE
  | REQUEST_SUBMISSION
  | SUBMIT
  | ACK
  | PARTIAL_FILL
  | FILL
  | REQUEST_CANCEL
  | CANCEL
  | EXPIRE
  | REJECT
  | RECONCILE
  | DISPUTE
  | SETTLEMENT_REVERSE
  deriving DecidableEq, Repr

namespace OrderState

def name : OrderState → String
  | INTENT_CREATED => "INTENT_CREATED"
  | APPROVED => "APPROVED"
  | SUBMISSION_REQUESTED => "SUBMISSION_REQUESTED"
  | SUBMITTED => "SUBMITTED"
  | ACKED => "ACKED"
  | PARTIAL_FILL => "PARTIAL_FILL"
  | FILLED => "FILLED"
  | CANCEL_REQUESTED => "CANCEL_REQUESTED"
  | CANCELLED => "CANCELLED"
  | EXPIRED => "EXPIRED"
  | REJECTED => "REJECTED"
  | RECONCILED => "RECONCILED"
  | DISPUTED => "DISPUTED"
  | SETTLEMENT_REVERSED => "SETTLEMENT_REVERSED"

/-- Every state, in the order of declaration. -/
def all : List OrderState :=
  [INTENT_CREATED, APPROVED, SUBMISSION_REQUESTED, SUBMITTED, ACKED, PARTIAL_FILL, FILLED,
    CANCEL_REQUESTED, CANCELLED, EXPIRED, REJECTED, RECONCILED, DISPUTED, SETTLEMENT_REVERSED]

/-- The state a name spells. -/
def ofName? (text : String) : Option OrderState := all.find? fun state => state.name == text

/-- A state is recovered from its name. -/
theorem ofName?_name (state : OrderState) : ofName? state.name = some state := by
  cases state <;> rfl

end OrderState

namespace OrderEvent

def name : OrderEvent → String
  | APPROVE => "APPROVE"
  | REQUEST_SUBMISSION => "REQUEST_SUBMISSION"
  | SUBMIT => "SUBMIT"
  | ACK => "ACK"
  | PARTIAL_FILL => "PARTIAL_FILL"
  | FILL => "FILL"
  | REQUEST_CANCEL => "REQUEST_CANCEL"
  | CANCEL => "CANCEL"
  | EXPIRE => "EXPIRE"
  | REJECT => "REJECT"
  | RECONCILE => "RECONCILE"
  | DISPUTE => "DISPUTE"
  | SETTLEMENT_REVERSE => "SETTLEMENT_REVERSE"

end OrderEvent

/-- The legal edges. -/
def OrderState.transition : OrderState → OrderEvent → Option OrderState
  | .INTENT_CREATED, .APPROVE => some .APPROVED
  | .APPROVED, .REQUEST_SUBMISSION => some .SUBMISSION_REQUESTED
  | .SUBMISSION_REQUESTED, .SUBMIT => some .SUBMITTED
  | .SUBMITTED, .ACK => some .ACKED
  | .SUBMITTED, .REJECT => some .REJECTED
  | .ACKED, .PARTIAL_FILL => some .PARTIAL_FILL
  | .ACKED, .FILL => some .FILLED
  | .ACKED, .REQUEST_CANCEL => some .CANCEL_REQUESTED
  | .ACKED, .EXPIRE => some .EXPIRED
  | .PARTIAL_FILL, .PARTIAL_FILL => some .PARTIAL_FILL
  | .PARTIAL_FILL, .FILL => some .FILLED
  | .PARTIAL_FILL, .REQUEST_CANCEL => some .CANCEL_REQUESTED
  | .PARTIAL_FILL, .EXPIRE => some .EXPIRED
  | .CANCEL_REQUESTED, .CANCEL => some .CANCELLED
  | .CANCEL_REQUESTED, .FILL => some .FILLED
  | .CANCEL_REQUESTED, .PARTIAL_FILL => some .CANCEL_REQUESTED
  | .FILLED, .RECONCILE => some .RECONCILED
  | .FILLED, .DISPUTE => some .DISPUTED
  | .CANCELLED, .RECONCILE => some .RECONCILED
  | .CANCELLED, .DISPUTE => some .DISPUTED
  | .EXPIRED, .RECONCILE => some .RECONCILED
  | .EXPIRED, .DISPUTE => some .DISPUTED
  | .REJECTED, .RECONCILE => some .RECONCILED
  | .REJECTED, .DISPUTE => some .DISPUTED
  | .DISPUTED, .RECONCILE => some .RECONCILED
  | .RECONCILED, .SETTLEMENT_REVERSE => some .SETTLEMENT_REVERSED
  | _, _ => none

end Windbreak
