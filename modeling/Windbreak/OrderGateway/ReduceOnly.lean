import Windbreak.Connector.Models

/-!
# Reduce-only admission

A close may not leave a position below flat.  It is admitted while it fits into what is held and
not yet being closed, and a fill that overshoots what was held is a breach.
-/

namespace Windbreak

/-- The position picture a refusal was computed from. -/
structure PositionSnapshot where
  ticker : String
  heldCentis : ℤ
  inflightClosingCentis : ℤ
  requestedCloseCentis : ℤ
  deriving DecidableEq, Repr

/-- The net held quantity of a ticker over every row that reports it. -/
def heldForTicker (positions : List Position) (ticker : String) : ℤ :=
  ((positions.filter (·.ticker == ticker)).map (·.quantity.value)).sum

/-- What may still be closed. -/
def closeableCentis (held inflight : ℤ) : ℤ := max (held - inflight) 0

/-- Whether a close of `requested` is admitted. -/
def isCloseAdmissible (requested held inflight : ℤ) : Bool :=
  decide (requested ≤ closeableCentis held inflight)

/-- Whether a close fits its position picture. -/
def PositionSnapshot.admits (snapshot : PositionSnapshot) : Bool :=
  isCloseAdmissible snapshot.requestedCloseCentis snapshot.heldCentis
    snapshot.inflightClosingCentis

/-- Whether a fill left the position net short. -/
def isNetShortAfterFill (held filled : ℤ) : Bool := decide (held - filled < 0)

/-- An admitted close of a positive size keeps the closes in flight within what is held. -/
theorem inflight_le_held {requested held inflight : ℤ}
    (h : isCloseAdmissible requested held inflight = true) (hpos : 0 < requested) :
    inflight + requested ≤ held := by
  have hle : requested ≤ max (held - inflight) 0 := of_decide_eq_true h
  omega

end Windbreak
