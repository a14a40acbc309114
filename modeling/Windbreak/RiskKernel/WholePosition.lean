import Windbreak.OrderGateway.ReduceOnly
import Windbreak.RiskKernel.Verification

/-!
# What the verifier sees of a position

The gateway adds up every row that reports a ticker, the verifier keeps the last.  They see the same
position exactly when the rows before the last one come to nothing, ticker by ticker.

* **`heldQuantity_observed`**, **`heldForTicker_split`** — the two folds of the same rows.
* **`whole_position_iff`** — when the verifier sees the whole position, and grades it.
-/

namespace Windbreak

/-- The rows that report a ticker. -/
def rowsOf (positions : List Position) (ticker : String) : List Position :=
  positions.filter (·.ticker == ticker)

/-- What some rows come to. -/
def rowsTotal (rows : List Position) : ℤ := (rows.map (·.quantity.value)).sum

/-- Ticker by ticker, the rows before the last one come to nothing. -/
def Offsetting (positions : List Position) : Prop :=
  ∀ ticker, rowsTotal (rowsOf positions ticker).dropLast = 0

/-! ## The two folds -/

/-- **The verifier keeps the last row** of each ticker. -/
theorem heldQuantity_observed (positions : List Position) (ticker : String) :
    heldQuantity (observedPositions positions) ticker =
      ((rowsOf positions ticker).getLast?.map (·.quantity.value)).getD 0 := by
  induction positions using List.reverseRecOn with
  | nil => rfl
  | append_singleton positions p ih =>
      have hset : observedPositions (positions ++ [p]) =
          (observedPositions positions).set p.ticker p.quantity := by
        rw [observedPositions, List.foldl_append]
        rfl
      have hrows : rowsOf (positions ++ [p]) ticker =
          rowsOf positions ticker ++ rowsOf [p] ticker := List.filter_append _ _
      rw [hset, heldQuantity, OrderedDict.get?_set, hrows]
      by_cases hticker : p.ticker = ticker
      · have hone : rowsOf [p] ticker = [p] := by simp [rowsOf, hticker]
        rw [if_pos hticker.symm, hone, List.getLast?_concat]
        rfl
      · have hnone : rowsOf [p] ticker = [] := by simp [rowsOf, hticker]
        rw [if_neg (Ne.symm hticker), hnone, List.append_nil]
        exact ih

/-- **The gateway adds up** the rows before the last one, and the last. -/
theorem heldForTicker_split (positions : List Position) (ticker : String) :
    heldForTicker positions ticker = rowsTotal (rowsOf positions ticker).dropLast +
      ((rowsOf positions ticker).getLast?.map (·.quantity.value)).getD 0 := by
  have hrows : heldForTicker positions ticker = rowsTotal (rowsOf positions ticker) := rfl
  rw [hrows]
  induction rowsOf positions ticker using List.reverseRecOn with
  | nil => rfl
  | append_singleton rows p _ =>
      rw [List.dropLast_concat, List.getLast?_concat, rowsTotal, rowsTotal, List.map_append,
        List.sum_append, List.map_singleton, List.sum_singleton]
      rfl

theorem observed_eq_held_iff (positions : List Position) :
    (∀ ticker, heldQuantity (observedPositions positions) ticker =
        heldForTicker positions ticker) ↔ Offsetting positions := by
  refine forall_congr' fun ticker => ?_
  rw [heldQuantity_observed, heldForTicker_split]
  constructor
  · intro h
    omega
  · intro h
    rw [h, zero_add]

/-! ## Grading -/

theorem le_foldl_max {diffs : List ℤ} {bound diff : ℤ} (h : diff ≤ bound ∨ diff ∈ diffs) :
    diff ≤ diffs.foldl max bound := by
  induction diffs generalizing bound with
  | nil => exact h.resolve_right List.not_mem_nil
  | cons first rest ih =>
      refine ih ?_
      rcases h with hle | hmem
      · exact .inl (hle.trans (le_max_left _ _))
      · rcases List.mem_cons.mp hmem with rfl | hmem
        · exact .inl (le_max_right _ _)
        · exact .inr hmem

/-- The drift of a cycle covers that of every ticker. -/
theorem le_positionDrift (positions : List Position) (expectations : LedgerExpectations)
    (ticker : String) :
    |heldQuantity (observedPositions positions) ticker -
      heldQuantity expectations.expectedPositions ticker| ≤ positionDrift positions expectations := by
  refine le_foldl_max ?_
  by_cases hmem : ticker ∈ (observedPositions positions).keys ++ expectations.expectedPositions.keys
  · exact .inr (List.mem_map_of_mem hmem)
  · obtain ⟨hobserved, hexpected⟩ := not_or.mp (mt List.mem_append.mpr hmem)
    rw [heldQuantity, heldQuantity, OrderedDict.get?_eq_none_iff.mpr hobserved,
      OrderedDict.get?_eq_none_iff.mpr hexpected]
    exact .inl (le_refl 0)

/-- A drift beyond the tolerance is a breach. -/
theorem breach_of_drift {tolerances : VerificationTolerances} {expectations : LedgerExpectations}
    {observation : Observation} {now drift : ℤ}
    (hdrift : drift ≤ positionDrift observation.positions expectations)
    (hbeyond : tolerances.positionTolerance.value < drift) :
    (observedSnapshot tolerances expectations observation now).positionOk = false ∧
      (observedSnapshot tolerances expectations observation now).outcome = .BREACH := by
  have hbad : (observedSnapshot tolerances expectations observation now).positionOk = false :=
    decide_eq_false (not_le.mpr (hbeyond.trans_le hdrift))
  refine ⟨hbad, ?_⟩
  change classify _ (observedSnapshot tolerances expectations observation now).positionOk _ _ = _
  rw [hbad]
  simp [classify]

/-- Every difference between the net of a ticker's rows and what is expected of it, beyond the
tolerance, is graded a breach. -/
def NetDriftGraded (positions : List Position) : Prop :=
  ∀ (tolerances : VerificationTolerances) (expectations : LedgerExpectations)
    (observation : Observation) (now : ℤ) (ticker : String), observation.positions = positions →
    tolerances.positionTolerance.value <
      |heldForTicker positions ticker - heldQuantity expectations.expectedPositions ticker| →
    (observedSnapshot tolerances expectations observation now).positionOk = false ∧
      (observedSnapshot tolerances expectations observation now).outcome = .BREACH

/-- **The verifier sees the whole position**, as the gateway counts it, and grades every difference
from what is expected, exactly when the rows before the last one of each ticker come to nothing. -/
theorem whole_position_iff (positions : List Position) :
    ((∀ ticker, heldQuantity (observedPositions positions) ticker =
        heldForTicker positions ticker) ∧ NetDriftGraded positions) ↔ Offsetting positions := by
  refine ⟨fun h => (observed_eq_held_iff positions).mp h.1, fun h => ?_⟩
  have hsame := (observed_eq_held_iff positions).mpr h
  refine ⟨hsame, ?_⟩
  rintro tolerances expectations observation now ticker rfl hbeyond
  rw [← hsame] at hbeyond
  exact breach_of_drift (le_positionDrift _ _ ticker) hbeyond

/-- One ticker in two rows. -/
def twoRows : List Position := [⟨"T", ⟨100⟩⟩, ⟨"T", ⟨50⟩⟩]

/-- What is expected of the ticker. -/
def expectingHeld (quantity : ℤ) : LedgerExpectations :=
  ⟨⟨0⟩, OrderedDict.empty.set "T" ⟨quantity⟩, ∅⟩

/-- **Of two rows the verifier sees the second**: the venue reports three halves of a contract, the
verifier sees one half, finds it as expected and grades the cycle clean. -/
theorem twoRows_seen_in_part :
    heldForTicker twoRows "T" = 150 ∧ heldQuantity (observedPositions twoRows) "T" = 50 ∧
      (observedSnapshot ⟨⟨0⟩, ⟨0⟩⟩ (expectingHeld 50) ⟨twoRows, [], ⟨0⟩, true⟩ 0).outcome =
        .CLEAN := by
  decide

end Windbreak
