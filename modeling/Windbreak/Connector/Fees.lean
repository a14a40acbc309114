import Windbreak.Numeric.Rounding

/-!
# Fee schedules

The worst-case bounds a schedule answers: per trade, the higher of the maker and the taker rate on
the quadratic `count · price · (1 - price)`; at settlement, the rate on a one-dollar payout.  Both
round up to a whole cent.

* **`tradingFee`** — the bound on a trade as an integer, which is what the method returns
  where it returns (`maxTradingFeeMicros_ok_iff`).
* **`tradingFee_split_le`** — pricing a size in two parts never costs less than pricing it whole.
-/

namespace Windbreak

/-! ## Schedules -/

/-- Pips in a full one-dollar payout. -/
def pipsPerDollar : ℤ := 10000

def microsPerCent : ℤ := 10000

/-- Takes the numerator of the trading fee to whole cents. -/
def tradingCentDenominator : ℤ := 10 ^ 14

/-- Takes the numerator of the settlement fee to whole cents. -/
def settlementCentDenominator : ℤ := 10 ^ 6

theorem microsPerCent_pos : 0 < microsPerCent := by decide

theorem tradingCentDenominator_pos : 0 < tradingCentDenominator := by decide

theorem settlementCentDenominator_pos : 0 < settlementCentDenominator := by decide

/-- The rates of a schedule, in parts per million. -/
structure FeeModel where
  scheduleId : String
  makerFeePpm : ℤ
  takerFeePpm : ℤ
  settlementFeePpm : ℤ
  named : scheduleId ≠ ""
  maker_nonneg : 0 ≤ makerFeePpm
  taker_nonneg : 0 ≤ takerFeePpm
  settlement_nonneg : 0 ≤ settlementFeePpm

/-- A schedule without fees. -/
def freeFees : FeeModel := ⟨"flat", 0, 0, 0, by decide, by decide, by decide, by decide⟩

/-- Refuse a size that is not positive. -/
def requirePositiveCount (countCentis : ℤ) : Except String Unit :=
  if countCentis ≤ 0 then .error s!"count_centis must be positive, got {countCentis}" else .ok ()

/-- Refuse a price outside the payout. -/
def requirePricePips (pricePips : ℤ) : Except String Unit :=
  if 0 ≤ pricePips ∧ pricePips ≤ pipsPerDollar then .ok ()
  else .error s!"price_pips must be in [0, 10000], got {pricePips}"

namespace FeeModel

/-- The rate the bound is taken at. -/
def ratePpm (m : FeeModel) : ℤ := max m.makerFeePpm m.takerFeePpm

/-- The worst-case fee of a trade, in micros. -/
def maxTradingFeeMicros (m : FeeModel) (pricePips countCentis : ℤ) : Except String ℤ := do
  requirePricePips pricePips
  requirePositiveCount countCentis
  let numerator := m.ratePpm * countCentis * pricePips * (pipsPerDollar - pricePips)
  let cents ← divide numerator tradingCentDenominator .overstateCost
  return cents * microsPerCent

/-- The worst-case fee of a settlement, in micros. -/
def maxSettlementFeeMicros (m : FeeModel) (countCentis : ℤ) : Except String ℤ := do
  requirePositiveCount countCentis
  let numerator := m.settlementFeePpm * countCentis
  let cents ← divide numerator settlementCentDenominator .overstateCost
  return cents * microsPerCent

/-- What the bound on a trade comes to. -/
def tradingFee (m : FeeModel) (pricePips countCentis : ℤ) : ℤ :=
  quotient (m.ratePpm * countCentis * pricePips * (pipsPerDollar - pricePips))
    tradingCentDenominator .overstateCost * microsPerCent

/-! ## What the bounds come to -/

theorem ratePpm_nonneg (m : FeeModel) : 0 ≤ m.ratePpm := le_max_of_le_left m.maker_nonneg

/-- **The bound on a trade** is returned for a price within the payout and a positive size. -/
theorem maxTradingFeeMicros_ok_iff {m : FeeModel} {pricePips countCentis fee : ℤ} :
    m.maxTradingFeeMicros pricePips countCentis = .ok fee ↔
      (0 ≤ pricePips ∧ pricePips ≤ pipsPerDollar) ∧ 0 < countCentis ∧
        fee = m.tradingFee pricePips countCentis := by
  unfold maxTradingFeeMicros requirePricePips
  by_cases hprice : 0 ≤ pricePips ∧ pricePips ≤ pipsPerDollar
  · rw [if_pos hprice]
    unfold requirePositiveCount
    by_cases hcount : countCentis ≤ 0
    · rw [if_pos hcount]
      exact iff_of_false (fun h => by cases h) fun h => absurd h.2.1 (by omega)
    · rw [if_neg hcount]
      constructor
      · rintro ⟨⟩
        exact ⟨hprice, by omega, rfl⟩
      · rintro ⟨-, -, rfl⟩
        rfl
  · rw [if_neg hprice]
    exact iff_of_false (fun h => by cases h) fun h => hprice h.1

theorem tradingFee_nonneg (m : FeeModel) {pricePips countCentis : ℤ} (hprice : 0 ≤ pricePips)
    (hpayout : pricePips ≤ pipsPerDollar) (hcount : 0 ≤ countCentis) :
    0 ≤ m.tradingFee pricePips countCentis := by
  have hcomplement : 0 ≤ pipsPerDollar - pricePips := by omega
  have hnumerator : 0 ≤ m.ratePpm * countCentis * pricePips * (pipsPerDollar - pricePips) :=
    mul_nonneg (mul_nonneg (mul_nonneg m.ratePpm_nonneg hcount) hprice) hcomplement
  exact mul_nonneg (quotient_overstate_nonneg tradingCentDenominator_pos hnumerator)
    microsPerCent_pos.le

theorem maxSettlementFeeMicros_nonneg {m : FeeModel} {countCentis fee : ℤ}
    (h : m.maxSettlementFeeMicros countCentis = .ok fee) : 0 ≤ fee := by
  unfold maxSettlementFeeMicros requirePositiveCount at h
  by_cases hcount : countCentis ≤ 0
  · rw [if_pos hcount] at h
    cases h
  · rw [if_neg hcount] at h
    have hnumerator : 0 ≤ m.settlementFeePpm * countCentis :=
      mul_nonneg m.settlement_nonneg (not_le.mp hcount).le
    cases h
    exact mul_nonneg (quotient_overstate_nonneg settlementCentDenominator_pos hnumerator)
      microsPerCent_pos.le

/-- **Pricing a size in two parts** never costs less than pricing it whole. -/
theorem tradingFee_split_le (m : FeeModel) (pricePips a b : ℤ) :
    m.tradingFee pricePips (a + b) ≤ m.tradingFee pricePips a + m.tradingFee pricePips b := by
  have hnumerator : m.ratePpm * (a + b) * pricePips * (pipsPerDollar - pricePips) =
      m.ratePpm * a * pricePips * (pipsPerDollar - pricePips) +
        m.ratePpm * b * pricePips * (pipsPerDollar - pricePips) := by
    ring
  unfold tradingFee
  rw [hnumerator]
  refine le_trans (mul_le_mul_of_nonneg_right ?_ microsPerCent_pos.le) (Int.add_mul _ _ _).le
  exact quotient_overstate_add_le tradingCentDenominator_pos _ _

end FeeModel

end Windbreak
