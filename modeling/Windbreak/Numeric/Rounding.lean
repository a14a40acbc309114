import Windbreak.Numeric.Units
import Mathlib.Tactic.Ring

/-!
# Rounding up and rounding down

What `quotient` is by its order: a cost is the least number of whole units that covers the amount,
an equity the greatest number that the amount covers.  Everything else here follows.
-/

namespace Windbreak

variable {d : ℤ}

theorem quotient_overstate (hd : 0 < d) (n : ℤ) :
    quotient n d .overstateCost = -((-n) / d) := by
  rw [quotient, Int.fdiv_eq_ediv_of_nonneg _ hd.le]

theorem quotient_understate (hd : 0 < d) (n : ℤ) :
    quotient n d .understateEquity = n / d := by
  rw [quotient, Int.fdiv_eq_ediv_of_nonneg _ hd.le]

/-- **A cost is the least number of whole units that covers it.** -/
theorem quotient_overstate_le_iff (hd : 0 < d) {n k : ℤ} :
    quotient n d .overstateCost ≤ k ↔ n ≤ k * d := by
  have hdiv : -k ≤ (-n) / d ↔ -k * d ≤ -n := Int.le_ediv_iff_mul_le hd
  rw [Int.neg_mul] at hdiv
  rw [quotient_overstate hd]
  omega

/-- **An equity is the greatest number of whole units that it covers.** -/
theorem le_quotient_understate_iff (hd : 0 < d) {n k : ℤ} :
    k ≤ quotient n d .understateEquity ↔ k * d ≤ n := by
  rw [quotient_understate hd]
  exact Int.le_ediv_iff_mul_le hd

theorem quotient_overstate_mono (hd : 0 < d) {m n : ℤ} (h : m ≤ n) :
    quotient m d .overstateCost ≤ quotient n d .overstateCost := by
  rw [quotient_overstate_le_iff hd]
  exact h.trans ((quotient_overstate_le_iff hd).mp (le_refl _))

/-- Two parts cost at least what the whole does. -/
theorem quotient_overstate_add_le (hd : 0 < d) (m n : ℤ) :
    quotient (m + n) d .overstateCost ≤
      quotient m d .overstateCost + quotient n d .overstateCost := by
  have hm := (quotient_overstate_le_iff hd (n := m)).mp (le_refl _)
  have hn := (quotient_overstate_le_iff hd (n := n)).mp (le_refl _)
  rw [quotient_overstate_le_iff hd, Int.add_mul]
  omega

theorem quotient_overstate_nonneg (hd : 0 < d) {n : ℤ} (hn : 0 ≤ n) :
    0 ≤ quotient n d .overstateCost := by
  by_contra hneg
  have hle : quotient n d .overstateCost ≤ -1 := by omega
  rw [quotient_overstate_le_iff hd] at hle
  omega

/-- **A share of an amount**, rounded down, lies between nothing and the amount. -/
theorem share_bounds (hd : 0 < d) {amount share : ℤ} (hamount : 0 ≤ amount) (hshare : 0 ≤ share)
    (hfull : share ≤ d) : 0 ≤ amount * share / d ∧ amount * share / d ≤ amount := by
  have hnonneg : 0 ≤ amount * share := Int.mul_nonneg hamount hshare
  have hle : amount * share ≤ amount * d := Int.mul_le_mul_of_nonneg_left hfull hamount
  refine ⟨Int.ediv_nonneg hnonneg hd.le, ?_⟩
  calc amount * share / d ≤ amount * d / d := Int.ediv_le_ediv hd hle
    _ = amount := Int.mul_ediv_cancel amount hd.ne'

end Windbreak
