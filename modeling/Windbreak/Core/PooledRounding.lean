import Mathlib.Algebra.BigOperators.Group.List.Basic
import Mathlib.Algebra.Order.Ring.Int
import Mathlib.Data.Int.Init
import Mathlib.Tactic.LinearCombination
import Mathlib.Tactic.Ring

/-!
# Rounding parts up, and rounding their pool up

Amounts that are rounded up to whole units one by one, against one amount that is rounded up once.
Each part loses what it lacks of the next whole unit, the pool loses less than one unit.

* **`sum_unitsFor_le_iff`** — when the parts come to no more units than the pool.
* **`pooled_surplus`** — how much a quadratic `v (m - v)` takes more at one value than at the values
  of the parts: their spread around it, and what the value is off their average.
-/

namespace PooledRounding

/-! ## Whole units -/

/-- The least number of units that covers an amount. -/
def unitsFor (unit amount : ℤ) : ℤ := -(-amount / unit)

/-- What an amount lacks of that many units. -/
def lackOf (unit amount : ℤ) : ℤ := -amount % unit

theorem unitsFor_mul (unit amount : ℤ) :
    unitsFor unit amount * unit = amount + lackOf unit amount := by
  have hdivision := Int.emod_add_mul_ediv (-amount) unit
  unfold unitsFor lackOf
  rw [Int.neg_mul, mul_comm]
  omega

theorem le_unitsFor_iff {unit : ℤ} (hunit : 0 < unit) {units amount : ℤ} :
    units ≤ unitsFor unit amount ↔ units * unit < amount + unit := by
  have hdivision : -amount / unit < -units + 1 ↔ -amount < (-units + 1) * unit :=
    Int.ediv_lt_iff_lt_mul hunit
  have hexpand : (-units + 1) * unit = -(units * unit) + unit := by ring
  rw [hexpand] at hdivision
  unfold unitsFor
  omega

/-- The units of some parts, in amounts: the parts and what each lacks. -/
theorem sum_unitsFor_mul (unit : ℤ) (parts : List ℤ) :
    (parts.map (unitsFor unit)).sum * unit = parts.sum + (parts.map (lackOf unit)).sum := by
  induction parts with
  | nil => exact zero_mul unit
  | cons part rest ih =>
      simp only [List.map_cons, List.sum_cons]
      rw [add_mul, ih, unitsFor_mul]
      omega

/-- **The parts come to no more units than the pool** exactly when what they lack is less than one
unit more than what the pool exceeds them by. -/
theorem sum_unitsFor_le_iff {unit : ℤ} (hunit : 0 < unit) (parts : List ℤ) (pool : ℤ) :
    (parts.map (unitsFor unit)).sum ≤ unitsFor unit pool ↔
      (parts.map (lackOf unit)).sum < unit + (pool - parts.sum) := by
  rw [le_unitsFor_iff hunit, sum_unitsFor_mul]
  omega

/-! ## A quadratic at one value -/

section Quadratic

variable {R α : Type} [CommRing R] (weight value : α → R)

/-- How far the values of some items stand from one value, by their weights. -/
def spread (centre : R) (items : List α) : R :=
  (items.map fun item => weight item * (value item - centre) ^ 2).sum

/-- **What one value takes more than the values of the items**: their spread around it, and a
multiple of what the value is above their average. -/
theorem pooled_surplus (m centre : R) (items : List α) :
    (items.map weight).sum * (centre * (m - centre)) -
        (items.map fun item => weight item * (value item * (m - value item))).sum =
      spread weight value centre items + (m - 2 * centre) *
        ((items.map weight).sum * centre - (items.map fun item => value item * weight item).sum) := by
  unfold spread
  induction items with
  | nil => simp
  | cons item rest ih =>
      simp only [List.map_cons, List.sum_cons]
      linear_combination ih

end Quadratic

end PooledRounding

/-! ## Pro-rata shares

The share of an amount that a part of a whole earns, rounded down.  Shares are taken of cumulative
parts: what a further part earns is the difference of two shares, so the roundings cancel and the
whole earns the whole amount.
-/

namespace ProRata

variable {amount total part part' : ℤ}

/-- What `part` of `total` earns of `amount`, rounded down. -/
def share (amount total part : ℤ) : ℤ := amount * part / total

@[simp] theorem share_zero : share amount total 0 = 0 := by simp [share]

@[simp] theorem share_of_nothing : share 0 total part = 0 := by simp [share]

/-- The whole earns the whole amount. -/
theorem share_total (ht : 0 < total) : share amount total total = amount :=
  Int.mul_ediv_cancel amount ht.ne'

theorem share_mono (ha : 0 ≤ amount) (ht : 0 < total) (h : part ≤ part') :
    share amount total part ≤ share amount total part' :=
  Int.ediv_le_ediv ht (Int.mul_le_mul_of_nonneg_left h ha)

/-- Less than the whole earns less than the whole amount. -/
theorem share_lt (ha : 0 < amount) (hp : part < total) (ht : 0 < total) :
    share amount total part < amount := by
  rw [share, Int.ediv_lt_iff_lt_mul ht]
  exact Int.mul_lt_mul_of_pos_left hp ha

end ProRata
