import Mathlib.Algebra.BigOperators.Ring.List
import Mathlib.Algebra.Order.BigOperators.Group.List
import Mathlib.Algebra.Order.Field.Basic
import Mathlib.Tactic.FieldSimp
import Mathlib.Tactic.Linarith
import Mathlib.Tactic.Ring

/-!
# Moments of a finite sample

The mean and the covariance of quantities read off the entries of a list, over any ordered field.

* `mean`, `covariance`, `variance` — with `covariance_eq` they are computed from running sums.
* **`variance_le_quarter`** — a quantity between zero and one varies by a quarter at most.
* `weighted_gap` — the share of a part times the gap of its means needs no division by its size.
-/

namespace Moments

variable {α K : Type} [Field K] {f g : α → K} {xs : List α}

/-- The mean of a quantity over a sample. -/
def mean (f : α → K) (xs : List α) : K := (xs.map f).sum / xs.length

/-- The mean product of two deviations. -/
def covariance (f g : α → K) (xs : List α) : K :=
  mean (fun a => (f a - mean f xs) * (g a - mean g xs)) xs

/-- The mean squared deviation. -/
def variance (f : α → K) (xs : List α) : K := covariance f f xs

/-! ## Sums over a sample -/

/-- The sum of the products of affine images of two quantities. -/
theorem sum_affine_mul (f g : α → K) (xs : List α) (c d c' d' : K) :
    (xs.map fun x => (c + d * f x) * (c' + d' * g x)).sum =
      xs.length * (c * c') + c * d' * (xs.map g).sum + d * c' * (xs.map f).sum +
        d * d' * (xs.map fun x => f x * g x).sum := by
  induction xs with
  | nil => simp
  | cons a rest ih =>
      simp only [List.map_cons, List.sum_cons, List.length_cons, Nat.cast_succ, ih]
      ring

/-- **The covariance from running sums.** -/
theorem covariance_eq (hxs : (xs.length : K) ≠ 0) :
    covariance f g xs = (xs.length * (xs.map fun x => f x * g x).sum -
      (xs.map f).sum * (xs.map g).sum) / xs.length ^ 2 := by
  have hsum := sum_affine_mul f g xs (-mean f xs) 1 (-mean g xs) 1
  have hcov : covariance f g xs =
      (xs.map fun x => (-mean f xs + 1 * f x) * (-mean g xs + 1 * g x)).sum / xs.length := by
    unfold covariance
    rw [mean]
    congr 3
    funext x
    ring
  rw [hcov, hsum]
  unfold mean
  field_simp
  ring

/-! ## Samples with an order -/

section Ordered

variable [LinearOrder K] [IsStrictOrderedRing K]

theorem variance_nonneg : 0 ≤ variance f xs := by
  unfold variance covariance mean
  refine div_nonneg (List.sum_nonneg fun y hy => ?_) (Nat.cast_nonneg _)
  obtain ⟨a, -, rfl⟩ := List.mem_map.mp hy
  exact mul_self_nonneg _

theorem length_ne_zero (h : xs ≠ []) : (xs.length : K) ≠ 0 :=
  Nat.cast_ne_zero.mpr fun hzero => h (List.length_eq_zero_iff.mp hzero)

/-- A quantity that does not vary is the same throughout. -/
theorem variance_eq_zero_iff (hxs : xs ≠ []) :
    variance f xs = 0 ↔ ∀ a ∈ xs, ∀ b ∈ xs, f a = f b := by
  have hn : (xs.length : K) ≠ 0 := length_ne_zero hxs
  have hzero : variance f xs = 0 ↔ ∀ a ∈ xs, f a = mean f xs := by
    unfold variance covariance
    rw [mean, div_eq_zero_iff, or_iff_left hn]
    generalize mean f xs = m
    clear hn hxs
    induction xs with
    | nil => simp
    | cons a rest ih =>
        have hrest : 0 ≤ (rest.map fun x => (f x - m) * (f x - m)).sum := by
          refine List.sum_nonneg fun y hy => ?_
          obtain ⟨b, -, rfl⟩ := List.mem_map.mp hy
          exact mul_self_nonneg _
        rw [List.map_cons, List.sum_cons, add_eq_zero_iff_of_nonneg (mul_self_nonneg _) hrest, ih,
          mul_self_eq_zero, sub_eq_zero, List.forall_mem_cons]
  rw [hzero]
  constructor
  · intro h a ha b hb
    rw [h a ha, h b hb]
  · intro h a ha
    have hsum : (xs.map f).sum = xs.length * f a := by
      rw [List.map_congr_left fun b hb => h b hb a ha, List.map_const', List.sum_replicate,
        nsmul_eq_mul]
    rw [mean, hsum, mul_div_cancel_left₀ _ hn]

/-- **A quantity between zero and one** varies by a quarter at most. -/
theorem variance_le_quarter (h : ∀ a ∈ xs, 0 ≤ f a ∧ f a ≤ 1) : variance f xs ≤ 1 / 4 := by
  rcases eq_or_ne xs [] with rfl | hxs
  · simp [variance, covariance, mean]
  have hn : (xs.length : K) ≠ 0 := length_ne_zero hxs
  have hpos : (0 : K) < xs.length := lt_of_le_of_ne (Nat.cast_nonneg _) hn.symm
  have hsq : (xs.map fun x => f x * f x).sum ≤ (xs.map f).sum := by
    refine List.sum_le_sum fun a ha => ?_
    obtain ⟨hlow, hhigh⟩ := h a ha
    exact mul_le_of_le_one_left hlow hhigh
  rw [variance, covariance_eq hn, div_le_iff₀ (pow_pos hpos 2)]
  have hscaled := mul_le_mul_of_nonneg_left hsq hpos.le
  nlinarith [sq_nonneg ((xs.length : K) - 2 * (xs.map f).sum)]

/-- A quantity between zero and one has its mean there. -/
theorem mean_unit (h : ∀ a ∈ xs, 0 ≤ f a ∧ f a ≤ 1) : 0 ≤ mean f xs ∧ mean f xs ≤ 1 := by
  have hlow : 0 ≤ (xs.map f).sum := by
    refine List.sum_nonneg fun y hy => ?_
    obtain ⟨a, ha, rfl⟩ := List.mem_map.mp hy
    exact (h a ha).1
  have hhigh : (xs.map f).sum ≤ xs.length := by
    have := List.sum_le_card_nsmul (xs.map f) 1 fun y hy => by
      obtain ⟨a, ha, rfl⟩ := List.mem_map.mp hy
      exact (h a ha).2
    simpa using this
  exact ⟨div_nonneg hlow (Nat.cast_nonneg _), div_le_one_of_le₀ hhigh (Nat.cast_nonneg _)⟩

/-- **The gap of a part's means**, weighed by its share of a sample of size `n`. -/
theorem weighted_gap (f g : α → K) (xs : List α) (n : K) (hn : 0 < n) :
    (xs.length : K) / n * |mean f xs - mean g xs| = |(xs.map f).sum - (xs.map g).sum| / n := by
  rcases eq_or_ne xs [] with rfl | hxs
  · simp
  have hlen : (xs.length : K) ≠ 0 := length_ne_zero hxs
  have hpos : (0 : K) < xs.length := lt_of_le_of_ne (Nat.cast_nonneg _) hlen.symm
  unfold mean
  rw [← sub_div, abs_div, abs_of_pos hpos]
  field_simp

end Ordered

end Moments
