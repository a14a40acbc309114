import Mathlib.Analysis.Complex.ExponentialBounds
import Mathlib.Analysis.SpecialFunctions.Log.Base
import Mathlib.Data.PNat.Basic
import Mathlib.Tactic.Linarith
import Mathlib.Tactic.Positivity

/-!
# Binary logarithms in fixed point

The binary logarithm of a ratio at least one: halve it into `[1, 2)`, write that with `bits` binary
places, and read off one place of the logarithm for each squaring.

* `halve`, `step`, `fixedLog` — the computation, over natural numbers alone.
* **`fixedLog_bounds`** — it is never above the logarithm, and less than four units of its last
  place below it.
-/

namespace BinaryLog

/-! ## The computation -/

/-- Double the denominator of a ratio until the ratio is below two, and count how often. -/
def halve (numerator : ℕ) (denominator : ℕ+) (integerPart : ℕ) : ℕ+ × ℕ :=
  if numerator ≥ 2 * denominator then halve numerator (2 * denominator) (integerPart + 1)
  else (denominator, integerPart)
termination_by numerator - denominator
decreasing_by
  have := denominator.pos
  rw [PNat.mul_coe]
  simp only [PNat.val_ofNat]
  omega

/-- Square a mantissa; if the square reaches two, halve it and write a one, else write a zero. -/
def step (bits : ℕ) (state : ℕ × ℕ) : ℕ × ℕ :=
  let square := state.1 * state.1 / 2 ^ bits
  if square ≥ 2 * 2 ^ bits then (square / 2, 2 * state.2 + 1) else (square, 2 * state.2)

/-- The places of the logarithm of a mantissa. -/
def fraction (bits mantissa : ℕ) : ℕ := ((step bits)^[bits] (mantissa, 0)).2

/-- The binary logarithm of a ratio, with `bits` binary places. -/
def fixedLog (bits numerator : ℕ) (denominator : ℕ+) : ℕ :=
  let (scaled, integerPart) := halve numerator denominator 0
  integerPart * 2 ^ bits + fraction bits (numerator * 2 ^ bits / scaled)

/-! ## What halving leaves -/

/-- The ratio is a power of two times one in `[1, 2)`. -/
theorem halve_spec (numerator : ℕ) (denominator : ℕ+) (integerPart : ℕ)
    (h : denominator ≤ numerator) :
    ∃ k, halve numerator denominator integerPart = (denominator * 2 ^ k, integerPart + k) ∧
      (denominator * 2 ^ k : ℕ+) ≤ numerator ∧ numerator < 2 * (denominator * 2 ^ k : ℕ+) := by
  induction denominator, integerPart using halve.induct numerator with
  | case1 denominator integerPart hge ih =>
      obtain ⟨k, hk, hle, hlt⟩ := ih (by simpa using hge)
      have hpow : denominator * 2 ^ (k + 1) = 2 * denominator * 2 ^ k := by
        rw [pow_succ]
        ac_rfl
      refine ⟨k + 1, ?_, ?_, ?_⟩
      · rw [halve, if_pos hge, hk, hpow, Nat.add_assoc, Nat.add_comm 1 k]
      · rwa [hpow]
      · rwa [hpow]
  | case2 denominator integerPart hlt =>
      refine ⟨0, ?_, ?_, ?_⟩
      · rw [halve, if_neg hlt, pow_zero, mul_one, Nat.add_zero]
      · rwa [pow_zero, mul_one]
      · rw [pow_zero, mul_one]
        exact Nat.lt_of_not_le hlt

/-! ## One place -/

section Places

variable {bits : ℕ}

/-- The binary logarithm of a mantissa. -/
noncomputable def logOf (bits mantissa : ℕ) : ℝ := Real.logb 2 (mantissa / 2 ^ bits)

/-- What one truncation can lose of a logarithm. -/
noncomputable def loss (bits : ℕ) : ℝ := Real.logb 2 (1 + 1 / 2 ^ bits)

/-- A mantissa in `[1, 2)`. -/
def IsMantissa (bits mantissa : ℕ) : Prop := 2 ^ bits ≤ mantissa ∧ mantissa < 2 * 2 ^ bits

theorem one_lt_two_real : (1 : ℝ) < 2 := one_lt_two

theorem loss_le (bits : ℕ) : 2 ^ bits * loss bits ≤ 3 / 2 := by
  have hpow : (0 : ℝ) < 2 ^ bits := by positivity
  have hlog : Real.log (1 + 1 / 2 ^ bits) ≤ 1 / 2 ^ bits := by
    have := Real.log_le_sub_one_of_pos (x := 1 + 1 / 2 ^ bits) (by positivity)
    linarith
  have htwo : 0.6931471803 < Real.log 2 := Real.log_two_gt_d9
  unfold loss Real.logb
  rw [← mul_div_assoc, div_le_iff₀ (by linarith)]
  calc 2 ^ bits * Real.log (1 + 1 / 2 ^ bits) ≤ 2 ^ bits * (1 / 2 ^ bits) :=
        mul_le_mul_of_nonneg_left hlog hpow.le
    _ = 1 := mul_one_div_cancel hpow.ne'
    _ ≤ 3 / 2 * Real.log 2 := by linarith

theorem loss_nonneg (bits : ℕ) : 0 ≤ loss bits :=
  Real.logb_nonneg one_lt_two_real (le_add_of_nonneg_right (by positivity))

/-- **A truncation**: the logarithm of what is kept is at most that of the whole, and short of it by
`loss` at most. -/
theorem logb_truncated {kept : ℕ} {whole : ℝ} (hkept : 2 ^ bits ≤ kept) (hle : kept ≤ whole)
    (hlt : whole ≤ kept + 1) :
    Real.logb 2 kept ≤ Real.logb 2 whole ∧
      Real.logb 2 whole ≤ Real.logb 2 kept + loss bits := by
  have hreal : (2 : ℝ) ^ bits ≤ kept := by exact_mod_cast hkept
  have hpow : (0 : ℝ) < 2 ^ bits := by positivity
  have hpos : (0 : ℝ) < kept := lt_of_lt_of_le hpow hreal
  refine ⟨Real.logb_le_logb_of_le one_lt_two_real hpos hle, ?_⟩
  unfold loss
  rw [← Real.logb_mul hpos.ne' (by positivity)]
  refine Real.logb_le_logb_of_le one_lt_two_real (lt_of_lt_of_le hpos hle) (hlt.trans ?_)
  have : 1 ≤ (kept : ℝ) * (1 / 2 ^ bits) := by
    rw [mul_one_div, le_div_iff₀ hpow]
    linarith
  linarith

theorem logOf_eq {mantissa : ℕ} (h : IsMantissa bits mantissa) :
    logOf bits mantissa = Real.logb 2 mantissa - bits := by
  have hpos : 0 < mantissa := lt_of_lt_of_le (by positivity) h.1
  unfold logOf
  rw [Real.logb_div (by exact_mod_cast hpos.ne') (by positivity), Real.logb_pow,
    Real.logb_self_eq_one one_lt_two_real, mul_one]

theorem logOf_nonneg {mantissa : ℕ} (h : IsMantissa bits mantissa) : 0 ≤ logOf bits mantissa := by
  unfold logOf
  refine Real.logb_nonneg one_lt_two_real ((one_le_div (by positivity)).mpr ?_)
  exact_mod_cast h.1

theorem logOf_lt_one {mantissa : ℕ} (h : IsMantissa bits mantissa) : logOf bits mantissa < 1 := by
  have hpos : (0 : ℝ) < mantissa := by exact_mod_cast lt_of_lt_of_le (by positivity) h.1
  unfold logOf
  rw [Real.logb_lt_iff_lt_rpow one_lt_two_real (by positivity), Real.rpow_one,
    div_lt_iff₀ (by positivity)]
  exact_mod_cast h.2

/-- Twice the logarithm of a mantissa is that of its square. -/
theorem logb_square {mantissa : ℕ} (h : IsMantissa bits mantissa) (shift : ℕ) :
    Real.logb 2 ((mantissa * mantissa : ℕ) / 2 ^ shift) = 2 * Real.logb 2 mantissa - shift := by
  have hpos : 0 < mantissa := lt_of_lt_of_le (by positivity) h.1
  have hne : (mantissa : ℝ) ≠ 0 := by exact_mod_cast hpos.ne'
  rw [Nat.cast_mul, Real.logb_div (mul_ne_zero hne hne) (by positivity), Real.logb_mul hne hne,
    Real.logb_pow, Real.logb_self_eq_one one_lt_two_real, mul_one]
  ring

/-- A quotient of natural numbers lies below the exact one, by less than one. -/
theorem cast_div_bounds (n d : ℕ) (hd : 0 < d) :
    ((n / d : ℕ) : ℝ) ≤ n / d ∧ (n : ℝ) / d ≤ (n / d : ℕ) + 1 := by
  refine ⟨Nat.cast_div_le, ?_⟩
  have hreal : (0 : ℝ) < d := by exact_mod_cast hd
  rw [div_le_iff₀ hreal]
  have := (Nat.lt_div_mul_add (a := n) hd).le
  have hcast : (n : ℝ) ≤ ((n / d * d + d : ℕ) : ℝ) := by exact_mod_cast this
  rw [Nat.cast_add, Nat.cast_mul] at hcast
  linarith

/-- **One place**: the mantissa stays one, and the places read and the logarithm left over are twice
what they were, up to `loss`. -/
theorem step_spec {state : ℕ × ℕ} (h : IsMantissa bits state.1) :
    IsMantissa bits (step bits state).1 ∧
      (step bits state).2 + logOf bits (step bits state).1 ≤ 2 * (state.2 + logOf bits state.1) ∧
      2 * (state.2 + logOf bits state.1) ≤
        (step bits state).2 + logOf bits (step bits state).1 + loss bits := by
  obtain ⟨mantissa, places⟩ := state
  dsimp only at h ⊢
  have hlow := Nat.mul_le_mul h.1 h.1
  have hhigh := Nat.mul_lt_mul'' h.2 h.2
  by_cases hge : mantissa * mantissa / 2 ^ bits ≥ 2 * 2 ^ bits
  · have hstep : step bits (mantissa, places) =
        (mantissa * mantissa / 2 ^ (bits + 1), 2 * places + 1) := by
      rw [step, if_pos hge, Nat.div_div_eq_div_mul, pow_succ]
    have hin : IsMantissa bits (mantissa * mantissa / 2 ^ (bits + 1)) := by
      rw [pow_succ, ← Nat.div_div_eq_div_mul]
      refine ⟨(Nat.le_div_iff_mul_le two_pos).mpr (by omega), ?_⟩
      rw [Nat.div_lt_iff_lt_mul two_pos, Nat.div_lt_iff_lt_mul (by positivity)]
      linarith
    obtain ⟨hbelow, habove⟩ := cast_div_bounds (mantissa * mantissa) (2 ^ (bits + 1)) (by positivity)
    rw [Nat.cast_pow, Nat.cast_ofNat] at hbelow habove
    have hcut := logb_truncated hin.1 hbelow habove
    rw [logb_square h] at hcut
    rw [hstep]
    dsimp only
    rw [logOf_eq h, logOf_eq hin]
    push_cast at hcut ⊢
    exact ⟨hin, by linarith [hcut.1], by linarith [hcut.2]⟩
  · have hstep : step bits (mantissa, places) = (mantissa * mantissa / 2 ^ bits, 2 * places) := by
      rw [step, if_neg hge]
    have hin : IsMantissa bits (mantissa * mantissa / 2 ^ bits) :=
      ⟨(Nat.le_div_iff_mul_le (by positivity)).mpr hlow, Nat.lt_of_not_le hge⟩
    obtain ⟨hbelow, habove⟩ := cast_div_bounds (mantissa * mantissa) (2 ^ bits) (by positivity)
    rw [Nat.cast_pow, Nat.cast_ofNat] at hbelow habove
    have hcut := logb_truncated hin.1 hbelow habove
    rw [logb_square h] at hcut
    rw [hstep]
    dsimp only
    rw [logOf_eq h, logOf_eq hin]
    push_cast at hcut ⊢
    exact ⟨hin, by linarith [hcut.1], by linarith [hcut.2]⟩

/-- **Every place**: by induction, what one step loses is doubled by each that follows. -/
theorem steps_spec {mantissa : ℕ} (h : IsMantissa bits mantissa) (count : ℕ) :
    IsMantissa bits ((step bits)^[count] (mantissa, 0)).1 ∧
      ((step bits)^[count] (mantissa, 0)).2 + logOf bits ((step bits)^[count] (mantissa, 0)).1 ≤
        2 ^ count * logOf bits mantissa ∧
      2 ^ count * logOf bits mantissa ≤
        ((step bits)^[count] (mantissa, 0)).2 +
          logOf bits ((step bits)^[count] (mantissa, 0)).1 + (2 ^ count - 1) * loss bits := by
  induction count with
  | zero => simpa using h
  | succ count ih =>
      obtain ⟨hin, hbelow, habove⟩ := ih
      obtain ⟨hin', hbelow', habove'⟩ := step_spec hin
      rw [Function.iterate_succ_apply', pow_succ]
      refine ⟨hin', by linarith, ?_⟩
      have hloss := loss_nonneg bits
      linarith

/-- The places of a logarithm are its own, and at most two and a half units are lost. -/
theorem fraction_bounds {mantissa : ℕ} (h : IsMantissa bits mantissa) :
    fraction bits mantissa ≤ 2 ^ bits * logOf bits mantissa ∧
      2 ^ bits * logOf bits mantissa < fraction bits mantissa + 5 / 2 := by
  obtain ⟨hin, hbelow, habove⟩ := steps_spec h bits
  have hleft := logOf_nonneg hin
  have hone := logOf_lt_one hin
  have hloss := loss_le bits
  have hsign := loss_nonneg bits
  unfold fraction
  exact ⟨by linarith, by linarith⟩

end Places

/-- **The fixed-point logarithm** is never above the logarithm, and less than four units of its last
place below it. -/
theorem fixedLog_bounds (bits numerator : ℕ) (denominator : ℕ+) (h : denominator ≤ numerator) :
    fixedLog bits numerator denominator ≤ 2 ^ bits * Real.logb 2 (numerator / denominator) ∧
      2 ^ bits * Real.logb 2 (numerator / denominator) <
        fixedLog bits numerator denominator + 4 := by
  obtain ⟨k, hk, hle, hlt⟩ := halve_spec numerator denominator 0 h
  generalize hscaled : (denominator * 2 ^ k : ℕ+) = scaled at hk hle hlt
  have hpos : (0 : ℝ) < scaled := by exact_mod_cast scaled.pos
  have hnumerator : (0 : ℝ) < numerator := by
    exact_mod_cast lt_of_lt_of_le scaled.pos hle
  have hdenominator : (denominator : ℝ) = scaled / 2 ^ k := by
    rw [eq_div_iff (by positivity), ← hscaled]
    push_cast
    rfl
  have hsplit : Real.logb 2 (numerator / denominator) = k + Real.logb 2 (numerator / scaled) := by
    rw [hdenominator, div_div_eq_mul_div, mul_comm, mul_div_assoc,
      Real.logb_mul (by positivity) (by positivity), Real.logb_pow,
      Real.logb_self_eq_one one_lt_two_real, mul_one]
  have hin : IsMantissa bits (numerator * 2 ^ bits / scaled) := by
    refine ⟨(Nat.le_div_iff_mul_le scaled.pos).mpr ?_, ?_⟩
    · rw [mul_comm]
      exact Nat.mul_le_mul_right _ hle
    · rw [Nat.div_lt_iff_lt_mul scaled.pos]
      have := Nat.mul_lt_mul_of_pos_right hlt (Nat.two_pow_pos bits)
      calc numerator * 2 ^ bits < 2 * scaled * 2 ^ bits := this
        _ = 2 * 2 ^ bits * scaled := by ring
  obtain ⟨hbelow, habove⟩ := cast_div_bounds (numerator * 2 ^ bits) scaled scaled.pos
  have hcut := logb_truncated hin.1 hbelow habove
  have hexact : Real.logb 2 ((numerator * 2 ^ bits : ℕ) / (scaled : ℕ)) =
      Real.logb 2 (numerator / scaled) + bits := by
    rw [Nat.cast_mul, Nat.cast_pow, Nat.cast_ofNat, mul_div_right_comm,
      Real.logb_mul (by positivity) (by positivity), Real.logb_pow,
      Real.logb_self_eq_one one_lt_two_real, mul_one]
  rw [hexact] at hcut
  have hplaces := fraction_bounds hin
  rw [logOf_eq hin] at hplaces
  have hvalue : fixedLog bits numerator denominator =
      k * 2 ^ bits + fraction bits (numerator * 2 ^ bits / scaled) := by
    unfold fixedLog
    rw [hk]
    dsimp only
    rw [Nat.zero_add]
  have hpow : (0 : ℝ) < 2 ^ bits := by positivity
  have hloss := loss_le bits
  have hlow := mul_le_mul_of_nonneg_left hcut.1 hpow.le
  have hhigh := mul_le_mul_of_nonneg_left hcut.2 hpow.le
  rw [hvalue, hsplit]
  push_cast
  constructor <;> linarith [hplaces.1, hplaces.2]

end BinaryLog
